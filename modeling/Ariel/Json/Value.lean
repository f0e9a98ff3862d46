import Ariel.Text.Hexadecimal
import Ariel.Text.Numeral

/-!
# JSON values

JSON values and their two written forms: on one line, and indented by two spaces. The members of an
object keep their order; `sorted` puts them in the order of their names.
-/

namespace Ariel

/-- A JSON value. A number is an integer, or a literal with a fraction, an exponent or a negative
zero. -/
inductive Json where
  | null
  | bool (value : Bool)
  | integer (value : Int)
  | real (literal : String)
  | string (value : String)
  | array (items : List Json)
  | object (members : List (String × Json))
  deriving Repr, Inhabited

namespace Json

open Text

/-- A natural number as a value. -/
def nat (n : Nat) : Json := .integer n

/-- A list of texts as a value. -/
def strings (items : List String) : Json := .array (items.map .string)

/-- A list of values, each encoded in the same way. -/
def records {α : Type} (encode : α → Json) (items : List α) : Json := .array (items.map encode)

/-- A value that may be missing, which is then null. -/
def orNull {α : Type} (encode : α → Json) : Option α → Json
  | none => .null
  | some a => encode a

/-- The value of the first member with a name. -/
def member? (name : String) : Json → Option Json
  | .object members => members.lookup name
  | _ => none

/-- A character inside a quoted string. Quotes, backslashes and control characters are escaped. -/
def quotedChar (c : Char) : List Char :=
  if c = '"' then ['\\', '"']
  else if c = '\\' then ['\\', '\\']
  else if c = '\n' then ['\\', 'n']
  else if c = '\r' then ['\\', 'r']
  else if c = '\t' then ['\\', 't']
  else if c.toNat = 8 then ['\\', 'b']
  else if c.toNat = 12 then ['\\', 'f']
  else if c.toNat < 0x20 then
    ['\\', 'u', '0', '0', hexDigit (c.toNat / 16), hexDigit c.toNat]
  else [c]

/-- A text as a quoted string. -/
def quoted (s : String) : String :=
  "\"" ++ String.ofList (s.toList.flatMap quotedChar) ++ "\""

/-- An integer in decimal digits. -/
def integerText (n : Int) : String :=
  if n < 0 then "-" ++ decimal n.natAbs else decimal n.natAbs

mutual

/-- The value on one line, without blanks between its parts. -/
def compact : Json → String
  | .null => "null"
  | .bool value => if value then "true" else "false"
  | .integer value => integerText value
  | .real literal => literal
  | .string value => quoted value
  | .array items => "[" ++ compactItems items ++ "]"
  | .object members => "\x7b" ++ compactMembers members ++ "\x7d"

/-- The items of an array, separated by commas. -/
def compactItems : List Json → String
  | [] => ""
  | [item] => compact item
  | item :: items => compact item ++ "," ++ compactItems items

/-- The members of an object, separated by commas. -/
def compactMembers : List (String × Json) → String
  | [] => ""
  | [(name, value)] => quoted name ++ ":" ++ compact value
  | (name, value) :: members =>
      quoted name ++ ":" ++ compact value ++ "," ++ compactMembers members

end

/-- A line break and the indentation of a nesting depth. -/
def newline (depth : Nat) : String :=
  "\n" ++ String.ofList (List.replicate (2 * depth) ' ')

mutual

/-- The value over several lines, at a nesting depth. Empty arrays and objects stay on one line. -/
def indented (depth : Nat) : Json → String
  | .null => "null"
  | .bool value => if value then "true" else "false"
  | .integer value => integerText value
  | .real literal => literal
  | .string value => quoted value
  | .array [] => "[]"
  | .array (item :: items) =>
      "[" ++ newline (depth + 1) ++ indented (depth + 1) item ++ indentedItems (depth + 1) items
        ++ newline depth ++ "]"
  | .object [] => "\x7b\x7d"
  | .object ((name, value) :: members) =>
      "\x7b" ++ newline (depth + 1) ++ quoted name ++ ": " ++ indented (depth + 1) value
        ++ indentedMembers (depth + 1) members ++ newline depth ++ "\x7d"

/-- The further items of an array, each on a line of its own. -/
def indentedItems (depth : Nat) : List Json → String
  | [] => ""
  | item :: items => "," ++ newline depth ++ indented depth item ++ indentedItems depth items

/-- The further members of an object, each on a line of its own. -/
def indentedMembers (depth : Nat) : List (String × Json) → String
  | [] => ""
  | (name, value) :: members =>
      "," ++ newline depth ++ quoted name ++ ": " ++ indented depth value
        ++ indentedMembers depth members

end

/-- The value over several lines, indented by two spaces. -/
def pretty (value : Json) : String := indented 0 value

/-- Insert a member by the order of the names. -/
def insertMember (name : String) (value : Json) :
    List (String × Json) → List (String × Json)
  | [] => [(name, value)]
  | (other, otherValue) :: members =>
      if name < other then (name, value) :: (other, otherValue) :: members
      else (other, otherValue) :: insertMember name value members

mutual

/-- The value with the members of every object in the order of their names. -/
def sorted : Json → Json
  | .array items => .array (sortedItems items)
  | .object members => .object (sortedMembers members)
  | value => value

/-- Every item sorted within. -/
def sortedItems : List Json → List Json
  | [] => []
  | item :: items => sorted item :: sortedItems items

/-- The members in the order of their names, each sorted within. -/
def sortedMembers : List (String × Json) → List (String × Json)
  | [] => []
  | (name, value) :: members => insertMember name (sorted value) (sortedMembers members)

end

end Json

end Ariel
