import Ariel.Text.DecimalDigit
import Ariel.Text.Pattern
import Ariel.Validation.Remark

/-!
# Checks of conditions

A condition list is not empty, and every connective joins two conditions.
-/

namespace Ariel.Validation

open Ariel.Text

/-- Take the keyword LAST, blanks and one digit, the beginning of a relative time clause. -/
def lastAmount? (cs : List Char) : Option (List Char) := do
  match ← blanks? (← keyword? "LAST" cs) with
  | [] => none
  | c :: rest => if isDecimalDigit c then some rest else none

/-- Take a keyword that ends a word. -/
def wordEnd? (keyword : String) (cs : List Char) : Option (List Char) := do
  let rest ← keyword? keyword cs
  guard (endsWord rest)
  pure rest

/-- Take the beginning of a clause that can follow HAVING. -/
def laterClause? (cs : List Char) : Option (List Char) :=
  (phrase? "ORDER" "BY" cs).or ((wordEnd? "LIMIT" cs).or ((lastAmount? cs).or
    (wordEnd? "START" cs)))

/-- Take the beginning of a clause that can follow WHERE. -/
def followingClause? (cs : List Char) : Option (List Char) :=
  (phrase? "GROUP" "BY" cs).or ((wordEnd? "HAVING" cs).or (laterClause? cs))

/-- Take blanks and then the beginning of a clause, or the end of the text. -/
def nothingBefore? (clause : List Char → Option (List Char)) (cs : List Char) :
    Option (List Char) :=
  match dropBlanks cs with
  | [] => some []
  | c :: cs => clause (c :: cs)

/-- A keyword with nothing between it and the next clause. -/
def emptyClause (keyword : String) (clause : List Char → Option (List Char)) : Pattern Unit :=
  fun before cs => do
    let (_, rest) ← wordStart keyword before cs
    pure ((), ← nothingBefore? clause rest)

/-- Take a connective and give its keyword. -/
def connective? (cs : List Char) : Option (String × List Char) :=
  ["AND", "OR"].findSome? fun connective =>
    (keyword? connective cs).map fun rest => (connective, rest)

/-- Two connectives with only blanks between them. -/
def doubledConnective : Pattern (String × String) := fun before cs => do
  guard (beginsWord before)
  let (first, rest) ← connective? cs
  let (second, rest) ← connective? (← blanks? rest)
  guard (endsWord rest)
  pure ((first, second), rest)

/-- The beginning of a condition list, and a connective right after it. It reports how many bytes
behind the beginning the connective stands, and the connective. -/
def leadingConnective : Pattern (Nat × String) := fun before cs => do
  let (_, rest) ← firstOf [wordStart "WHERE", wordStart "HAVING"] before cs
  let gap ← blanks? rest
  let (connective, rest) ← connective? gap
  guard (endsWord rest)
  pure ((bytesUpTo gap cs, connective), rest)

/-- A connective with nothing between it and the next clause. -/
def trailingConnective : Pattern String := fun before cs => do
  guard (beginsWord before)
  let (connective, rest) ← connective? cs
  pure (connective, ← nothingBefore? followingClause? rest)

/-- Condition lists are not empty and connectives join two conditions. -/
def emptyConditions (text : List Char) : List Remark :=
  Remark.sortByPosition (
    ((occurrences (emptyClause "WHERE" followingClause?) text).map fun found =>
      (Remark.warning "WHERE clause has no conditions").placed found.offset)
    ++ ((occurrences (emptyClause "HAVING" laterClause?) text).map fun found =>
      (Remark.warning "HAVING clause has no conditions").placed found.offset)
    ++ ((occurrences doubledConnective text).map fun found =>
      let (first, second) := found.value
      (Remark.warning
        ("Empty condition between '" ++ first ++ "' and '" ++ second ++ "'")).placed
          found.offset)
    ++ ((occurrences leadingConnective text).map fun found =>
      let (gap, connective) := found.value
      (Remark.warning
        ("Condition list starts with a dangling '" ++ connective ++ "'")).placed
          (found.offset + gap))
    ++ ((occurrences trailingConnective text).map fun found =>
      (Remark.warning
        ("Condition list ends with a dangling '" ++ found.value ++ "'")).placed found.offset))

end Ariel.Validation
