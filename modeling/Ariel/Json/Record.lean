import Ariel.Json.Value

/-!
# Records in JSON

A record is an object with named fields, or the array of its fields in their fixed order. A field
may be left out where it has a default, and must not be given twice; names that the record does not
know are passed over. The decoders refuse values of any other type.
-/

namespace Ariel.Json

/-- The value of a named field: `none` when it is given twice, `some none` when it is left out. -/
def field? (name : String) (members : List (String × Json)) : Option (Option Json) :=
  match members.filter (·.1 == name) with
  | [] => some none
  | [(_, value)] => some (some value)
  | _ => none

/-- The fields of a record with these names. The result has one entry a name. -/
def record? (names : List String) : Json → Option (List (Option Json))
  | .object members => names.mapM fun name => field? name members
  | .array items =>
      if items.length ≤ names.length then
        some (items.map some ++ List.replicate (names.length - items.length) none)
      else none
  | _ => none

/-- A truth value. -/
def bool? : Json → Option Bool
  | .bool value => some value
  | _ => none

/-- A natural number below a bound. -/
def natBelow? (below : Nat) : Json → Option Nat
  | .integer (.ofNat n) => if n < below then some n else none
  | _ => none

/-- An unsigned number of 32 bits. -/
def word32? (value : Json) : Option UInt32 :=
  (natBelow? UInt32.size value).map UInt32.ofNat

/-- A text. -/
def text? : Json → Option String
  | .string value => some value
  | _ => none

/-- A list of texts. -/
def texts? : Json → Option (List String)
  | .array items => items.mapM text?
  | _ => none

/-- One word of a fixed choice, also when it stands as the only name of an object, without
content. -/
def word? {α : Type} (choice : String → Option α) : Json → Option α
  | .string word => choice word
  | .object [(word, .null)] => choice word
  | _ => none

/-- A value that may be null. -/
def nullable? {α : Type} (decode : Json → Option α) : Json → Option (Option α)
  | .null => some none
  | value => (decode value).map some

/-- A field that may be left out in favour of a default. -/
def orDefault {α : Type} (default : α) (decode : Json → Option α) : Option Json → Option α
  | none => some default
  | some value => decode value

end Ariel.Json
