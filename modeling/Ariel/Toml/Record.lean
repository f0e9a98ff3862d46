import Ariel.Toml.Value

/-!
# Records in TOML

A record is a table of named fields, or the list of its fields in their fixed order. Names and items
that the record does not know are passed over. The decoders refuse values of any other type.
-/

namespace Ariel.Toml

/-- The fields of a record with these names. The result has one entry a name. -/
def record? (names : List String) : Toml → Option (List (Option Toml))
  | .table _ members => some (names.map fun name => members.lookup name)
  | .datetime _ => some (names.map fun _ => none)
  | .array items | .tables items =>
      let known := items.take names.length
      some (known.map some ++ List.replicate (names.length - known.length) none)
  | _ => none

/-- A text. -/
def string? : Toml → Option String
  | .string value => some value
  | _ => none

/-- A list of texts. -/
def strings? : Toml → Option (List String)
  | .array items | .tables items => items.mapM string?
  | _ => none

/-- A truth value. -/
def bool? : Toml → Option Bool
  | .bool value => some value
  | _ => none

/-- A natural number below a bound. -/
def natBelow? (below : Nat) : Toml → Option Nat
  | .integer (.ofNat n) => if n < below then some n else none
  | _ => none

/-- One word of a fixed choice, also when it stands as the only name in a table, without content. -/
def word? {α : Type} (choice : String → Option α) : Toml → Option α
  | .string word => choice word
  | .table _ [(word, value)] => if value.isEmpty then choice word else none
  | _ => none

/-- A field that may be left out in favour of a default. -/
def orDefault {α : Type} (default : α) (decode : Toml → Option α) : Option Toml → Option α
  | none => some default
  | some value => decode value

end Ariel.Toml
