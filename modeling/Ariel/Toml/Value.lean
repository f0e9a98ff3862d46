/-!
# TOML values

A document is a table. Every table remembers how it came to be, because that decides what may be
added to it later.
-/

namespace Ariel

/-- How a table came to be: from a header of its own, from the header of a table inside it, from a
dotted key, or from braces, which hold all of it. -/
inductive Toml.Origin where
  | header
  | implied
  | dotted
  | braces
  deriving DecidableEq, Repr

/-- A TOML value. Fractional numbers and dates are kept as they are written. `tables` is a list of
tables with headers of their own. -/
inductive Toml where
  | string (value : String)
  | integer (value : Int)
  | real (literal : String)
  | bool (value : Bool)
  | datetime (literal : String)
  | array (items : List Toml)
  | tables (items : List Toml)
  | table (origin : Toml.Origin) (members : List (String × Toml))
  deriving Repr, Inhabited

namespace Toml

/-- Put a member into a table, in the place of an earlier one with the same name. -/
def put (name : String) (value : Toml) : List (String × Toml) → List (String × Toml)
  | [] => [(name, value)]
  | (other, otherValue) :: members =>
      if other = name then (name, value) :: members
      else (other, otherValue) :: put name value members

/-- Whether a value is an empty list or an empty table. -/
def isEmpty : Toml → Bool
  | .array [] | .tables [] | .table _ [] => true
  | _ => false

end Toml

end Ariel
