import Ariel.Query.Error
import Ariel.Text.Blank
import Ariel.Text.LetterCase

/-!
# Sort orders

The ORDER BY clause sorts on a list of columns in one direction.
-/

namespace Ariel.Query

open Ariel.Text

/-- The direction of a sort order. -/
inductive Direction where
  | ascending
  | descending
  deriving DecidableEq, Repr

namespace Direction

/-- The keyword of a direction. -/
def keyword : Direction → String
  | .ascending => "ASC"
  | .descending => "DESC"

/-- Read a direction keyword in any letter case, with blanks around it. -/
def ofKeyword (text : String) : Except QueryError Direction :=
  match uppercase (trim text) with
  | "ASC" => .ok .ascending
  | "DESC" => .ok .descending
  | other =>
      .error (.invalidCondition ("sort direction must be ASC or DESC, got '" ++ other ++ "'"))

/-- The direction a structured record names by one of its four exact words. -/
def ofWord? : String → Option Direction
  | "ASC" | "asc" => some .ascending
  | "DESC" | "desc" => some .descending
  | _ => none

end Direction

/-- The columns to sort on, and the direction that follows the last of them. -/
structure OrderBy where
  columns : List String
  direction : Direction := .descending
  deriving DecidableEq, Repr

/-- Sort on a single column. -/
def OrderBy.single (column : String) (direction : Direction) : OrderBy :=
  ⟨[column], direction⟩

end Ariel.Query
