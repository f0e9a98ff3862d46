import Ariel.Query.Draft
import Ariel.Settings.Builder

/-!
# Selections

A selection is what a caller asks of a query in one go, apart from its time range. What it leaves
open is filled in from the settings.
-/

namespace Ariel.Query

open Ariel.Text

/-- The clauses that a caller asks for. -/
structure Selection where
  table : Option Table := none
  columns : List String := []
  conditions : List String := []
  groupBy : List String := []
  having : List String := []
  orderBy : List String := []
  direction : Option Direction := none
  limit : Option UInt32 := none
  deriving DecidableEq, Repr

namespace Selection

/-- The columns asked for, or all of them when none are. -/
def columnsOrAll (selection : Selection) : List String :=
  if selection.columns.all allBlank then ["*"] else selection.columns

/-- The draft before its limit is set. -/
def unlimited (selection : Selection) (defaults : BuilderSettings) : Draft :=
  let draft := (Draft.ofTable (selection.table.getD defaults.defaultTable)).setColumns
    selection.columnsOrAll
  let draft := selection.conditions.foldl Draft.filter draft
  let draft := selection.having.foldl Draft.filterGroups (draft.setGroupBy selection.groupBy)
  draft.setOrderBy selection.orderBy (selection.direction.getD defaults.defaultOrder)

/-- The draft of a selection. It fails for a limit of no rows only. -/
def toDraft (selection : Selection) (defaults : BuilderSettings) : Except QueryError Draft :=
  match selection.limit with
  | none => .ok (selection.unlimited defaults)
  | some rows => (selection.unlimited defaults).setLimit rows

end Selection

end Ariel.Query
