import Ariel.Query.OrderBy
import Ariel.Query.Table
import Ariel.Query.Window

/-!
# Drafts

A draft holds the clauses of a query while they are being chosen. Editing trims what it stores and
drops blank entries, so that only a record read as it stands can hold others.
-/

namespace Ariel.Query

open Ariel.Text

/-- The largest number of rows to return, at least one. -/
structure RowLimit where
  rows : UInt32
  positive : rows ≠ 0
  deriving DecidableEq, Repr

/-- The limit of so many rows, unless that is none. -/
def RowLimit.ofWord? (rows : UInt32) : Option RowLimit :=
  if h : rows ≠ 0 then some ⟨rows, h⟩ else none

/-- The clauses chosen so far. -/
structure Draft where
  table : Option Table := none
  columns : List String := []
  conditions : List String := []
  groupBy : List String := []
  having : List String := []
  orderBy : Option OrderBy := none
  limit : Option RowLimit := none
  window : Window := .unbounded
  deriving DecidableEq, Repr

/-- The entries trimmed, without the blank ones. -/
def tidy (entries : List String) : List String :=
  (entries.map trim).filter fun s => !s.isEmpty

/-- The list with a trimmed entry added at its end, unless the entry is blank. -/
def addTidy? (entries : List String) (entry : String) : Option (List String) :=
  if (trim entry).isEmpty then none else some (entries ++ [trim entry])

/-- The list without its entry at an index, and that entry. -/
def removeAt? (entries : List String) (index : Nat) : Option (String × List String) :=
  (entries[index]?).map fun entry => (entry, entries.eraseIdx index)

namespace Draft

/-- A draft with nothing chosen. -/
def empty : Draft := {}

/-- A draft that reads from a table. -/
def ofTable (table : Table) : Draft := { table := some table }

/-- Choose the table. -/
def setTable (draft : Draft) (table : Table) : Draft :=
  { draft with table := some table }

/-- Replace the columns. -/
def setColumns (draft : Draft) (columns : List String) : Draft :=
  { draft with columns := tidy columns }

/-- Add a column, unless it is blank. -/
def addColumn? (draft : Draft) (column : String) : Option Draft :=
  (addTidy? draft.columns column).map fun columns => { draft with columns }

/-- Add a WHERE predicate, unless it is blank. -/
def addCondition? (draft : Draft) (condition : String) : Option Draft :=
  (addTidy? draft.conditions condition).map fun conditions => { draft with conditions }

/-- Remove the WHERE predicate at an index, counted from zero. -/
def removeCondition? (draft : Draft) (index : Nat) : Option (String × Draft) :=
  (removeAt? draft.conditions index).map fun (removed, conditions) =>
    (removed, { draft with conditions })

/-- Remove every WHERE predicate. -/
def clearConditions (draft : Draft) : Draft :=
  { draft with conditions := [] }

/-- Replace the grouping columns. -/
def setGroupBy (draft : Draft) (columns : List String) : Draft :=
  { draft with groupBy := tidy columns }

/-- Add a HAVING predicate, unless it is blank. -/
def addHaving? (draft : Draft) (condition : String) : Option Draft :=
  (addTidy? draft.having condition).map fun having => { draft with having }

/-- Remove the HAVING predicate at an index, counted from zero. -/
def removeHaving? (draft : Draft) (index : Nat) : Option (String × Draft) :=
  (removeAt? draft.having index).map fun (removed, having) => (removed, { draft with having })

/-- Remove every HAVING predicate. -/
def clearHaving (draft : Draft) : Draft :=
  { draft with having := [] }

/-- Replace the sort order; a list without columns removes it. -/
def setOrderBy (draft : Draft) (columns : List String) (direction : Direction) : Draft :=
  match tidy columns with
  | [] => { draft with orderBy := none }
  | columns => { draft with orderBy := some ⟨columns, direction⟩ }

/-- Sort on one column, stored as it stands. -/
def sortOn (draft : Draft) (column : String) (direction : Direction) : Draft :=
  { draft with orderBy := some (.single column direction) }

/-- Remove the sort order. -/
def clearOrderBy (draft : Draft) : Draft :=
  { draft with orderBy := none }

/-- A limit must allow at least one row. -/
def zeroLimit : QueryError :=
  .invalidLimit "LIMIT must be a positive integer"

/-- Set the limit, which must allow at least one row. -/
def setLimit (draft : Draft) (rows : UInt32) : Except QueryError Draft :=
  match RowLimit.ofWord? rows with
  | none => .error zeroLimit
  | some limit => .ok { draft with limit := some limit }

/-- Set the limit, where zero removes it. -/
def withLimit (draft : Draft) (rows : UInt32) : Draft :=
  { draft with limit := RowLimit.ofWord? rows }

/-- Remove the limit. -/
def clearLimit (draft : Draft) : Draft :=
  { draft with limit := none }

/-- Replace the time window. -/
def setWindow (draft : Draft) (window : Window) : Draft :=
  { draft with window }

/-- Add a WHERE predicate where a blank one is passed over. -/
def filter (draft : Draft) (condition : String) : Draft :=
  (draft.addCondition? condition).getD draft

/-- Add a HAVING predicate where a blank one is passed over. -/
def filterGroups (draft : Draft) (condition : String) : Draft :=
  (draft.addHaving? condition).getD draft

/-- The first required part that is not there: the table, or a column that is not blank. -/
def missing? (draft : Draft) : Option RequiredPart :=
  if draft.table.isNone then some .table
  else if draft.columns.all allBlank then some .columns
  else none

end Draft

end Ariel.Query
