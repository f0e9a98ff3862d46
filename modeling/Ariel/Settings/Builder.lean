import Ariel.Json.Record
import Ariel.Query.Record

/-!
# Settings of the query builder

The defaults of a new query, and how a session treats its terminal.
-/

namespace Ariel

open Query Json

/-- The settings of the query builder. -/
structure BuilderSettings where
  defaultTable : Table := .events
  defaultOrder : Direction := .descending
  clearScreen : Bool := true
  clipboard : Bool := true
  deriving DecidableEq, Repr

namespace BuilderSettings

/-- Settings as a record. -/
def toJson (settings : BuilderSettings) : Json :=
  .object [("default_table", .string settings.defaultTable.name),
    ("default_order", .string settings.defaultOrder.keyword),
    ("clear_screen", .bool settings.clearScreen), ("clipboard", .bool settings.clipboard)]

/-- Read settings from their record. -/
def ofJson? (value : Json) : Option BuilderSettings := do
  match ← record? ["default_table", "default_order", "clear_screen", "clipboard"] value with
  | [table, order, clearScreen, clipboard] =>
      some {
        defaultTable := ← orDefault .events (word? Table.ofWord?) table
        defaultOrder := ← orDefault .descending (word? Direction.ofWord?) order
        clearScreen := ← orDefault true bool? clearScreen
        clipboard := ← orDefault true bool? clipboard }
  | _ => none

end BuilderSettings

end Ariel
