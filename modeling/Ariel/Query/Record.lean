import Ariel.Json.Record
import Ariel.Query.Draft

/-!
# Drafts as JSON records

The structured form of drafts and of their parts. A record is read as it stands, without trimming
and without checking its window, and every field is written.
-/

namespace Ariel.Query

open Ariel.Json

/-- The table that a record names by its exact name. -/
def Table.ofWord? : String → Option Table
  | "events" => some .events
  | "flows" => some .flows
  | _ => none

namespace Window

/-- A window as a record, told apart by its kind. -/
def toJson : Window → Json
  | .unbounded => .object [("kind", .string "none")]
  | .relative amount unit =>
      .object [("kind", .string "relative"), ("amount", .nat amount.toNat),
        ("unit", .string unit.keyword)]
  | .absolute start stop =>
      .object [("kind", .string "absolute"), ("start", .string start),
        ("stop", .orNull .string stop)]

/-- Split a record with a kind into the kind and the rest. -/
def kindOf? : Json → Option (String × Json)
  | .object members =>
      match field? "kind" members with
      | some (some (.string kind)) => some (kind, .object (members.filter (·.1 != "kind")))
      | _ => none
  | .array (.string kind :: items) => some (kind, .array items)
  | _ => none

/-- Read a window from its record. -/
def ofJson? (value : Json) : Option Window := do
  let (kind, rest) ← kindOf? value
  match kind with
  | "none" =>
      match ← record? [] rest with
      | [] => some .unbounded
      | _ => none
  | "relative" =>
      match ← record? ["amount", "unit"] rest with
      | [some amount, some unit] =>
          some (.relative (← word32? amount) (← word? TimeUnit.ofWord? unit))
      | _ => none
  | "absolute" =>
      match ← record? ["start", "stop"] rest with
      | [some start, stop] =>
          some (.absolute (← text? start) (← orDefault none (nullable? text?) stop))
      | _ => none
  | _ => none

end Window

namespace OrderBy

/-- A sort order as a record. -/
def toJson (order : OrderBy) : Json :=
  .object [("columns", .strings order.columns), ("direction", .string order.direction.keyword)]

/-- Read a sort order from its record. -/
def ofJson? (value : Json) : Option OrderBy := do
  match ← record? ["columns", "direction"] value with
  | [some columns, direction] =>
      some ⟨← texts? columns,
        ← orDefault .descending (word? Direction.ofWord?) direction⟩
  | _ => none

end OrderBy

namespace RowLimit

/-- A limit as a number. -/
def toJson (limit : RowLimit) : Json := .nat limit.rows.toNat

/-- Read a limit, which is not zero. -/
def ofJson? (value : Json) : Option RowLimit := do
  RowLimit.ofWord? (← word32? value)

end RowLimit

namespace Draft

/-- The names of the fields, in the order in which they are written. -/
def fieldNames : List String :=
  ["table", "columns", "conditions", "group_by", "having", "order_by", "limit", "time_window"]

/-- A draft as a record. -/
def toJson (draft : Draft) : Json :=
  .object [
    ("table", .orNull (fun table => .string table.name) draft.table),
    ("columns", .strings draft.columns),
    ("conditions", .strings draft.conditions),
    ("group_by", .strings draft.groupBy),
    ("having", .strings draft.having),
    ("order_by", .orNull OrderBy.toJson draft.orderBy),
    ("limit", .orNull RowLimit.toJson draft.limit),
    ("time_window", draft.window.toJson)]

/-- Read a draft from its record. -/
def ofJson? (value : Json) : Option Draft := do
  match ← record? fieldNames value with
  | [table, columns, conditions, groupBy, having, orderBy, limit, window] =>
      some {
        table := ← orDefault none (nullable? (word? Table.ofWord?)) table
        columns := ← orDefault [] texts? columns
        conditions := ← orDefault [] texts? conditions
        groupBy := ← orDefault [] texts? groupBy
        having := ← orDefault [] texts? having
        orderBy := ← orDefault none (nullable? OrderBy.ofJson?) orderBy
        limit := ← orDefault none (nullable? RowLimit.ofJson?) limit
        window := ← orDefault .unbounded Window.ofJson? window }
  | _ => none

end Draft

end Ariel.Query
