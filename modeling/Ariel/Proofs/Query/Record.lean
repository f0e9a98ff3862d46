import Ariel.Proofs.Json.Record
import Ariel.Query.Record

/-!
# Drafts and their records

What the records of drafts and of their parts say, as relations, each beside the decoder that it is
the form of. A record may be written in many ways: fields that are left out, missing data as null,
aliases, members that no field knows, or no names at all. The decoders take exactly these, and the
one that is written for a draft is among them, so that no draft is changed by its record
(`record_round_trip`).
-/

namespace Ariel.Query

open Ariel.Json

section Words

theorem Table.of_word_name (table : Table) : Table.ofWord? table.name = some table := by
  cases table <;> rfl

theorem Direction.of_word_keyword (direction : Direction) :
    Direction.ofWord? direction.keyword = some direction := by
  cases direction <;> rfl

theorem TimeUnit.of_word_keyword (unit : TimeUnit) : TimeUnit.ofWord? unit.keyword = some unit := by
  cases unit <;> rfl

end Words

namespace Window

/-- The kind that the record of a window tells, and the rest of the record. -/
inductive Tells : Json → String → Json → Prop
  | object {members : List (String × Json)} {kind : String}
      (h : Entry members "kind" (some (.string kind))) :
      Tells (.object members) kind (.object (members.filter (·.1 != "kind")))
  | array (kind : String) (items : List Json) :
      Tells (.array (.string kind :: items)) kind (.array items)

/-- What the record of a window says. -/
inductive Describes : Form Window
  | unbounded {value rest : Json} (kind : Tells value "none" rest) (fields : Fields [] rest []) :
      Describes value .unbounded
  | relative {value rest word : Json} {amount : UInt32} {unit : TimeUnit}
      (kind : Tells value "relative" rest)
      (fields : Fields ["amount", "unit"] rest [some (.nat amount.toNat), some word])
      (hunit : Chosen TimeUnit.ofWord? word unit) : Describes value (.relative amount unit)
  | absolute {value rest : Json} {start : String} {stop : Option String} {entry : Option Json}
      (kind : Tells value "absolute" rest)
      (fields : Fields ["start", "stop"] rest [some (.string start), entry])
      (hstop : Slot (OrNull (Encoded .string)) none entry stop) :
      Describes value (.absolute start stop)

theorem kind_of_eq_some_iff {value rest : Json} {kind : String} :
    kindOf? value = some (kind, rest) ↔ Tells value kind rest := by
  constructor
  · intro h
    unfold kindOf? at h
    split at h
    · split at h
      · rename_i hkind
        cases h
        exact .object (field_eq_some_iff.mp hkind)
      · cases h
    · cases h
      exact .array ..
    · cases h
  · rintro (h | _)
    · simp only [kindOf?, field_eq_some_iff.mpr h]
    · rfl

theorem reads_window : Reads ofJson? Describes where
  iff := by
    intro value window
    constructor
    · intro h
      simp only [ofJson?, bind, Option.bind_eq_some_iff, Prod.exists, kind_of_eq_some_iff] at h
      obtain ⟨kind, rest, hkind, h⟩ := h
      split at h
      · obtain ⟨entries, hfields, h⟩ := Option.bind_eq_some_iff.mp h
        split at h
        · cases h
          exact .unbounded hkind (record_eq_some_iff.mp hfields)
        · cases h
      · obtain ⟨entries, hfields, h⟩ := Option.bind_eq_some_iff.mp h
        split at h
        · simp only [Option.bind_eq_some_iff, reads_word32.iff, (reads_word _).iff] at h
          obtain ⟨amount, rfl, unit, hunit, hwindow⟩ := h
          cases hwindow
          exact .relative hkind (record_eq_some_iff.mp hfields) hunit
        · cases h
      · obtain ⟨entries, hfields, h⟩ := Option.bind_eq_some_iff.mp h
        split at h
        · simp only [Option.bind_eq_some_iff, reads_text.iff,
            (reads_text.nullable nofun).slot] at h
          obtain ⟨start, rfl, stop, hstop, hwindow⟩ := h
          cases hwindow
          exact .absolute hkind (record_eq_some_iff.mp hfields) hstop
        · cases h
      · cases h
    · rintro (⟨hkind, hfields⟩ | ⟨hkind, hfields, hunit⟩ | ⟨hkind, hfields, hstop⟩)
      · simp only [ofJson?, kind_of_eq_some_iff.mpr hkind, record_eq_some_iff.mpr hfields, bind,
          Option.bind_some]
      · simp only [ofJson?, kind_of_eq_some_iff.mpr hkind, record_eq_some_iff.mpr hfields,
          reads_word32.iff.mpr rfl, (reads_word _).iff.mpr hunit, bind, Option.bind_some]
      · simp only [ofJson?, kind_of_eq_some_iff.mpr hkind, record_eq_some_iff.mpr hfields,
          reads_text.iff.mpr rfl, (reads_text.nullable nofun).slot.mpr hstop, bind,
          Option.bind_some]

/-- Nothing stands behind the kind of a window without bounds. -/
example : ofJson? (.array [.string "none", .null]) = none := rfl

/-- The record of a window is one that says so. -/
theorem describes_to_json (window : Window) : Describes window.toJson window := by
  cases window with
  | unbounded => exact .unbounded (.object (.given rfl)) (.object .nil)
  | relative amount unit =>
      have hfields : Fields ["amount", "unit"]
          (.object [("amount", .nat amount.toNat), ("unit", .string unit.keyword)])
          [some (.nat amount.toNat), some (.string unit.keyword)] :=
        fields_of_members rfl rfl (by decide)
      exact .relative (.object (.given rfl)) hfields (.word (TimeUnit.of_word_keyword unit))
  | absolute start stop =>
      have hfields : Fields ["start", "stop"]
          (.object [("start", .string start), ("stop", .orNull .string stop)])
          [some (.string start), some (.orNull .string stop)] :=
        fields_of_members rfl rfl (by decide)
      have hstop : OrNull (Encoded .string) (.orNull .string stop) stop :=
        or_null_of_encoded (encoded .string) stop
      exact .absolute (.object (.given rfl)) hfields (.given hstop)

end Window

namespace OrderBy

/-- What the record of a sort order says. -/
inductive Describes : Form OrderBy
  | intro {value : Json} {columns : List String} {direction : Direction} {entry : Option Json}
      (fields : Fields ["columns", "direction"] value [some (.strings columns), entry])
      (hdirection : Slot (Chosen Direction.ofWord?) .descending entry direction) :
      Describes value ⟨columns, direction⟩

theorem reads_order_by : Reads ofJson? Describes where
  iff := by
    intro value order
    constructor
    · intro h
      obtain ⟨entries, hfields, h⟩ := Option.bind_eq_some_iff.mp h
      split at h
      · simp only [bind, Option.bind_eq_some_iff, reads_texts.iff, (reads_word _).slot] at h
        obtain ⟨columns, rfl, direction, hdirection, horder⟩ := h
        cases horder
        exact .intro (record_eq_some_iff.mp hfields) hdirection
      · cases h
    · rintro ⟨hfields, hdirection⟩
      simp only [ofJson?, record_eq_some_iff.mpr hfields, reads_texts.iff.mpr rfl,
        (reads_word _).slot.mpr hdirection, bind, Option.bind_some]

/-- The record of a sort order is one that says so. -/
theorem describes_to_json (order : OrderBy) : Describes order.toJson order :=
  .intro (fields_of_members rfl rfl (by decide))
    (.given (.word (Direction.of_word_keyword order.direction)))

end OrderBy

namespace RowLimit

theorem reads_row_limit : Reads ofJson? (Encoded toJson) where
  iff := by
    intro value limit
    simp only [ofJson?, bind, Option.bind_eq_some_iff, reads_word32.iff]
    constructor
    · rintro ⟨rows, rfl, hrows⟩
      obtain ⟨hpositive, hlimit⟩ := Option.dite_none_right_eq_some.mp hrows
      obtain rfl := Option.some.inj hlimit
      rfl
    · rintro rfl
      exact ⟨limit.rows, rfl, dif_pos limit.positive⟩

end RowLimit

namespace Draft

/-- What the record of a draft says. -/
inductive Describes : Form Draft
  | intro {value : Json} {draft : Draft}
      {table columns conditions groupBy having orderBy limit window : Option Json}
      (fields : Fields fieldNames value
        [table, columns, conditions, groupBy, having, orderBy, limit, window])
      (htable : Slot (OrNull (Chosen Table.ofWord?)) none table draft.table)
      (hcolumns : Slot (Encoded .strings) [] columns draft.columns)
      (hconditions : Slot (Encoded .strings) [] conditions draft.conditions)
      (hgroupBy : Slot (Encoded .strings) [] groupBy draft.groupBy)
      (hhaving : Slot (Encoded .strings) [] having draft.having)
      (horderBy : Slot (OrNull OrderBy.Describes) none orderBy draft.orderBy)
      (hlimit : Slot (OrNull (Encoded RowLimit.toJson)) none limit draft.limit)
      (hwindow : Slot Window.Describes .unbounded window draft.window) : Describes value draft

theorem reads_draft : Reads ofJson? Describes where
  iff := by
    intro value draft
    constructor
    · intro h
      obtain ⟨entries, hfields, h⟩ := Option.bind_eq_some_iff.mp h
      split at h
      · simp only [bind, Option.bind_eq_some_iff, ((reads_word Table.ofWord?).nullable nofun).slot,
          reads_texts.slot, (OrderBy.reads_order_by.nullable nofun).slot,
          (RowLimit.reads_row_limit.nullable nofun).slot, Window.reads_window.slot] at h
        obtain ⟨_, htable, _, hcolumns, _, hconditions, _, hgroupBy, _, hhaving, _, horderBy, _,
          hlimit, _, hwindow, hdraft⟩ := h
        cases hdraft
        exact .intro (record_eq_some_iff.mp hfields) htable hcolumns hconditions hgroupBy hhaving
          horderBy hlimit hwindow
      · cases h
    · rintro ⟨hfields, htable, hcolumns, hconditions, hgroupBy, hhaving, horderBy, hlimit, hwindow⟩
      simp only [ofJson?, record_eq_some_iff.mpr hfields, bind, Option.bind_some,
        ((reads_word _).nullable nofun).slot.mpr htable, reads_texts.slot.mpr hcolumns,
        reads_texts.slot.mpr hconditions, reads_texts.slot.mpr hgroupBy,
        reads_texts.slot.mpr hhaving, (OrderBy.reads_order_by.nullable nofun).slot.mpr horderBy,
        (RowLimit.reads_row_limit.nullable nofun).slot.mpr hlimit,
        Window.reads_window.slot.mpr hwindow]

/-- The record of a draft is one that says so. -/
theorem describes_to_json (draft : Draft) : Describes draft.toJson draft := by
  have htable : OrNull (Chosen Table.ofWord?) (.orNull (.string ·.name) draft.table) draft.table :=
    or_null_of_encoded (fun table => .word table.of_word_name) draft.table
  exact .intro (fields_of_members rfl rfl (by decide)) (.given htable) (.given rfl) (.given rfl)
    (.given rfl) (.given rfl) (.given (or_null_of_encoded OrderBy.describes_to_json draft.orderBy))
    (.given (or_null_of_encoded (encoded RowLimit.toJson) draft.limit))
    (.given (Window.describes_to_json draft.window))

/-- A draft survives its record. Records are read for what they say, in each of the ways in which
they say it, and the record of a draft says the draft: it is read as that draft, and so is the
record that is written for the draft that another record was read as. -/
theorem record_round_trip :
    (∀ draft : Draft, ofJson? draft.toJson = some draft) ∧
    (∀ value draft, ofJson? value = some draft ↔ Describes value draft) ∧
    ∀ value draft, ofJson? value = some draft → ofJson? draft.toJson = some draft :=
  have hread : ∀ draft : Draft, ofJson? draft.toJson = some draft :=
    fun draft => reads_draft.iff.mpr (describes_to_json draft)
  ⟨hread, fun _ _ => reads_draft.iff, fun _ draft _ => hread draft⟩

/-- A record may leave fields out, give null, use aliases, tell more, and go in any order. -/
theorem record_round_trip_loose :
    let value : Json := .object [
      ("time_window", .object
        [("start", .string "2024-01-01 00:00"), ("kind", .string "absolute")]),
      ("limit", .null), ("note", .array [.bool true]), ("table", .object [("flows", .null)]),
      ("order_by", .object [("direction", .string "asc"), ("columns", .strings ["sourceip"])])]
    let draft : Draft := {
      table := some .flows, orderBy := some ⟨["sourceip"], .ascending⟩,
      window := .absolute "2024-01-01 00:00" none }
    ofJson? value = some draft ∧ Describes value draft ∧ ofJson? draft.toJson = some draft := by
  intro value draft
  obtain ⟨-, hdescribes, hagain⟩ := record_round_trip
  have hread : ofJson? value = some draft := by decide +kernel
  exact ⟨hread, (hdescribes value draft).mp hread, hagain value draft hread⟩

end Draft

end Ariel.Query
