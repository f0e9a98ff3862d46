import Ariel.Proofs.Query.Window
import Ariel.Query.Assembly

/-!
# Editing drafts

Editing stores entries that are trimmed and not blank. `Neat` says that of a whole draft, and each
operation that edits a draft keeps it.
-/

namespace Ariel.Query

open Ariel.Text

/-- A text without outer blanks that holds more than blanks. -/
structure NeatText (s : String) : Prop where
  trimmed : trim s = s
  filled : allBlank s = false

/-- Trimming leaves nothing of a text exactly when it is blank. -/
theorem is_empty_trim {s : String} : (trim s).isEmpty = allBlank s := by
  rw [Bool.eq_iff_iff, all_blank_iff, String.isEmpty_iff, ← String.toList_inj, to_list_trim,
    String.toList_empty]

/-- A blank text stays blank when it is trimmed, and no other becomes so. -/
@[simp]
theorem all_blank_trim (s : String) : allBlank (trim s) = allBlank s := by
  rw [← is_empty_trim, trim_trim, is_empty_trim]

/-- A text that is not blank is neat when it is trimmed. -/
theorem neat_trim {s : String} (h : allBlank s = false) : NeatText (trim s) :=
  ⟨trim_trim s, by rw [all_blank_trim, h]⟩

/-- A neat text begins and ends with characters that are no blanks, and no other text does. -/
theorem neat_iff_ends {s : String} :
    NeatText s ↔ s.toList.head?.any (!isBlank ·) = true ∧
      s.toList.getLast?.any (!isBlank ·) = true := by
  constructor
  · intro h
    have htrimmed : trimmed s.toList = s.toList := by rw [← to_list_trim, h.trimmed]
    have hne : s.toList ≠ [] := by
      intro hnil
      have hblank : allBlank s = true := all_blank_iff.mpr (htrimmed.trans hnil)
      rw [h.filled] at hblank
      cases hblank
    rw [List.head?_eq_some_head hne, List.getLast?_eq_some_getLast hne]
    have hhead : isBlank (s.toList.head hne) = false :=
      head_trimmed (by rw [htrimmed, List.head?_eq_some_head hne]; rfl)
    have hlast : isBlank (s.toList.getLast hne) = false :=
      last_trimmed (by rw [htrimmed, List.getLast?_eq_some_getLast hne]; rfl)
    simp [hhead, hlast]
  · rintro ⟨hhead, hlast⟩
    obtain ⟨first, hfirst, hblank⟩ := (Option.any_eq_true _ _).mp hhead
    obtain ⟨last, hlast, hblank'⟩ := (Option.any_eq_true _ _).mp hlast
    have htrimmed : trimmed s.toList = s.toList := by
      refine trimmed_of_ends (fun c hc => ?_) (fun c hc => ?_)
      · obtain rfl : first = c := Option.some.inj (hfirst.symm.trans hc)
        simpa using hblank
      · obtain rfl : last = c := Option.some.inj (hlast.symm.trans hc)
        simpa using hblank'
    refine ⟨String.toList_inj.mp (by rw [to_list_trim, htrimmed]), ?_⟩
    rw [Bool.eq_false_iff, Ne, all_blank_iff, htrimmed]
    rintro hnil
    rw [hnil] at hfirst
    cases hfirst

instance (s : String) : Decidable (NeatText s) :=
  decidable_of_iff _ neat_iff_ends.symm

/-- A text in front of which another one begins, and that ends in a neat one. -/
theorem neat_append {s t : String} (hs : s.toList.head?.any (!isBlank ·) = true)
    (ht : NeatText t) : NeatText (s ++ t) := by
  rw [neat_iff_ends, String.toList_append]
  exact ⟨any_head_append hs, any_last_append (neat_iff_ends.mp ht).2⟩

/-- Tidying keeps the entries that are not blank, trimmed. -/
theorem mem_tidy_iff {entries : List String} {entry : String} :
    entry ∈ tidy entries ↔ ∃ given ∈ entries, allBlank given = false ∧ trim given = entry := by
  simp only [tidy, List.mem_filter, List.mem_map, Bool.not_eq_true']
  constructor
  · rintro ⟨⟨given, hgiven, rfl⟩, hfilled⟩
    exact ⟨given, hgiven, by rwa [is_empty_trim] at hfilled, rfl⟩
  · rintro ⟨given, hgiven, hfilled, rfl⟩
    exact ⟨⟨given, hgiven, rfl⟩, by rwa [is_empty_trim]⟩

/-- Entries are tidied one by one. -/
theorem tidy_cons (entry : String) (entries : List String) :
    tidy (entry :: entries) = tidy [entry] ++ tidy entries := by
  rw [← List.singleton_append, tidy, List.map_append, List.filter_append, tidy, tidy]

/-- Tidy entries are neat. -/
theorem neat_of_mem_tidy {entries : List String} {entry : String} (h : entry ∈ tidy entries) :
    NeatText entry := by
  obtain ⟨given, -, hfilled, rfl⟩ := mem_tidy_iff.mp h
  exact neat_trim hfilled

/-- Neat entries are tidy already. -/
theorem tidy_of_neat {entries : List String} (h : ∀ entry ∈ entries, NeatText entry) :
    tidy entries = entries := by
  have htrim : entries.map trim = entries :=
    List.map_eq_iff.mpr fun i => by
      cases hentry : entries[i]? with
      | none => rfl
      | some entry => simp [(h entry (List.mem_of_getElem? hentry)).trimmed]
  rw [tidy, htrim, List.filter_eq_self]
  intro entry hentry
  rw [Bool.not_eq_true', ← (h entry hentry).trimmed, is_empty_trim]
  exact (h entry hentry).filled

/-- An entry is added trimmed, unless it is blank. -/
theorem add_tidy_eq_some_iff {entries added : List String} {entry : String} :
    addTidy? entries entry = some added ↔
      allBlank entry = false ∧ added = entries ++ [trim entry] := by
  rw [addTidy?, is_empty_trim]
  cases allBlank entry <;> simp [eq_comm]

/-- The entry at an index is removed, and the others keep their order. -/
theorem remove_at_eq_some_iff {entries left : List String} {index : Nat} {removed : String} :
    removeAt? entries index = some (removed, left) ↔
      ∃ front back, entries = front ++ removed :: back ∧ front.length = index ∧
        left = front ++ back := by
  simp only [removeAt?, Option.map_eq_some_iff, Prod.mk.injEq]
  constructor
  · rintro ⟨entry, hentry, rfl, rfl⟩
    obtain ⟨hlt, rfl⟩ := List.getElem?_eq_some_iff.mp hentry
    refine ⟨entries.take index, entries.drop (index + 1), ?_, ?_, ?_⟩
    · rw [List.getElem_cons_drop, List.take_append_drop]
    · rw [List.length_take]
      omega
    · rw [List.eraseIdx_eq_take_drop_succ]
  · rintro ⟨front, back, rfl, rfl, rfl⟩
    exact ⟨removed, by simp, rfl, by simp [List.eraseIdx_append_of_length_le]⟩

/-- Where entries are neat, those with another one added are. -/
theorem neat_of_add {entries added : List String} {entry : String}
    (h : ∀ entry ∈ entries, NeatText entry) (hadd : addTidy? entries entry = some added) :
    ∀ entry ∈ added, NeatText entry := by
  obtain ⟨hfilled, rfl⟩ := add_tidy_eq_some_iff.mp hadd
  intro other hother
  rcases List.mem_append.mp hother with hother | hother
  · exact h other hother
  · rw [List.mem_singleton.mp hother]
    exact neat_trim hfilled

/-- Where entries are neat, those that are left after a removal are. -/
theorem neat_of_remove {entries left : List String} {index : Nat} {removed : String}
    (h : ∀ entry ∈ entries, NeatText entry)
    (hremove : removeAt? entries index = some (removed, left)) :
    ∀ entry ∈ left, NeatText entry := by
  obtain ⟨front, back, rfl, -, rfl⟩ := remove_at_eq_some_iff.mp hremove
  intro other hother
  exact h other (by simp only [List.mem_append, List.mem_cons] at hother ⊢; tauto)

/-- A row limit allows at least one row. -/
theorem row_limit_pos (limit : RowLimit) : 0 < limit.rows.toNat :=
  Nat.pos_of_ne_zero fun hzero => limit.positive (UInt32.toNat_inj.mp hzero)

/-- A window whose bounds are neat. -/
def Window.NeatBounds : Window → Prop
  | .absolute start stop => NeatText start ∧ ∀ s ∈ stop, NeatText s
  | _ => True

/-- A sound window has neat bounds when they are trimmed and a blank stop is dropped. -/
theorem Window.neat_bounds_normal {window : Window} (h : window.Sound) :
    window.normal.NeatBounds := by
  cases window with
  | unbounded => trivial
  | relative amount unit => trivial
  | absolute start stop =>
      have hfilled : ∀ {s : String}, trimmed s.toList ≠ [] → allBlank s = false := fun hne =>
        Bool.eq_false_iff.mpr fun hblank => hne (all_blank_iff.mp hblank)
      refine ⟨neat_trim (hfilled h.1.ne_nil), fun s hs => ?_⟩
      obtain ⟨given, hgiven, rfl⟩ := Option.map_eq_some_iff.mp (Option.filter_eq_some_iff.mp hs).1
      have hempty := (Option.filter_eq_some_iff.mp hs).2
      rw [Bool.not_eq_true', is_empty_trim] at hempty
      exact neat_trim hempty

namespace Draft

/-- A draft whose entries are neat, and whose sort order has columns. -/
structure Neat (draft : Draft) : Prop where
  columns : ∀ entry ∈ draft.columns, NeatText entry
  conditions : ∀ entry ∈ draft.conditions, NeatText entry
  groupBy : ∀ entry ∈ draft.groupBy, NeatText entry
  having : ∀ entry ∈ draft.having, NeatText entry
  orderBy : ∀ order ∈ draft.orderBy, order.columns ≠ [] ∧ ∀ column ∈ order.columns, NeatText column

variable {draft : Draft}

/-- A draft is complete when it has a table and a column that is not blank. -/
theorem missing_eq_none_iff :
    draft.missing? = none ↔
      draft.table.isSome = true ∧ ∃ column ∈ draft.columns, allBlank column = false := by
  unfold missing?
  cases draft.table with
  | none => simp
  | some table => simp

/-- The clauses of a draft are those from its table, when it is complete. -/
theorem clauses_eq_ok_iff {clauses : List String} :
    draft.clauses = .ok clauses ↔ draft.missing? = none ∧
      ∃ table, draft.table = some table ∧ clauses = draft.clausesFrom table := by
  unfold Draft.clauses
  cases hmissing : draft.missing? with
  | some part => simp
  | none =>
      cases draft.table with
      | none => simp
      | some table => simp [eq_comm]

/-- A complete draft is assembled, on one line and on several, from the same clauses. -/
theorem assemble_of_complete (h : draft.missing? = none) : ∃ table, draft.table = some table ∧
    draft.assemble = .ok (join " " (draft.clausesFrom table)) ∧
    draft.assembleLines = .ok (join "\n" (draft.clausesFrom table)) := by
  obtain ⟨table, htable⟩ := Option.isSome_iff_exists.mp (missing_eq_none_iff.mp h).1
  have hclauses := clauses_eq_ok_iff.mpr ⟨h, table, htable, rfl⟩
  refine ⟨table, htable, ?_, ?_⟩
  · rw [assemble, hclauses]
    rfl
  · rw [assembleLines, hclauses]
    rfl

end Draft

end Ariel.Query
