import Ariel.Proofs.Query.Editing
import Ariel.Query.Selection

/-!
# The draft of a selection

What a caller selects is tidied field by field, and what is left open comes from the settings
(`unlimited_eq`). The draft that it becomes is complete and well formed whatever was selected.
-/

namespace Ariel.Query

open Ariel.Text

namespace Draft

variable (draft : Draft)

/-- Filtering adds a predicate trimmed, and a blank one not at all. -/
theorem filter_eq (condition : String) :
    draft.filter condition =
      { draft with conditions := draft.conditions ++ tidy [condition] } := by
  cases hblank : allBlank condition with
  | true => simp [filter, addCondition?, addTidy?, tidy, is_empty_trim, hblank]
  | false => simp [filter, addCondition?, addTidy?, tidy, is_empty_trim, hblank]

theorem filter_groups_eq (condition : String) :
    draft.filterGroups condition = { draft with having := draft.having ++ tidy [condition] } := by
  cases hblank : allBlank condition with
  | true => simp [filterGroups, addHaving?, addTidy?, tidy, is_empty_trim, hblank]
  | false => simp [filterGroups, addHaving?, addTidy?, tidy, is_empty_trim, hblank]

/-- Predicates that are added one after the other are tidied. -/
theorem foldl_filter (conditions : List String) :
    conditions.foldl filter draft =
      { draft with conditions := draft.conditions ++ tidy conditions } := by
  induction conditions generalizing draft with
  | nil => simp [tidy]
  | cons condition conditions ih =>
      rw [List.foldl_cons, ih, filter_eq, tidy_cons condition conditions, List.append_assoc]

theorem foldl_filter_groups (conditions : List String) :
    conditions.foldl filterGroups draft =
      { draft with having := draft.having ++ tidy conditions } := by
  induction conditions generalizing draft with
  | nil => simp [tidy]
  | cons condition conditions ih =>
      rw [List.foldl_cons, ih, filter_groups_eq, tidy_cons condition conditions, List.append_assoc]

/-- The sort order is set to the columns that are left of a list, if any are. -/
theorem set_order_by_eq (columns : List String) (direction : Direction) :
    draft.setOrderBy columns direction =
      { draft with
        orderBy := if tidy columns = [] then none else some ⟨tidy columns, direction⟩ } := by
  unfold setOrderBy
  split
  next h => rw [if_pos h]
  next h => rw [if_neg h]

end Draft

namespace Selection

variable (selection : Selection) (defaults : BuilderSettings)

/-- Some column is left when blank ones are dropped. -/
theorem tidy_columns_ne_nil : tidy selection.columnsOrAll ≠ [] := by
  unfold columnsOrAll
  split
  next => decide
  next hfilled =>
    rw [Bool.not_eq_true, List.all_eq_false] at hfilled
    obtain ⟨column, hcolumn, hfilled⟩ := hfilled
    rw [Bool.not_eq_true] at hfilled
    exact List.ne_nil_of_mem (mem_tidy_iff.mpr ⟨column, hcolumn, hfilled, rfl⟩)

/-- A selection is tidied field by field. -/
theorem unlimited_eq :
    selection.unlimited defaults =
      { table := some (selection.table.getD defaults.defaultTable)
        columns := tidy selection.columnsOrAll
        conditions := tidy selection.conditions
        groupBy := tidy selection.groupBy
        having := tidy selection.having
        orderBy :=
          if tidy selection.orderBy = [] then none
          else some ⟨tidy selection.orderBy, selection.direction.getD defaults.defaultOrder⟩ } := by
  rw [unlimited, Draft.set_order_by_eq, Draft.foldl_filter_groups, Draft.foldl_filter]
  rfl

/-- The draft of a selection, its limit apart, is well formed. -/
theorem well_formed_unlimited : (selection.unlimited defaults).WellFormed := by
  rw [unlimited_eq]
  refine { columns := fun _ => neat_of_mem_tidy, conditions := fun _ => neat_of_mem_tidy,
           groupBy := fun _ => neat_of_mem_tidy, having := fun _ => neat_of_mem_tidy,
           orderBy := fun order horder => ?_, limit := nofun }
  obtain ⟨hne, horder⟩ := Option.ite_none_left_eq_some.mp horder
  obtain rfl := Option.some.inj horder
  exact ⟨hne, fun _ => neat_of_mem_tidy⟩

/-- A selection becomes a draft unless its limit is one of no rows. -/
theorem to_draft_eq :
    selection.toDraft defaults =
      if selection.limit = some 0 then .error Draft.zeroLimit
      else .ok { selection.unlimited defaults with
        limit := selection.limit.bind RowLimit.ofWord? } := by
  unfold toDraft
  cases selection.limit with
  | none => rw [unlimited_eq]; rfl
  | some rows =>
      unfold Draft.setLimit RowLimit.ofWord?
      by_cases hzero : rows = 0 <;> simp [hzero]

/-- The draft of a selection is well formed, and it has a table and columns. -/
theorem complete_to_draft {draft : Draft} (h : selection.toDraft defaults = .ok draft) :
    draft.WellFormed ∧ draft.table.isSome = true ∧ draft.columns ≠ [] := by
  rw [to_draft_eq] at h
  split at h
  · cases h
  · obtain rfl := Except.ok.inj h
    refine ⟨{ selection.well_formed_unlimited defaults with
      limit := fun limit _ => row_limit_pos limit }, ?_, ?_⟩
    · rw [unlimited_eq]
      rfl
    · rw [unlimited_eq]
      exact selection.tidy_columns_ne_nil

end Selection

end Ariel.Query
