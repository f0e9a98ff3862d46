import Ariel.Proofs.Validation.Padding.Condition
import Ariel.Proofs.Validation.Padding.Outline
import Ariel.Validation.Check.Clause

/-!
# The clauses of a query with blanks around it

Clauses end before the blanks behind a text. Which of two clauses comes first does not depend on
blanks in front.
-/

namespace Ariel.Validation

open Ariel.Text Ariel.Catalog

variable {gap cs ds : List Char}

/-- The digits of an amount and the letters of a unit end before a blank. -/
theorem ignores_last_clause : IgnoresBlanks lastClause := by
  refine ignores_behind (ignores_word_start (by decide)) (leaves_word_start (by decide)) ?_
  intro gap cs ds x y h hxy
  refine rel_blanks rfl rfl (fun {amount amount'} hamount => ?_) hxy.2
  obtain ⟨hdigits, hbehind⟩ := hamount.run is_decimal_digit_of_blank
  refine rel_guard (by rw [hdigits]) (rel_blanks rfl rfl (fun {unit unit'} hunit => ?_) hbehind)
  obtain ⟨hletters, hrest⟩ := hunit.run is_alpha_of_blank
  refine rel_guard (by rw [hletters]) (rel_guard hrest.ends_word_eq (.some ⟨?_, .inl hrest⟩))
  simp only [hdigits, hletters, h.bytes_up_to_eq hamount, h.bytes_up_to_eq hunit]

theorem zero_amount_shifted (n : Nat) (found : Occurrence LastClause) :
    zeroAmount (found.shifted n) = (zeroAmount found).map (Remark.shifted n) := by
  rw [zeroAmount, zeroAmount, apply_ite (List.map _)]
  simp only [Occurrence.shifted, Nat.add_assoc]
  rfl

theorem time_unit_shifted (n : Nat) (found : Occurrence LastClause) :
    timeUnit (found.shifted n) = (timeUnit found).map (Remark.shifted n) := by
  simp only [timeUnit, apply_ite (List.map (Remark.shifted n)), Occurrence.shifted, Nat.add_assoc]
  rfl

theorem follows_time_clause : RemarksFollow timeClause := by
  have hrelative := follows_occurrences ignores_last_clause
  have hremarks : RemarksFollow fun cs =>
      (occurrences lastClause cs).flatMap fun found => zeroAmount found ++ timeUnit found :=
    hrelative.flat_map fun n found => by
      rw [zero_amount_shifted, time_unit_shifted, List.map_append]
  have hempty : Stays fun cs => (occurrences lastClause cs).isEmpty :=
    hrelative.comp fun _ _ => List.isEmpty_map
  have hwords : ∀ p ∈ [wholeWord "START", wholeWord "STOP"], IgnoresBlanks p := by
    simp only [List.forall_mem_cons]
    exact ⟨ignores_whole_word (by decide), ignores_whole_word (by decide), List.forall_mem_nil _⟩
  have habsolute := stays_occurs (ignores_first_of hwords)
  refine ⟨fun hc cs => ?_, fun h => ?_⟩
  · simp only [timeClause, stays_all_blank.in_front hc, hremarks.in_front hc, hempty.in_front hc,
      habsolute.in_front hc, apply_ite (List.map _), List.map_append]
    rfl
  · simp only [timeClause, stays_all_blank.behind h, hremarks.behind h, hempty.behind h,
      habsolute.behind h]

theorem ignores_whole_phrase {first second : String} (hfirst : Word first.toList)
    (hsecond : Word second.toList) : IgnoresBlanks (wholePhrase first second) :=
  ignores_at_word
    (fun hc cs => by rw [phrase?, keyword_eq_none hfirst (by simpa using hc)]; rfl)
    fun h => rel_bind (trails_phrase hfirst hsecond h) fun hrest => .some ⟨rfl, .inl hrest⟩

theorem ignores_last_amount : IgnoresBlanks lastAmount :=
  ignores_at_word
    (fun hc cs => by rw [lastAmount?, keyword_eq_none (by decide) (by simpa using hc)]; rfl)
    fun h => rel_bind (trails_last_amount h) fun hrest => .some ⟨rfl, .inl hrest⟩

theorem ignores_clauses_in_order : ∀ clause ∈ clausesInOrder, IgnoresBlanks clause.2 := by
  simp only [clausesInOrder, List.forall_mem_cons]
  refine ⟨ignores_whole_word (by decide), ignores_whole_word (by decide),
    ignores_whole_word (by decide), ignores_whole_phrase (by decide) (by decide),
    ignores_whole_word (by decide), ignores_whole_phrase (by decide) (by decide),
    ignores_whole_word (by decide), ignores_first_of ?_, List.forall_mem_nil _⟩
  simp only [List.forall_mem_cons]
  exact ⟨ignores_last_amount, ignores_whole_word (by decide), List.forall_mem_nil _⟩

/-- Clauses that are all moved are misplaced to each other as before. -/
theorem misplaced_shifted (n : Nat) (clauses : List (String × Nat)) :
    misplaced (clauses.map fun clause => (clause.1, n + clause.2)) =
      (misplaced clauses).map (Remark.shifted n) := by
  induction clauses with
  | nil => rfl
  | cons clause clauses ih =>
      obtain ⟨earlier, offset⟩ := clause
      simp only [List.map_cons, misplaced, List.map_append, ih, List.filterMap_map,
        List.map_filterMap]
      refine congrArg (· ++ _) (List.filterMap_congr fun later _ => ?_)
      simp only [Function.comp_apply, Nat.add_lt_add_iff_left, apply_ite (Option.map _)]
      rfl

theorem follows_clause_order : RemarksFollow clauseOrder where
  in_front {c} hc cs := by
    rw [clauseOrder, clauseOrder, ← misplaced_shifted, List.map_filterMap]
    refine congrArg misplaced (List.filterMap_congr fun clause hclause => ?_)
    have hfirst := follows_first_occurrence (ignores_clauses_in_order clause hclause)
    dsimp only
    rw [hfirst.in_front hc, Option.map_map, Option.map_map]
    rfl
  behind h := by
    refine congrArg misplaced (List.filterMap_congr fun clause hclause => ?_)
    have hfirst := follows_first_occurrence (ignores_clauses_in_order clause hclause)
    dsimp only
    rw [hfirst.behind h]

theorem ignores_limit_clause : IgnoresBlanks limitClause := by
  refine ignores_behind (ignores_whole_word (by decide)) (leaves_whole_word (by decide)) ?_
  intro gap cs ds x y h hxy
  obtain ⟨u, rest⟩ := x
  obtain ⟨u', rest'⟩ := y
  have hrest : Trails gap rest rest' := hxy.2
  rcases hrest.blanks with ⟨value, value', hcs, hds, hvalue, hne⟩ | ⟨hcs, hds⟩
  · obtain ⟨hword, hbehind⟩ := hvalue.run (p := fun c => !isBlank c) fun hc => by rw [hc]; rfl
    obtain ⟨c, value, rfl⟩ := List.exists_cons_of_ne_nil hne
    obtain rfl := hvalue.split
    simp only [hcs, hds, List.cons_append] at hword hbehind ⊢
    exact .some ⟨by rw [hword, h.bytes_up_to_eq hvalue]; rfl, .inl hbehind⟩
  · -- Where only blanks are left, there is no value.
    rcases hcs with hcs | hcs <;> rcases hds with hds | hds <;> simp only [hcs, hds] <;>
      exact .some ⟨rfl, .inl hrest⟩

theorem follows_limit_value : RemarksFollow limitValue :=
  (follows_occurrences ignores_limit_clause).filter_map fun n found => by
    rw [Option.map_map]
    rfl

theorem ignores_aggregate_call : IgnoresBlanks aggregateCall := by
  have hwords : ∀ name ∈ aggregateNames, Word name.toList := by decide
  refine ignores_at_word (fun hc cs => ?_) fun h => rel_find_some fun name hname =>
    rel_bind (trails_keyword (hwords name hname).2 h) fun hrest =>
      rel_bind (rel_drop_blanks rfl rfl (trails_literal (by decide)) hrest) fun hbehind =>
        .some ⟨rfl, .inl hbehind⟩
  refine List.findSome?_eq_none_iff.mpr fun name hname => ?_
  rw [keyword_eq_none (hwords name hname) (by simpa using hc)]
  rfl

theorem follows_aggregation_usage : RemarksFollow aggregationUsage := by
  have hphrase : IgnoresBlanks (wholePhrase "GROUP" "BY") :=
    ignores_whole_phrase (by decide) (by decide)
  have hword : IgnoresBlanks (wholeWord "HAVING") := ignores_whole_word (by decide)
  have hgroup := follows_first_occurrence hphrase
  have hhaving := follows_first_occurrence hword
  have haggregate := stays_occurs ignores_aggregate_call
  refine ⟨fun hc cs => ?_, fun h => ?_⟩
  · rw [aggregationUsage, aggregationUsage, hgroup.in_front hc, haggregate.in_front hc,
      hhaving.in_front hc, List.map_append]
    refine congrArg₂ (· ++ ·) ?_ ?_
    · cases firstOccurrence? (wholePhrase "GROUP" "BY") cs with
      | none => rfl
      | some found =>
          rw [apply_ite (List.map _)]
          rfl
    · cases firstOccurrence? (wholeWord "HAVING") cs with
      | none => rfl
      | some found =>
          rw [apply_ite (List.map _), Option.isSome_map]
          rfl
  · rw [aggregationUsage, aggregationUsage, hgroup.behind h, haggregate.behind h,
      hhaving.behind h]

end Ariel.Validation
