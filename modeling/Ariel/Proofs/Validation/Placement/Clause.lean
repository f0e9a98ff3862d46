import Ariel.Proofs.Validation.Placement.Basic

/-!
# Placement of the checks of clauses

Time clauses are reported at their amount or unit, and misplaced clauses, limits and groups at their
keywords.
-/

namespace Ariel.Validation

open Ariel.Text

variable {cs rest : List Char} {before : Option Char}

/-- The amount and the unit of a relative time clause stand behind their reported gaps. -/
theorem anchored_of_last_clause {found : LastClause}
    (h : lastClause before cs = some (found, rest)) :
    Anchored cs found.amountOffset ∧ Anchored cs found.unitOffset := by
  obtain ⟨-, word, gap, between, hparts⟩ := last_clause_eq_some_iff.mp h
  constructor
  · refine ⟨found.amount, hparts.amount_ne_nil, fun c hc => ?_, word ++ gap,
      between ++ (found.unit ++ rest), ?_, hparts.amountOffset.symm⟩
    · exact is_blank_of_decimal_digit (hparts.amount_digits c hc)
    · rw [hparts.split]
      simp
  · refine ⟨found.unit, hparts.unit_ne_nil,
      fun c hc => is_blank_of_alpha (hparts.unit_letters c hc),
      word ++ (gap ++ (found.amount ++ between)), rest, ?_, hparts.unitOffset.symm⟩
    rw [hparts.split]
    simp

theorem zero_amount_placed {found : Occurrence LastClause}
    (h : Anchored cs (found.offset + found.value.amountOffset)) :
    PlacedIn cs (zeroAmount found) := by
  unfold zeroAmount
  split
  · exact placed_one h
  · exact placed_nil

theorem time_unit_placed {found : Occurrence LastClause}
    (h : Anchored cs (found.offset + found.value.unitOffset)) : PlacedIn cs (timeUnit found) := by
  unfold timeUnit
  simp only
  split
  · exact placed_nil
  · split
    · exact placed_one h
    · exact placed_one h

theorem time_clause_placed (text : List Char) : PlacedIn text (timeClause text) := by
  unfold timeClause
  split
  · exact placed_nil
  · refine placed_append (placed_flat_map fun found hfound => placed_append ?_ ?_) ?_
    · exact zero_amount_placed (anchored_of_occurrence hfound
        fun _ _ _ hclause => (anchored_of_last_clause hclause).1)
    · exact time_unit_placed (anchored_of_occurrence hfound
        fun _ _ _ hclause => (anchored_of_last_clause hclause).2)
    · split
      · exact unplaced rfl
      · exact placed_nil

theorem anchored_of_last_amount {u : Unit} (h : lastAmount before cs = some (u, rest)) :
    Anchored cs 0 := by
  obtain ⟨-, word, gap, digit, hsplit, hword, -⟩ := last_amount_eq_some_iff.mp h
  exact anchored_of_keyword (keyword_eq_some_iff.mpr ⟨word, hsplit, hword⟩) (by decide)

/-- The keywords of a clause are no blanks. -/
theorem anchored_of_clause {name : String} {keywords : Pattern Unit} {u : Unit}
    (hmem : (name, keywords) ∈ clausesInOrder) (h : keywords before cs = some (u, rest)) :
    Anchored cs 0 := by
  simp only [clausesInOrder, List.mem_cons, List.not_mem_nil, Prod.mk.injEq, or_false] at hmem
  rcases hmem with
    ⟨-, rfl⟩ | ⟨-, rfl⟩ | ⟨-, rfl⟩ | ⟨-, rfl⟩ | ⟨-, rfl⟩ | ⟨-, rfl⟩ | ⟨-, rfl⟩ | ⟨-, rfl⟩
  · exact anchored_of_whole_word h (by decide)
  · exact anchored_of_whole_word h (by decide)
  · exact anchored_of_whole_word h (by decide)
  · exact anchored_of_whole_phrase h (by decide)
  · exact anchored_of_whole_word h (by decide)
  · exact anchored_of_whole_phrase h (by decide)
  · exact anchored_of_whole_word h (by decide)
  · obtain ⟨p, hp, hmatch⟩ := exists_of_first_of_eq_some h
    simp only [List.mem_cons, List.not_mem_nil, or_false] at hp
    rcases hp with rfl | rfl
    · exact anchored_of_last_amount hmatch
    · exact anchored_of_whole_word hmatch (by decide)

/-- Misplaced clauses are reported where they are found. -/
theorem misplaced_placed {clauses : List (String × Nat)}
    (h : ∀ clause ∈ clauses, Anchored cs clause.2) : PlacedIn cs (misplaced clauses) := by
  induction clauses with
  | nil => exact placed_nil
  | cons first clauses ih =>
      obtain ⟨earlier, offset⟩ := first
      have hlater : ∀ clause ∈ clauses, Anchored cs clause.2 :=
        fun clause hclause => h clause (List.mem_cons_of_mem _ hclause)
      refine placed_append (placed_filter_map fun clause hclause => ?_) (ih hlater)
      simp only
      split
      · exact placed_one (hlater clause hclause)
      · exact placed_nil

theorem clause_order_placed (text : List Char) : PlacedIn text (clauseOrder text) := by
  refine misplaced_placed fun clause hclause => ?_
  obtain ⟨⟨name, keywords⟩, hmem, hfound⟩ := List.mem_filterMap.mp hclause
  obtain ⟨found, hfirst, rfl⟩ := Option.map_eq_some_iff.mp hfound
  exact anchored_of_occurrence (List.mem_of_mem_head? hfirst)
    fun _ _ _ hword => anchored_of_clause hmem hword

/-- The value of a limit stands behind the reported gap. -/
theorem stands_at_of_limit {gap : Nat} {value : List Char}
    (h : limitClause before cs = some (some (gap, value), rest)) : StandsAt cs gap value := by
  obtain ⟨-, word, blanks, rfl, -, -, -, rfl, hne, hvalue, -⟩ := limit_clause_eq_some_iff.mp h
  exact ⟨hne, hvalue, word ++ blanks, rest, by simp, rfl⟩

theorem anchored_of_limit {found : Option (Nat × List Char)}
    (h : limitClause before cs = some (found, rest)) : Anchored cs 0 := by
  obtain ⟨after, hword⟩ := whole_word_of_limit_clause h
  exact anchored_of_whole_word hword (by decide)

theorem limit_value_placed (text : List Char) : PlacedIn text (limitValue text) := by
  refine placed_filter_map fun found hfound remark hremark => ?_
  obtain ⟨bad, -, rfl⟩ := Option.map_eq_some_iff.mp (Option.mem_toList.mp hremark)
  exact placed_one (anchored_of_occurrence hfound fun _ _ _ hclause => anchored_of_limit hclause)
    _ (List.mem_singleton.mpr rfl)

theorem aggregation_usage_placed (text : List Char) : PlacedIn text (aggregationUsage text) := by
  unfold aggregationUsage
  refine placed_append ?_ ?_
  · split
    · exact placed_nil
    · next found hfound =>
      split
      · exact placed_nil
      · exact placed_one (anchored_of_occurrence (List.mem_of_mem_head? hfound)
          fun _ _ _ hphrase => anchored_of_whole_phrase hphrase (by decide))
  · split
    · exact placed_nil
    · next found hfound =>
      split
      · exact placed_nil
      · exact placed_one (anchored_of_occurrence (List.mem_of_mem_head? hfound)
          fun _ _ _ hword => anchored_of_whole_word hword (by decide))

end Ariel.Validation
