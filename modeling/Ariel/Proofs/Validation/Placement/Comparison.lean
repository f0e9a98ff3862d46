import Ariel.Proofs.Validation.Placement.Basic

/-!
# Placement of the checks of comparisons

Operators and the literals behind them are reported where the operator begins.
-/

namespace Ariel.Validation

open Ariel.Text

variable {cs rest text : List Char} {before : Option Char}

theorem anchored_of_malformed {correction : String}
    (h : malformedOperator before cs = some (correction, rest)) : Anchored cs 0 := by
  obtain ⟨⟨operator, meant⟩, hmem, hfound⟩ := List.exists_of_findSome?_eq_some h
  obtain ⟨tail, hliteral, -⟩ := Option.map_eq_some_iff.mp hfound
  have hsolid : ∀ pair ∈ malformedOperators, pair.1.toList.head?.any (!isBlank ·) = true := by
    decide
  exact anchored_of_literal hliteral (hsolid _ hmem)

theorem comparison_operators_placed (text : List Char) :
    PlacedIn text (comparisonOperators text) := by
  refine placed_map fun found hfound => placed_one ?_
  exact anchored_of_occurrence hfound fun _ _ _ hword => anchored_of_malformed hword

theorem anchored_of_compared_literal {operator : String}
    (h : comparedLiteral? cs = some ((operator, text), rest)) : Anchored cs 0 := by
  obtain ⟨operator', hmem, hfound⟩ := List.exists_of_findSome?_eq_some h
  simp only [bind, Option.bind_eq_some_iff] at hfound
  obtain ⟨tail, hliteral, -⟩ := hfound
  have hsolid : ∀ operator ∈ equalityOperators,
      operator.toList.head?.any (!isBlank ·) = true := by decide
  exact anchored_of_literal hliteral (hsolid _ hmem)

/-- The operator before a literal stands behind the reported gap. -/
theorem anchored_of_equality {gap : Nat} {operator : String}
    (h : equalityWithLiteral before cs = some ((gap, operator, text), rest)) :
    Anchored cs gap := by
  simp only [equalityWithLiteral] at h
  split at h
  · next found hdirect =>
    cases h
    obtain ⟨-, hdirect⟩ := Option.ite_none_right_eq_some.mp hdirect
    obtain ⟨⟨⟨operator', text'⟩, rest'⟩, hcompared, heq⟩ := Option.map_eq_some_iff.mp hdirect
    cases heq
    exact anchored_of_compared_literal hcompared
  · cases h
  · next c cs _ =>
    split at h
    · cases h
    · obtain ⟨⟨⟨operator', text'⟩, rest'⟩, hcompared, heq⟩ := Option.map_eq_some_iff.mp h
      cases heq
      simpa using (anchored_of_compared_literal hcompared).append [c]

theorem wildcard_with_equals_placed (query : List Char) :
    PlacedIn query (wildcardWithEquals query) := by
  refine placed_filter_map fun found hfound => ?_
  obtain ⟨offset, gap, operator, text⟩ := found
  simp only
  split
  · exact placed_one (anchored_of_occurrence hfound fun _ _ _ hword => anchored_of_equality hword)
  · exact placed_nil

/-- Matching operators, with or without the letter that ignores case, are no blanks. -/
theorem anchored_of_matching {operator : String} {letter : Char} {letters : List Char}
    (h : matchingOperator? operator cs = some rest)
    (hoperator : operator.toList = letter :: letters)
    (hletter : letter.isAlpha = true) : Anchored cs 0 := by
  rcases Option.or_eq_some_iff.mp h with h | ⟨-, h⟩
  · exact anchored_of_any_case h (by decide)
  · rw [hoperator] at h
    exact anchored_of_any_case h hletter

theorem anchored_of_matched_literal {operator : String} {letter : Char} {letters : List Char}
    (h : matchedLiteral operator before cs = some (text, rest))
    (hoperator : operator.toList = letter :: letters) (hletter : letter.isAlpha = true) :
    Anchored cs 0 := by
  simp only [matchedLiteral, bind, Option.bind_eq_some_iff] at h
  obtain ⟨-, -, tail, hmatching, -⟩ := h
  exact anchored_of_matching hmatching hoperator hletter

theorem like_without_wildcard_placed (query : List Char) :
    PlacedIn query (likeWithoutWildcard query) := by
  refine placed_filter_map fun found hfound => ?_
  split
  · exact placed_nil
  · exact placed_one (anchored_of_occurrence hfound
      fun _ _ _ hword => anchored_of_matched_literal hword rfl (by decide))

theorem anchored_of_matches_everything {operator : String} {everything : List Char → Bool}
    {letter : Char} {letters : List Char}
    (h : matchesEverything operator everything before cs = some (text, rest))
    (hoperator : operator.toList = letter :: letters) (hletter : letter.isAlpha = true) :
    Anchored cs 0 := by
  simp only [matchesEverything, bind, Option.bind_eq_some_iff, Prod.exists] at h
  obtain ⟨literal, tail, hmatched, -⟩ := h
  exact anchored_of_matched_literal hmatched hoperator hletter

theorem match_all_patterns_placed (query : List Char) :
    PlacedIn query (matchAllPatterns query (mask query)) := by
  unfold matchAllPatterns
  refine placed_append (placed_sort (placed_map fun found hfound => placed_one ?_)) ?_
  · rcases List.mem_append.mp hfound with hfound | hfound
    · exact anchored_of_occurrence hfound
        fun _ _ _ hword => anchored_of_matches_everything hword rfl (by decide)
    · exact anchored_of_occurrence hfound
        fun _ _ _ hword => anchored_of_matches_everything hword rfl (by decide)
  · refine placed_of_mask ?_
    split
    · exact placed_nil
    · next select hselect =>
      split
      · exact placed_nil
      · have hanchored : Anchored (mask query) (select.offset + 0) := by
          refine anchored_of_occurrence (List.mem_of_mem_head? hselect)
            fun before cs rest hword => ?_
          simp only [bind, Option.bind_eq_some_iff, Prod.exists] at hword
          obtain ⟨u, tail, hstart, -⟩ := hword
          exact anchored_of_word_start hstart (by decide)
        exact placed_one hanchored

end Ariel.Validation
