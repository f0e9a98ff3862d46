import Ariel.Proofs.Validation.Placement.Basic

/-!
# Placement of the check of conditions

Empty clauses and dangling connectives are reported at their keywords.
-/

namespace Ariel.Validation

open Ariel.Text

variable {cs rest : List Char} {before : Option Char}

theorem anchored_of_empty_clause {keyword : String} {clause : List Char → Option (List Char)}
    {u : Unit} (h : emptyClause keyword clause before cs = some (u, rest))
    (hk : keyword.toList.head?.any Char.isAlpha = true) : Anchored cs 0 := by
  simp only [emptyClause, bind, Option.bind_eq_some_iff, Prod.exists] at h
  obtain ⟨v, tail, hstart, -⟩ := h
  exact anchored_of_word_start hstart hk

theorem anchored_of_connective {connective : String}
    (h : connective? cs = some (connective, rest)) : Anchored cs 0 := by
  obtain ⟨keyword, hmem, hfound⟩ := List.exists_of_findSome?_eq_some h
  obtain ⟨tail, hkeyword, -⟩ := Option.map_eq_some_iff.mp hfound
  have hletter : ∀ keyword ∈ ["AND", "OR"], keyword.toList.head?.any Char.isAlpha = true := by
    decide
  exact anchored_of_keyword hkeyword (hletter _ hmem)

theorem anchored_of_doubled {found : String × String}
    (h : doubledConnective before cs = some (found, rest)) : Anchored cs 0 := by
  simp only [doubledConnective, bind, Option.bind_eq_some_iff, Prod.exists] at h
  obtain ⟨-, -, first, tail, hfirst, -⟩ := h
  exact anchored_of_connective hfirst

theorem anchored_of_trailing {connective : String}
    (h : trailingConnective before cs = some (connective, rest)) : Anchored cs 0 := by
  simp only [trailingConnective, bind, Option.bind_eq_some_iff, Prod.exists] at h
  obtain ⟨-, -, first, tail, hfirst, -⟩ := h
  exact anchored_of_connective hfirst

/-- The connective at the beginning of a condition list stands behind the reported gap. -/
theorem anchored_of_leading {gap : Nat} {connective : String}
    (h : leadingConnective before cs = some ((gap, connective), rest)) : Anchored cs gap := by
  simp only [leadingConnective, bind, Option.bind_eq_some_iff, Prod.exists, pure,
    Option.some.injEq, Prod.mk.injEq] at h
  obtain ⟨u, tail, hfirst, gapped, hgap, found, after, hfound, -, -, ⟨rfl, rfl⟩, rfl⟩ := h
  obtain ⟨p, hmem, hp⟩ := exists_of_first_of_eq_some hfirst
  obtain ⟨front, hsplit⟩ : ∃ front, cs = front ++ tail := by
    simp only [List.mem_cons, List.not_mem_nil, or_false] at hmem
    rcases hmem with rfl | rfl
    · obtain ⟨-, word, hword, -⟩ := word_start_eq_some_iff.mp hp
      exact ⟨word, hword⟩
    · obtain ⟨-, word, hword, -⟩ := word_start_eq_some_iff.mp hp
      exact ⟨word, hword⟩
  refine anchored_of_gap hsplit hgap ?_
  rintro rfl
  have hnone : connective? [] = none := by decide
  rw [hnone] at hfound
  cases hfound

theorem empty_conditions_placed (text : List Char) : PlacedIn text (emptyConditions text) := by
  unfold emptyConditions
  refine placed_sort ?_
  refine placed_append (placed_append (placed_append (placed_append ?_ ?_) ?_) ?_) ?_
  · exact placed_map fun found hfound => placed_one (anchored_of_occurrence hfound
      fun _ _ _ hword => anchored_of_empty_clause hword (by decide))
  · exact placed_map fun found hfound => placed_one (anchored_of_occurrence hfound
      fun _ _ _ hword => anchored_of_empty_clause hword (by decide))
  · exact placed_map fun found hfound => placed_one (anchored_of_occurrence hfound
      fun _ _ _ hword => anchored_of_doubled hword)
  · refine placed_map fun found hfound => ?_
    obtain ⟨offset, gap, connective⟩ := found
    exact placed_one (anchored_of_occurrence hfound
      fun _ _ _ hword => anchored_of_leading hword)
  · exact placed_map fun found hfound => placed_one (anchored_of_occurrence hfound
      fun _ _ _ hword => anchored_of_trailing hword)

end Ariel.Validation
