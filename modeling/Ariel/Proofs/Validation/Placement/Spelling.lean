import Ariel.Proofs.Validation.Placement.Outline
import Ariel.Proofs.Validation.Placement.Comparison

/-!
# Placement of the checks of spelling

Mistyped keywords and unknown functions are reported at their names, and double quotes at
themselves.
-/

namespace Ariel.Validation

open Ariel.Text

variable {cs rest word : List Char} {before : Option Char}

/-- A mistyped keyword is reported as it stands. -/
theorem stands_at_of_typo {meant : String} (h : typo before cs = some ((word, meant), rest)) :
    StandsAt cs 0 word := by
  simp only [typo, bind, Option.bind_eq_some_iff, pure, Option.some.injEq, Prod.mk.injEq] at h
  obtain ⟨-, -, meant, hlookup, ⟨rfl, -⟩, -⟩ := h
  refine ⟨?_, ?_, [], cs.dropWhile isWordCharacter, ?_, rfl⟩
  · intro hnil
    have hnone : typos.lookup (String.ofList (capitals [])) = none := by decide
    rw [hnil, hnone] at hlookup
    cases hlookup
  · exact fun c hc => is_blank_of_word_character (List.mem_takeWhile_imp hc)
  · rw [List.nil_append, List.takeWhile_append_dropWhile]

theorem common_typos_placed (text : List Char) : PlacedIn text (commonTypos text) := by
  refine placed_map fun found hfound => ?_
  obtain ⟨offset, word, meant⟩ := found
  exact placed_one (anchored_of_occurrence hfound
    fun _ _ _ hword => ⟨word, stands_at_of_typo hword⟩)

theorem anchored_of_call {name : List Char} (h : call before cs = some (name, rest)) :
    Anchored cs 0 := by
  simp only [call, qualifiedName?, bind, Option.bind_eq_some_iff, Prod.exists] at h
  obtain ⟨-, -, qualified, tail, ⟨first, after, hname, -⟩, -⟩ := h
  exact ⟨first, stands_at_of_name hname⟩

/-- The calls that are reported are among all calls. -/
theorem mem_of_mem_unknown_calls {seen : List String} {calls : List (Occurrence (List Char))}
    {found : Occurrence (List Char)} (h : found ∈ unknownCalls seen calls) : found ∈ calls := by
  induction calls generalizing seen with
  | nil => cases h
  | cons first calls ih =>
      simp only [unknownCalls] at h
      split at h
      · exact List.mem_cons_of_mem _ (ih h)
      · rcases List.mem_cons.mp h with rfl | h
        · exact List.mem_cons_self
        · exact List.mem_cons_of_mem _ (ih h)

theorem unknown_functions_placed (text : List Char) : PlacedIn text (unknownFunctions text) := by
  refine placed_map fun found hfound => placed_one ?_
  exact anchored_of_occurrence (mem_of_mem_unknown_calls hfound)
    fun _ _ _ hword => anchored_of_call hword

/-- What stands before a value is taken from the front of a text. -/
theorem exists_of_value_operator {operator : Option Char → List Char → Option (List Char)}
    (hmem : operator ∈ valueOperators) (h : operator before cs = some rest) :
    ∃ front, cs = front ++ rest := by
  have hword : ∀ name, matchingWord? name before cs = some rest → ∃ front, cs = front ++ rest := by
    intro name hname
    simp only [matchingWord?, bind, Option.bind_eq_some_iff, pure, Option.some.injEq] at hname
    obtain ⟨-, -, tail, hmatching, -, -, rfl⟩ := hname
    rcases Option.or_eq_some_iff.mp hmatching with hcase | ⟨-, hcase⟩
    · obtain ⟨word, -, heq⟩ := any_case_eq_some_iff.mp hcase
      exact ⟨word, heq⟩
    · obtain ⟨word, -, heq⟩ := any_case_eq_some_iff.mp hcase
      exact ⟨word, heq⟩
  rcases List.mem_append.mp hmem with hmem | hmem
  · obtain ⟨name, -, rfl⟩ := List.mem_map.mp hmem
    exact ⟨_, literal_eq_some_iff.mp h⟩
  · simp only [List.mem_cons, List.not_mem_nil, or_false] at hmem
    rcases hmem with rfl | rfl
    · exact hword _ h
    · exact hword _ h

/-- A double quote stands behind the reported gap. -/
theorem anchored_of_double_quoted {gap : Nat}
    (h : doubleQuotedValue before cs = some (gap, rest)) : Anchored cs gap := by
  obtain ⟨operator, hmem, hfound⟩ := List.exists_of_findSome?_eq_some h
  simp only [bind, Option.bind_eq_some_iff, pure, Option.some.injEq, Prod.mk.injEq] at hfound
  obtain ⟨tail, hoperator, after, hquote, rfl, -⟩ := hfound
  obtain ⟨front, rfl⟩ := exists_of_value_operator hmem hoperator
  obtain ⟨blanks, hblanks, -⟩ := drop_blanks_spec tail
  have hsplit : front ++ tail = (front ++ blanks) ++ dropBlanks tail := by
    rw [List.append_assoc, ← hblanks]
  rw [bytes_up_to_of_split hsplit, hsplit]
  exact (anchored_of_literal hquote (by decide)).append (front ++ blanks)

theorem double_quoted_literals_placed (text : List Char) :
    PlacedIn text (doubleQuotedLiterals text) := by
  exact placed_map fun found hfound => placed_one (anchored_of_occurrence hfound
    fun _ _ _ hword => anchored_of_double_quoted hword)

end Ariel.Validation
