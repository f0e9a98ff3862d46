import Ariel.Proofs.Validation.Padding.Basic
import Ariel.Proofs.Validation.Placement.Balance

/-!
# The balance of a query with blanks around it

Blanks are neither quotes nor parentheses, so that they only move those of a text.
-/

namespace Ariel.Validation

open Ariel.Text

variable {mark : Char} {gap cs ds : List Char}

/-- A mark is found at offsets that count from the first one. -/
theorem offsets_from_add (mark : Char) (n offset : Nat) (cs : List Char) :
    offsetsFrom mark (n + offset) cs = (offsetsFrom mark offset cs).map (n + ·) := by
  induction cs generalizing offset with
  | nil => rfl
  | cons c cs ih =>
      simp only [offsetsFrom, Nat.add_assoc, ih]
      split <;> rfl

/-- A mark that is no blank is not found in a gap. -/
theorem offsets_from_trails (hmark : isBlank mark = false) (h : Trails gap cs ds) (offset : Nat) :
    offsetsFrom mark offset ds = offsetsFrom mark offset cs := by
  obtain ⟨hblank, rfl⟩ := h
  induction cs generalizing offset with
  | cons c cs ih => simp only [List.cons_append, offsetsFrom, ih]
  | nil =>
      rw [List.nil_append]
      refine List.eq_nil_iff_forall_not_mem.mpr fun found hfound => ?_
      obtain ⟨front, tail, rfl, -⟩ := exists_of_mem_offsets hfound
      have hgap := hblank mark (by simp)
      rw [hmark] at hgap
      cases hgap

theorem follows_unmatched_quote (hmark : isBlank mark = false) (kind : String) :
    RemarksFollow (unmatchedQuote mark kind) where
  in_front {c} hc cs := by
    have hne : c ≠ mark := by
      rintro rfl
      rw [hc] at hmark
      cases hmark
    have hoffsets : offsetsFrom mark 0 (c :: cs) =
        (offsetsFrom mark 0 cs).map (c.utf8Size + ·) := by
      rw [offsetsFrom, if_neg hne, Nat.add_comm]
      exact offsets_from_add ..
    simp only [unmatchedQuote, hoffsets, List.getLast?_map, List.length_map]
    cases (offsetsFrom mark 0 cs).getLast? with
    | none => rfl
    | some last =>
        simp only [Option.map_some]
        split <;> rfl
  behind h := by simp only [unmatchedQuote, offsets_from_trails hmark h]

theorem follows_balanced_quotes : RemarksFollow balancedQuotes :=
  (follows_unmatched_quote (by decide) _).append (follows_unmatched_quote (by decide) _)

/-- Parentheses are matched at offsets that count from the first one. -/
theorem parentheses_add (n : Nat) (opened : List Nat) (offset : Nat) (cs : List Char) :
    parentheses (opened.map (n + ·)) (n + offset) cs =
      (parentheses opened offset cs).map (Remark.shifted n) := by
  induction cs generalizing opened offset with
  | nil =>
      cases opened with
      | nil => rfl
      | cons last opened => simp [parentheses, Remark.shifted, Remark.placed]
  | cons c cs ih =>
      rw [parentheses_cons, parentheses_cons, Nat.add_assoc]
      split
      · exact ih (offset :: opened) _
      · split
        · cases opened with
          | nil => exact congrArg _ (ih [] _)
          | cons last opened => exact ih opened _
        · exact ih opened _

/-- A blank is no parenthesis. -/
theorem parentheses_blank {c : Char} (hc : isBlank c = true) (opened : List Nat) (offset : Nat)
    (cs : List Char) :
    parentheses opened offset (c :: cs) = parentheses opened (offset + c.utf8Size) cs := by
  have hopen : c ≠ '(' := by
    rintro rfl
    cases hc
  have hclose : c ≠ ')' := by
    rintro rfl
    cases hc
  rw [parentheses_cons, if_neg hopen, if_neg hclose]

/-- Parentheses are matched without regard to a gap. -/
theorem parentheses_trails (h : Trails gap cs ds) (opened : List Nat) (offset : Nat) :
    parentheses opened offset ds = parentheses opened offset cs := by
  obtain ⟨hblank, rfl⟩ := h
  induction cs generalizing opened offset with
  | cons c cs ih => simp only [List.cons_append, parentheses_cons, ih]
  | nil =>
      rw [List.nil_append]
      induction gap generalizing offset with
      | nil => rfl
      | cons c gap ih =>
          rw [List.forall_mem_cons] at hblank
          rw [parentheses_blank hblank.1, ih hblank.2]
          cases opened <;> rfl

theorem follows_balanced_parentheses : RemarksFollow balancedParentheses where
  in_front {c} hc cs := by
    rw [balancedParentheses, parentheses_blank hc, Nat.add_comm]
    exact parentheses_add c.utf8Size [] 0 cs
  behind h := parentheses_trails h [] 0

end Ariel.Validation
