import Ariel.Proofs.Text.Character
import Ariel.Proofs.Text.Pattern
import Ariel.Proofs.Validation.Mask
import Ariel.Validation.Check

/-!
# Anchors

Every position that a check reports is the byte offset of a character that is no blank, in the query
itself and not only in its mask. `remarks_placed` says so of all checks; it rests on what each
pattern takes where it holds.
-/

namespace Ariel.Validation

open Ariel.Text

section Anchor

variable {cs word rest : List Char} {offset : Nat}

/-- A run of characters that are no blanks stands at a byte offset of a text. -/
structure StandsAt (cs : List Char) (offset : Nat) (word : List Char) : Prop where
  ne_nil : word ≠ []
  solid : ∀ c ∈ word, isBlank c = false
  split : ∃ front tail, cs = front ++ word ++ tail ∧ byteLength front = offset

/-- A character that is no blank stands at a byte offset of a text. -/
def Anchored (cs : List Char) (offset : Nat) : Prop :=
  ∃ word, StandsAt cs offset word

/-- A run that stands behind the beginning of a text stands behind more of a longer text. -/
theorem StandsAt.append (front : List Char) (h : StandsAt cs offset word) :
    StandsAt (front ++ cs) (byteLength front + offset) word := by
  obtain ⟨front', tail, rfl, rfl⟩ := h.split
  exact ⟨h.ne_nil, h.solid, front ++ front', tail, by simp, by simp⟩

/-- What stands in a mask stands in its text. -/
theorem StandsAt.of_mask (h : StandsAt (mask cs) offset word) : StandsAt cs offset word := by
  obtain ⟨front, tail, hsplit, rfl⟩ := h.split
  obtain ⟨front', tail', hsplit', hlength⟩ := mask_split hsplit h.ne_nil h.solid
  exact ⟨h.ne_nil, h.solid, front', tail', hsplit', hlength⟩

theorem Anchored.append (front : List Char) (h : Anchored cs offset) :
    Anchored (front ++ cs) (byteLength front + offset) := by
  obtain ⟨word, hword⟩ := h
  exact ⟨word, hword.append front⟩

theorem Anchored.of_mask (h : Anchored (mask cs) offset) : Anchored cs offset := by
  obtain ⟨word, hword⟩ := h
  exact ⟨word, hword.of_mask⟩

/-- The first character of an anchor is no blank. -/
theorem anchored_iff : Anchored cs offset ↔
    ∃ before c after, cs = before ++ c :: after ∧ byteLength before = offset ∧
      isBlank c = false := by
  constructor
  · rintro ⟨word, hword⟩
    obtain ⟨front, tail, rfl, rfl⟩ := hword.split
    obtain ⟨c, more, rfl⟩ := List.exists_cons_of_ne_nil hword.ne_nil
    exact ⟨front, c, more ++ tail, by simp, rfl, hword.solid c (by simp)⟩
  · rintro ⟨before, c, after, rfl, rfl, hc⟩
    exact ⟨[c], by simp, by simpa using hc, before, after, by simp, rfl⟩

/-- A text that begins with no blank is anchored at its beginning. -/
theorem anchored_zero {c : Char} (hc : isBlank c = false) (cs : List Char) : Anchored (c :: cs) 0 :=
  anchored_iff.mpr ⟨[], c, cs, rfl, rfl, hc⟩

/-- A text that begins with a keyword is anchored at its beginning. -/
theorem anchored_of_keyword {keyword : String} (h : keyword? keyword cs = some rest)
    (hk : keyword.toList.head?.any Char.isAlpha = true) : Anchored cs 0 := by
  obtain ⟨word, rfl, hword⟩ := keyword_eq_some_iff.mp h
  cases word with
  | nil =>
      rw [← hword] at hk
      cases hk
  | cons c word =>
      rw [← hword] at hk
      have hc : c.toUpper.isAlpha = true := by simpa [capitals] using hk
      rw [is_alpha_to_upper] at hc
      exact anchored_zero (is_blank_of_alpha hc) _

/-- A text that begins with a fixed text is anchored at its beginning. -/
theorem anchored_of_literal {text : String} (h : literal? text cs = some rest)
    (htext : text.toList.head?.any (!isBlank ·) = true) : Anchored cs 0 := by
  rw [literal_eq_some_iff] at h
  cases htake : text.toList with
  | nil =>
      rw [htake] at htext
      cases htext
  | cons c more =>
      rw [htake] at h htext
      rw [h]
      exact anchored_zero (by simpa using htext) _

/-- A text that begins with a word in any case is anchored at its beginning. -/
theorem anchored_of_any_case {letter : Char} {letters : List Char}
    (h : anyCase? (letter :: letters) cs = some rest) (hletter : letter.isAlpha = true) :
    Anchored cs 0 := by
  cases cs with
  | nil => cases h
  | cons c cs =>
      simp only [anyCase?, Option.ite_none_right_eq_some] at h
      exact anchored_zero (is_blank_of_letter (is_blank_of_alpha hletter) h.1) cs

/-- What stands at an offset behind the place of each match stands there behind each occurrence. -/
theorem stands_at_of_occurrence {α : Type} {p : Pattern α} {found : Occurrence α} {gap : Nat}
    (h : found ∈ occurrences p cs)
    (hp : ∀ before cs rest, p before cs = some (found.value, rest) → StandsAt cs gap word) :
    StandsAt cs (found.offset + gap) word := by
  obtain ⟨front, tail, rfl, hoffset, -, rest, hmatch⟩ := matches_of_occurrence h
  rw [← hoffset]
  exact (hp _ _ _ hmatch).append front

/-- What is anchored behind the place of each match is anchored behind each occurrence. -/
theorem anchored_of_occurrence {α : Type} {p : Pattern α} {found : Occurrence α} {gap : Nat}
    (h : found ∈ occurrences p cs)
    (hp : ∀ before cs rest, p before cs = some (found.value, rest) → Anchored cs gap) :
    Anchored cs (found.offset + gap) := by
  obtain ⟨front, tail, rfl, hoffset, -, rest, hmatch⟩ := matches_of_occurrence h
  rw [← hoffset]
  exact (hp _ _ _ hmatch).append front

end Anchor

end Ariel.Validation
