import Ariel.Text.Ascii
import Ariel.Text.DecimalDigit
import Ariel.Text.Letter
import Ariel.Text.Pattern

/-!
# Classes of characters

How the classes of characters lie to each other: letters and digits are no blanks, blanks are
neither word characters nor digits, and capitals differ from small letters in ASCII only.
-/

namespace Ariel.Text

/-- The blanks, as code points. -/
def blankCodePoints : List Nat :=
  [9, 10, 11, 12, 13, 0x20, 0x85, 0xA0, 0x1680, 0x2000, 0x2001, 0x2002, 0x2003, 0x2004, 0x2005,
    0x2006, 0x2007, 0x2008, 0x2009, 0x200A, 0x2028, 0x2029, 0x202F, 0x205F, 0x3000]

/-- A blank is one of finitely many characters. -/
theorem is_blank_iff {c : Char} : isBlank c = true ↔ c.toNat ∈ blankCodePoints := by
  simp only [isBlank, blankCodePoints, Bool.or_eq_true, Bool.and_eq_true, decide_eq_true_eq,
    beq_iff_eq, List.mem_cons, List.not_mem_nil, or_false]
  omega

/-- What holds of every blank code point holds of every blank. -/
theorem forall_blank {P : Char → Prop} (h : ∀ n ∈ blankCodePoints, P (Char.ofNat n)) {c : Char}
    (hc : isBlank c = true) : P c := by
  have := h c.toNat (is_blank_iff.mp hc)
  rwa [Char.ofNat_toNat] at this

/-- A blank is no word character. -/
theorem is_word_character_of_blank {c : Char} (h : isBlank c = true) : isWordCharacter c = false :=
  forall_blank (P := fun c => isWordCharacter c = false) (by decide +kernel) h

/-- A word character is no blank. -/
theorem is_blank_of_word_character {c : Char} (h : isWordCharacter c = true) :
    isBlank c = false := by
  refine Bool.eq_false_iff.mpr fun hblank => ?_
  rw [is_word_character_of_blank hblank] at h
  cases h

/-- Where a word can end, no word character follows. -/
theorem is_word_character_of_ends_word {cs : List Char} (h : endsWord cs = true) :
    ∀ c ∈ cs.head?, isWordCharacter c = false := by
  intro c hc
  rw [endsWord, Option.mem_def.mp hc] at h
  simpa using h

/-- A word can end in front of blanks. -/
theorem ends_word_of_blanks {gap rest : List Char} (hne : gap ≠ [])
    (hgap : ∀ c ∈ gap, isBlank c = true) : endsWord (gap ++ rest) = true := by
  obtain ⟨c, more, rfl⟩ := List.exists_cons_of_ne_nil hne
  simp [endsWord, is_word_character_of_blank (hgap c (by simp))]

/-- A blank is no digit of any script. -/
theorem is_decimal_digit_of_blank {c : Char} (h : isBlank c = true) : isDecimalDigit c = false :=
  forall_blank (P := fun c => isDecimalDigit c = false) (by decide) h

/-- A digit of any script is no blank. -/
theorem is_blank_of_decimal_digit {c : Char} (h : isDecimalDigit c = true) : isBlank c = false := by
  refine Bool.eq_false_iff.mpr fun hblank => ?_
  rw [is_decimal_digit_of_blank hblank] at h
  cases h

/-- The ASCII digits, as code points. -/
theorem is_digit_iff {c : Char} : c.isDigit = true ↔ 48 ≤ c.toNat ∧ c.toNat ≤ 57 := by
  simp [Char.isDigit, UInt32.le_iff_toNat_le]

/-- The small ASCII letters, as code points. -/
theorem is_lower_iff {c : Char} : c.isLower = true ↔ 97 ≤ c.toNat ∧ c.toNat ≤ 122 := by
  delta Char.isLower
  simp [UInt32.le_iff_toNat_le]

/-- The ASCII letters, as code points. -/
theorem is_alpha_iff {c : Char} : c.isAlpha = true ↔
    (65 ≤ c.toNat ∧ c.toNat ≤ 90) ∨ (97 ≤ c.toNat ∧ c.toNat ≤ 122) := by
  delta Char.isAlpha Char.isUpper Char.isLower
  simp [UInt32.le_iff_toNat_le]

/-- A letter is no blank. -/
theorem is_blank_of_alpha {c : Char} (h : c.isAlpha = true) : isBlank c = false := by
  refine Bool.eq_false_iff.mpr fun hblank => ?_
  rw [is_blank_iff] at hblank
  rw [is_alpha_iff] at h
  simp only [blankCodePoints, List.mem_cons, List.not_mem_nil, or_false] at hblank
  omega

/-- A digit is no blank. -/
theorem is_blank_of_digit {c : Char} (h : c.isDigit = true) : isBlank c = false := by
  refine Bool.eq_false_iff.mpr fun hblank => ?_
  rw [is_blank_iff] at hblank
  rw [is_digit_iff] at h
  simp only [blankCodePoints, List.mem_cons, List.not_mem_nil, or_false] at hblank
  omega

/-- Capitals are made of the small ASCII letters only. -/
theorem to_nat_to_upper (c : Char) :
    c.toUpper.toNat = if 97 ≤ c.toNat ∧ c.toNat ≤ 122 then c.toNat - 32 else c.toNat := by
  unfold Char.toUpper
  split
  next h =>
    have hlow : 97 ≤ c.toNat := UInt32.le_iff_toNat_le.mp h.1
    have hhigh : c.toNat ≤ 122 := UInt32.le_iff_toNat_le.mp h.2
    rw [if_pos ⟨hlow, hhigh⟩]
    change (c.val + ('A'.val - 'a'.val)).toNat = c.val.toNat - 32
    change 97 ≤ c.val.toNat at hlow
    change c.val.toNat ≤ 122 at hhigh
    rw [UInt32.toNat_add, show ('A'.val - 'a'.val).toNat = 2 ^ 32 - 32 by decide]
    omega
  next h =>
    have hrange : ¬(97 ≤ c.toNat ∧ c.toNat ≤ 122) := fun hc =>
      h ⟨UInt32.le_iff_toNat_le.mpr hc.1, UInt32.le_iff_toNat_le.mpr hc.2⟩
    rw [if_neg hrange]

/-- A character and its capital are letters together. -/
@[simp]
theorem is_alpha_to_upper (c : Char) : c.toUpper.isAlpha = c.isAlpha := by
  rw [Bool.eq_iff_iff, is_alpha_iff, is_alpha_iff, to_nat_to_upper]
  split <;> omega

/-- A digit has no other capital. -/
theorem to_upper_of_digit {c : Char} (h : c.isDigit = true) : c.toUpper = c := by
  rw [is_digit_iff] at h
  apply Char.toNat_inj.mp
  rw [to_nat_to_upper, if_neg (by omega)]

/-- A letter is a word character. -/
theorem is_word_character_of_alpha {c : Char} (h : c.isAlpha = true) :
    isWordCharacter c = true := by
  have hascii : c.toNat < 0x80 := by
    rw [is_alpha_iff] at h
    omega
  simp [isWordCharacter, hascii, Char.isAlphanum, h]

/-- A letter is no digit of any script. -/
theorem is_decimal_digit_of_alpha {c : Char} (h : c.isAlpha = true) :
    isDecimalDigit c = false := by
  rw [is_alpha_iff] at h
  unfold isDecimalDigit decimalDigitRanges CodePointRange.covers
  rw [if_neg (by omega), if_neg (by omega)]
  unfold CodePointRange.covers
  rw [if_pos (by omega)]

/-- A digit of any script is no letter. -/
theorem is_alpha_of_decimal_digit {c : Char} (h : isDecimalDigit c = true) : c.isAlpha = false := by
  refine Bool.eq_false_iff.mpr fun halpha => ?_
  rw [is_decimal_digit_of_alpha halpha] at h
  cases h

/-- An ASCII digit is a digit among those of all scripts. -/
theorem is_decimal_digit_of_digit {c : Char} (h : c.isDigit = true) :
    isDecimalDigit c = true := by
  rw [is_digit_iff] at h
  unfold isDecimalDigit decimalDigitRanges CodePointRange.covers
  rw [if_neg (by omega), if_pos (by omega)]

/-- Only letters have other capitals. -/
theorem to_upper_of_not_alpha {c : Char} (h : c.isAlpha = false) : c.toUpper = c := by
  apply Char.toNat_inj.mp
  rw [to_nat_to_upper, if_neg]
  intro hsmall
  rw [is_alpha_iff.mpr (.inr hsmall)] at h
  cases h

/-- A capital is its own capital. -/
theorem to_upper_to_upper (c : Char) : c.toUpper.toUpper = c.toUpper := by
  apply Char.toNat_inj.mp
  rw [to_nat_to_upper, if_neg]
  rw [to_nat_to_upper]
  split <;> omega

/-- A blank is no letter. -/
theorem is_alpha_of_blank {c : Char} (h : isBlank c = true) : c.isAlpha = false := by
  refine Bool.eq_false_iff.mpr fun halpha => ?_
  rw [is_blank_of_alpha halpha] at h
  cases h

/-- A digit is no letter. -/
theorem is_alpha_of_digit {c : Char} (h : c.isDigit = true) : c.isAlpha = false := by
  refine Bool.eq_false_iff.mpr fun halpha => ?_
  rw [is_digit_iff] at h
  rw [is_alpha_iff] at halpha
  omega

/-- A letter takes one byte. -/
theorem utf8_size_of_alpha {c : Char} (h : c.isAlpha = true) : c.utf8Size = 1 := by
  rw [is_alpha_iff] at h
  refine Char.utf8Size_eq_one_iff.mpr (UInt32.le_iff_toNat_le.mpr ?_)
  show c.toNat ≤ 127
  omega

/-- A letter is recognised, in any case, by what is no blank. -/
theorem is_blank_of_letter {letter c : Char} (hletter : isBlank letter = false)
    (h : isLetter letter c = true) : isBlank c = false := by
  simp only [isLetter, Bool.or_eq_true, Bool.and_eq_true, beq_iff_eq] at h
  rcases h with (hcapital | ⟨-, hkelvin⟩) | ⟨-, rfl⟩
  · cases halpha : c.isAlpha with
    | true => exact is_blank_of_alpha halpha
    | false => rwa [← hcapital, to_upper_of_not_alpha halpha] at hletter
  · rw [← Char.ofNat_toNat c, hkelvin]
    decide
  · decide

/-- In ASCII a letter is recognised by its capital. -/
theorem is_letter_of_alpha {letter c : Char} (h : c.isAlpha = true) :
    isLetter letter c = (c.toUpper == letter) := by
  rw [is_alpha_iff] at h
  have hkelvin : (c.toNat == 0x212A) = false := beq_eq_false_iff_ne.mpr (by omega)
  have hlong : (c == 'ſ') = false := beq_eq_false_iff_ne.mpr fun hc => by
    rw [hc] at h
    revert h
    decide
  rw [isLetter, hkelvin, hlong, Bool.and_false, Bool.and_false, Bool.or_false, Bool.or_false]

end Ariel.Text
