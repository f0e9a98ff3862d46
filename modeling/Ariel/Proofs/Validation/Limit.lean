import Ariel.Proofs.Text.Cover
import Ariel.Proofs.Validation.Keyword
import Ariel.Proofs.Validation.Pattern

/-!
# Values of limits

LIMIT is read together with its value, the characters behind the next blanks and up to the next
blank, and the search goes on behind the value. Another LIMIT in there is not seen, but a value with
letters is no number, so the first one is reported (`limit_value_silent_iff`).
-/

namespace Ariel.Validation

open Ariel.Text

variable {before : Option Char} {cs rest value tail passed left : List Char} {gap : Nat}

/-- A text is a positive number below 2^64: ASCII digits, with or without a plus sign in front. -/
def PositiveNumber (text : List Char) : Prop :=
  ∃ digits, (text = digits ∨ text = '+' :: digits) ∧ digits ≠ [] ∧
    (∀ c ∈ digits, c.isDigit = true) ∧ 1 ≤ digitsValue digits ∧ digitsValue digits ≤ 2 ^ 64 - 1

/-- A good limit is a positive number, with or without semicolons behind it. -/
def GoodLimit (value : List Char) : Prop :=
  ∃ number semicolons, value = number ++ semicolons ∧ PositiveNumber number ∧
    ∀ c ∈ semicolons, c = ';'

/-- A text begins with blanks and a value behind them that reaches to the next blank or to the end
of the text. -/
def HasValue (text value : List Char) : Prop :=
  ∃ blanks rest, text = blanks ++ (value ++ rest) ∧ blanks ≠ [] ∧ (∀ c ∈ blanks, isBlank c = true) ∧
    value ≠ [] ∧ (∀ c ∈ value, isBlank c = false) ∧ ∀ c ∈ rest.head?, isBlank c = true

section Value

/-- A text ends with the semicolons that are dropped. -/
theorem drop_last_semicolons_spec (cs : List Char) :
    ∃ semicolons, cs = dropLastSemicolons cs ++ semicolons ∧ ∀ c ∈ semicolons, c = ';' := by
  refine ⟨(cs.reverse.takeWhile (· == ';')).reverse, ?_, fun c hc => ?_⟩
  · rw [dropLastSemicolons, ← List.reverse_append, List.takeWhile_append_dropWhile,
      List.reverse_reverse]
  · have hsemicolon : (c == ';') = true :=
      @List.mem_takeWhile_imp _ (· == ';') _ _ (List.mem_reverse.mp hc)
    exact beq_iff_eq.mp hsemicolon

/-- The semicolons that end a text are dropped. -/
theorem drop_last_semicolons_append {semicolons : List Char} (hlast : ∀ c ∈ cs.getLast?, c ≠ ';')
    (hsemicolons : ∀ c ∈ semicolons, c = ';') : dropLastSemicolons (cs ++ semicolons) = cs := by
  have hrun : ∀ c ∈ semicolons.reverse, (c == ';') = true := fun c hc =>
    beq_iff_eq.mpr (hsemicolons c (List.mem_reverse.mp hc))
  have hstop : ∀ c ∈ cs.reverse.head?, (c == ';') = false := by
    rw [List.head?_reverse]
    exact fun c hc => beq_eq_false_iff_ne.mpr (hlast c hc)
  rw [dropLastSemicolons, List.reverse_append, drop_while_append hrun hstop, List.reverse_reverse]

/-- A value is no bad limit when it is a positive number. -/
theorem bad_limit_eq_none_iff : badLimit? value = none ↔ PositiveNumber value := by
  have hsize : UInt64.size = 2 ^ 64 := rfl
  constructor
  · intro h
    rw [badLimit?] at h
    split at h
    next n hread =>
      obtain ⟨digits, hvalue, hne, hdigits, hn, hlt⟩ := numeral_eq_some_iff.mp hread
      exact ⟨digits, hvalue, hne, hdigits, by omega, by omega⟩
    next => split at h <;> cases h
  · rintro ⟨digits, hvalue, hne, hdigits, hpos, hbound⟩
    obtain ⟨n, hn⟩ := Nat.exists_eq_add_of_le' hpos
    have hread : numeral? UInt64.size value = some (n + 1) :=
      numeral_eq_some_iff.mpr ⟨digits, hvalue, hne, hdigits, hn, by omega⟩
    rw [badLimit?, hread]

/-- The characters of a positive number are digits behind a plus sign. -/
theorem PositiveNumber.mem (h : PositiveNumber value) {c : Char} (hc : c ∈ value) :
    c = '+' ∨ c.isDigit = true := by
  obtain ⟨digits, rfl | rfl, -, hdigits, -⟩ := h
  · exact .inr (hdigits c hc)
  · exact (List.mem_cons.mp hc).imp_right (hdigits c)

/-- The value of a limit is read without the semicolons behind it. -/
theorem positive_number_iff : PositiveNumber (dropLastSemicolons value) ↔ GoodLimit value := by
  constructor
  · intro h
    obtain ⟨semicolons, hvalue, hsemicolons⟩ := drop_last_semicolons_spec value
    exact ⟨_, semicolons, hvalue, h, hsemicolons⟩
  · rintro ⟨number, semicolons, rfl, h, hsemicolons⟩
    have hlast : ∀ c ∈ number.getLast?, c ≠ ';' := by
      rintro c hc rfl
      exact absurd (h.mem (List.mem_of_mem_getLast? hc)) (by decide)
    rwa [drop_last_semicolons_append hlast hsemicolons]

/-- A good limit has no letters. -/
theorem GoodLimit.is_alpha (h : GoodLimit value) : ∀ c ∈ value, c.isAlpha = false := by
  obtain ⟨number, semicolons, rfl, hnumber, hsemicolons⟩ := h
  intro c hc
  rcases List.mem_append.mp hc with hc | hc
  · rcases hnumber.mem hc with rfl | hdigit
    · decide
    · exact is_alpha_of_digit hdigit
  · rw [hsemicolons c hc]
    decide

/-- The value behind blanks reaches from the first character that is no blank to the next blank. -/
theorem HasValue.eq (h : HasValue cs value) :
    value = (dropBlanks cs).takeWhile fun c => !isBlank c := by
  obtain ⟨blanks, rest, rfl, -, hblanks, hne, hvalue, hrest⟩ := h
  have hsolid : ∀ c ∈ value, (!isBlank c) = true := fun c hc => by simp [hvalue c hc]
  have hstop : ∀ c ∈ rest.head?, (!isBlank c) = false := fun c hc => by simp [hrest c hc]
  rw [drop_blanks_append hblanks, drop_blanks_of_head (head_of_run hne hvalue),
    take_while_append hsolid hstop]

end Value

section Clause

theorem letter_word_limit : LetterWord "LIMIT" := by decide

variable {found : Option (Nat × List Char)}

/-- LIMIT as a whole word is taken, whatever stands behind it. -/
theorem exists_limit_clause (h : wholeWord "LIMIT" before cs = some ((), rest)) :
    ∃ found rest', limitClause before cs = some (found, rest') := by
  simp only [limitClause, h, bind, Option.bind_some]
  split <;> exact ⟨_, _, rfl⟩

/-- LIMIT is taken together with the value behind it. -/
theorem limit_clause_of_has_value (hword : wholeWord "LIMIT" before cs = some ((), rest))
    (h : HasValue rest value) :
    ∃ gap rest', limitClause before cs = some (some (gap, value), rest') := by
  obtain ⟨hbegins, -, word, rfl, hletters⟩ := whole_word_eq_some_iff.mp hword
  obtain ⟨blanks, rest', rfl, hne, hblanks, hsome, hvalue, hrest⟩ := h
  exact ⟨byteLength (word ++ blanks), rest', limit_clause_eq_some_iff.mpr
    ⟨hbegins, word, blanks, rfl, hletters, hne, hblanks, rfl, hsome, hvalue, hrest⟩⟩

/-- The value that LIMIT is taken with stands behind it. -/
theorem has_value_of_limit_clause (hword : wholeWord "LIMIT" before cs = some ((), rest))
    (h : limitClause before cs = some (some (gap, value), tail)) : HasValue rest value := by
  obtain ⟨hbegins, word, blanks, rfl, hletters, hne, hblanks, -, hsome, hvalue, hrest⟩ :=
    limit_clause_eq_some_iff.mp h
  have hword' : wholeWord "LIMIT" before (word ++ (blanks ++ (value ++ tail))) =
      some ((), blanks ++ (value ++ tail)) :=
    whole_word_eq_some_iff.mpr ⟨hbegins, ends_word_of_blanks hne hblanks, word, rfl, hletters⟩
  obtain ⟨-, rfl⟩ := Prod.mk.inj (Option.some.inj (hword.symm.trans hword'))
  exact ⟨blanks, tail, rfl, hne, hblanks, hsome, hvalue, hrest⟩

/-- A limit takes some characters. -/
theorem consumes_limit_clause : Consumes limitClause := by
  intro before cs found tail h
  cases found with
  | none =>
      simp only [limitClause, bind, Option.bind_eq_some_iff, Prod.exists] at h
      obtain ⟨u, after, hword, h⟩ := h
      obtain ⟨-, -, word, rfl, hletters⟩ := whole_word_eq_some_iff.mp hword
      have hne := (is_alpha_of_keyword letter_word_limit hletters).1
      split at h <;> cases h <;> exact ⟨word, hne, rfl⟩
  | some found =>
      obtain ⟨gap, value⟩ := found
      obtain ⟨-, word, blanks, rfl, -, hne, -⟩ := limit_clause_eq_some_iff.mp h
      exact ⟨word ++ (blanks ++ value), by simp [hne], by simp⟩

/-- No word of letters begins in a limit with a good value, behind its beginning. -/
theorem not_begins_within {c : Char} (hpassed : passed ≠ []) (hgood : GoodLimit value)
    (h : limitClause before (passed ++ (c :: left ++ tail)) = some (some (gap, value), tail))
    (hc : c.isAlpha = true) : beginsWord passed.getLast? = false := by
  obtain ⟨-, word, blanks, hsplit, hletters, -, hblanks, -⟩ := limit_clause_eq_some_iff.mp h
  have hword := is_alpha_of_keyword letter_word_limit hletters
  have hwhole : passed ++ c :: left = word ++ (blanks ++ value) := by
    have hcancel : (passed ++ c :: left) ++ tail = (word ++ (blanks ++ value)) ++ tail := by
      simpa using hsplit
    exact List.append_cancel_right hcancel
  rcases split_behind_or_within hwhole with ⟨more, rfl, -⟩ | ⟨more, -, rfl, hmore⟩
  · -- Behind the first letters of the keyword no word begins.
    have hpart : ∀ d ∈ passed, isWordCharacter d = true := fun d hd =>
      is_word_character_of_alpha (hword.2 d (List.mem_append_left _ hd))
    exact not_begins_word hpassed hpart []
  · have hmem : c ∈ blanks ++ value := by
      rw [hmore]
      simp
    rcases List.mem_append.mp hmem with hblank | hvalue
    · rw [is_alpha_of_blank (hblanks c hblank)] at hc
      cases hc
    · rw [hgood.is_alpha c hvalue] at hc
      cases hc

/-- A limit is not reported when it has a good value. -/
theorem limit_value_eq_nil_iff {text : List Char} : limitValue text = [] ↔
    ∀ found ∈ occurrences limitClause text,
      ∃ gap value, found.value = some (gap, value) ∧ GoodLimit value := by
  rw [limitValue, List.filterMap_eq_nil_iff]
  refine forall₂_congr fun found _ => ?_
  rw [Option.map_eq_none_iff, bad_limit_eq_none_iff]
  obtain ⟨offset, _ | ⟨gap, value⟩⟩ := found
  · have hnone : ¬ PositiveNumber [] := by
      rintro ⟨digits, hdigits | hdigits, hne, -⟩
      · exact hne hdigits.symm
      · cases hdigits
    simpa using hnone
  · simpa using positive_number_iff

/-- A text is without bad limits when every LIMIT in it has a good value, also those that stand
within the value of another one. -/
theorem limit_value_text {text : List Char} : limitValue text = [] ↔
    ∀ offset tail, StandsIn "LIMIT" text offset tail → endsWord tail = true →
      ∃ value, HasValue tail value ∧ GoodLimit value := by
  rw [limit_value_eq_nil_iff]
  constructor
  · rintro h offset tail ⟨front, word, rfl, rfl, hbegins, hletters⟩ hends
    have hword : wholeWord "LIMIT" front.getLast? (word ++ tail) = some ((), tail) :=
      whole_word_eq_some_iff.mpr ⟨hbegins, hends, word, rfl, hletters⟩
    obtain ⟨value, rest, hmatch⟩ := exists_limit_clause hword
    obtain ⟨found, hfound, start, passed, left, behind, rfl, htail, hleft, -, hholds⟩ :=
      occurrence_covering consumes_limit_clause hmatch
    obtain ⟨gap, value', hvalue, hgood⟩ := h found hfound
    rw [hvalue] at hholds
    by_cases hpassed : passed = []
    · subst hpassed
      rw [List.append_nil, htail] at hword
      exact ⟨value', has_value_of_limit_clause hword hholds, hgood⟩
    · -- No LIMIT begins within one that is found and has a good value.
      obtain ⟨c, left, rfl⟩ := List.exists_cons_of_ne_nil hleft
      have hc : c.isAlpha = true := by
        obtain ⟨hne, hall⟩ := is_alpha_of_keyword letter_word_limit hletters
        obtain ⟨d, more, rfl⟩ := List.exists_cons_of_ne_nil hne
        obtain ⟨rfl, -⟩ := List.cons.inj htail
        exact hall _ List.mem_cons_self
      rw [List.getLast?_append_of_ne_nil _ hpassed, not_begins_within hpassed hgood hholds hc]
        at hbegins
      cases hbegins
  · intro h found hfound
    obtain ⟨front, taken, rest, rfl, -, -, hholds⟩ :=
      taken_of_occurrence consumes_limit_clause hfound
    obtain ⟨tail, hword⟩ := whole_word_of_limit_clause hholds
    obtain ⟨hbegins, hends, word, hsplit, hletters⟩ := whole_word_eq_some_iff.mp hword
    have hstands : StandsIn "LIMIT" (front ++ (taken ++ rest)) (byteLength front) tail :=
      ⟨front, word, by rw [hsplit], rfl, hbegins, hletters⟩
    obtain ⟨value, hvalue, hgood⟩ := h _ tail hstands hends
    obtain ⟨gap, rest', hmatch⟩ := limit_clause_of_has_value hword hvalue
    rw [hholds] at hmatch
    exact ⟨gap, value, (Prod.mk.inj (Option.some.inj hmatch)).1, hgood⟩

end Clause

/-- The check of limits is silent exactly when every whole word LIMIT outside of literals has,
behind blanks and up to the next blank of the mask, a positive number below 2^64 as its value,
apart from semicolons at its end. A LIMIT that stands in the value of another one is no way around
that: the check is not silent then. -/
theorem limit_value_silent_iff (query : List Char) :
    (remarksOf .limitValue query = [] ↔
      ∀ offset rest, BeginsAt "LIMIT" query offset rest → endsWord rest = true →
        ∃ value, HasValue (mask rest) value ∧ GoodLimit value) ∧
    ∀ offset rest value front word behind, BeginsAt "LIMIT" query offset rest →
      endsWord rest = true → HasValue (mask rest) value → value = front ++ (word ++ behind) →
      capitals word = "LIMIT".toList → remarksOf .limitValue query ≠ [] := by
  have hcheck : remarksOf .limitValue query = limitValue (mask query) := rfl
  have hsilent : remarksOf .limitValue query = [] ↔
      ∀ offset rest, BeginsAt "LIMIT" query offset rest → endsWord rest = true →
        ∃ value, HasValue (mask rest) value ∧ GoodLimit value := by
    rw [hcheck, limit_value_text]
    constructor
    · intro h offset rest hbegins hends
      have hstands := mask_of_begins_at letter_word_limit hbegins
      exact h offset (mask rest) hstands (by rwa [ends_word_mask])
    · intro h offset tail hstands hends
      obtain ⟨rest, hbegins, rfl⟩ := begins_at_of_mask letter_word_limit hstands
      exact h offset rest hbegins (by rwa [ends_word_mask] at hends)
  refine ⟨hsilent, ?_⟩
  rintro offset rest value front word behind hbegins hends hvalue rfl hletters hnone
  obtain ⟨value', hvalue', hgood⟩ := hsilent.mp hnone offset rest hbegins hends
  rw [hvalue'.eq, ← hvalue.eq] at hgood
  -- A good value has no letters, but the keyword has.
  obtain ⟨hne, hall⟩ := is_alpha_of_keyword letter_word_limit hletters
  obtain ⟨c, more, rfl⟩ := List.exists_cons_of_ne_nil hne
  have halpha := hall c List.mem_cons_self
  rw [hgood.is_alpha c (by simp)] at halpha
  cases halpha

end Ariel.Validation
