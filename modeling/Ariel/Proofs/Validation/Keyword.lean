import Ariel.Proofs.Text.Word
import Ariel.Proofs.Validation.Mask

/-!
# Keywords outside of literals

Checks look for keywords in the mask of a query. What they find there is a keyword of the query
itself, at the same offset and outside of its literals (`begins_at_of_mask`), and every keyword of
the query that stands outside of literals is found (`mask_of_begins_at`).
-/

namespace Ariel.Validation

open Ariel.Text

variable {keyword : String} {query text tail word rest : List Char} {offset : Nat}

/-- A keyword, in any ASCII letter case, begins a word of a text at a byte offset, and the rest of
the text stands behind it. -/
def StandsIn (keyword : String) (text : List Char) (offset : Nat) (rest : List Char) : Prop :=
  ∃ front word, text = front ++ (word ++ rest) ∧ byteLength front = offset ∧
    beginsWord front.getLast? = true ∧ capitals word = keyword.toList

/-- A keyword, in any ASCII letter case, begins a word of a query at a byte offset, outside of
literals, and the rest of the query stands behind it. -/
def BeginsAt (keyword : String) (query : List Char) (offset : Nat) (rest : List Char) : Prop :=
  ∃ front word, query = front ++ (word ++ rest) ∧ byteLength front = offset ∧
    Even (front.count '\'') ∧ beginsWord front.getLast? = true ∧ capitals word = keyword.toList

/-- A keyword, in any ASCII letter case, stands as a whole word at a byte offset of a query, outside
of literals. -/
def WordAt (keyword : String) (query : List Char) (offset : Nat) : Prop :=
  ∃ rest, BeginsAt keyword query offset rest ∧ endsWord rest = true

/-- Behind blanks a word can begin. -/
theorem begins_word_behind_blanks {front gap : List Char} (hgap : ∀ c ∈ gap, isBlank c = true)
    (h : beginsWord front.getLast? = true ∨ gap ≠ []) :
    beginsWord (front ++ gap).getLast? = true := by
  rcases List.eq_nil_or_concat' gap with rfl | ⟨init, c, rfl⟩
  · simpa using h
  · have hc := is_word_character_of_blank (hgap c (by simp))
    rw [← List.append_assoc, List.getLast?_concat]
    simp [beginsWord, hc]

/-- A keyword is written in letters. -/
theorem is_alpha_of_keyword (hkeyword : LetterWord keyword)
    (hword : capitals word = keyword.toList) : word ≠ [] ∧ ∀ c ∈ word, c.isAlpha = true := by
  constructor
  · rintro rfl
    exact hkeyword.ne_nil hword.symm
  · intro c hc
    have hletter : c.toUpper ∈ keyword.toList := hword ▸ List.mem_map_of_mem hc
    have halpha := hkeyword.letters _ hletter
    rwa [is_alpha_to_upper] at halpha

/-- A keyword begins with its first letter. -/
theorem head_of_keyword (hkeyword : LetterWord keyword) (hword : capitals word = keyword.toList)
    (rest : List Char) :
    (word ++ rest).head?.map Char.toUpper = keyword.toList.head? := by
  have hne := (is_alpha_of_keyword hkeyword hword).1
  rw [List.head?_append_of_ne_nil _ hne, ← hword, capitals, List.head?_map]

/-- At one place of a text stand keywords with the same first letter only. -/
theorem StandsIn.head_eq {keyword' : String} (h : StandsIn keyword text offset rest)
    (h' : StandsIn keyword' text offset tail) (hkeyword : LetterWord keyword)
    (hkeyword' : LetterWord keyword') : keyword.toList.head? = keyword'.toList.head? := by
  obtain ⟨front, word, hsplit, hoffset, -, hword⟩ := h
  obtain ⟨front', word', hsplit', hoffset', -, hword'⟩ := h'
  have hplace := split_at_byte_eq_some_iff.mpr ⟨hsplit, hoffset⟩
  rw [split_at_byte_eq_some_iff.mpr ⟨hsplit', hoffset'⟩] at hplace
  obtain ⟨-, hsame⟩ := Prod.mk.inj (Option.some.inj hplace)
  rw [← head_of_keyword hkeyword hword, ← head_of_keyword hkeyword' hword', hsame]

/-- A keyword stands at one place of a text with one rest behind it. -/
theorem StandsIn.rest_eq (h : StandsIn keyword text offset rest)
    (h' : StandsIn keyword text offset tail) : rest = tail := by
  obtain ⟨front, word, hsplit, hoffset, -, hword⟩ := h
  obtain ⟨front', word', hsplit', hoffset', -, hword'⟩ := h'
  have hplace := split_at_byte_eq_some_iff.mpr ⟨hsplit, hoffset⟩
  rw [split_at_byte_eq_some_iff.mpr ⟨hsplit', hoffset'⟩] at hplace
  obtain ⟨-, hsame⟩ := Prod.mk.inj (Option.some.inj hplace)
  have hlength : word'.length = word.length := by
    rw [← length_capitals word', hword', ← hword, length_capitals]
  exact (List.append_inj hsame hlength).2.symm

/-- A keyword in the mask of a query stands in the query, outside of literals. -/
theorem begins_at_of_mask (hkeyword : LetterWord keyword)
    (h : StandsIn keyword (mask query) offset tail) :
    ∃ rest, BeginsAt keyword query offset rest ∧ mask rest = tail := by
  obtain ⟨front, word, hsplit, hoffset, hbegins, hword⟩ := h
  obtain ⟨hne, hletters⟩ := is_alpha_of_keyword hkeyword hword
  have hsolid : ∀ c ∈ word.head?, isBlank c = false := fun c hc =>
    is_blank_of_alpha (hletters c (List.mem_of_mem_head? hc))
  have hquoteless : '\'' ∉ word := fun hquote => absurd (hletters _ hquote) (by decide)
  obtain ⟨front', rest, rfl, rfl, heven, hrest⟩ := exists_run_of_mask hsplit hne hsolid hquoteless
  rw [mask, last_mask (ends_inside_of_even heven)] at hbegins
  rw [mask, byte_length_mask_from] at hoffset
  exact ⟨rest, ⟨front', word, rfl, hoffset, heven, hbegins, hword⟩, hrest⟩

/-- A keyword of a query outside of literals stands in the mask. -/
theorem mask_of_begins_at (hkeyword : LetterWord keyword) (h : BeginsAt keyword query offset rest) :
    StandsIn keyword (mask query) offset (mask rest) := by
  obtain ⟨front, word, rfl, hoffset, heven, hbegins, hword⟩ := h
  have hquoteless : '\'' ∉ word := fun hquote =>
    absurd ((is_alpha_of_keyword hkeyword hword).2 _ hquote) (by decide)
  refine ⟨mask front, word, ?_, ?_, ?_, hword⟩
  · exact mask_run heven hquoteless
  · rw [mask, byte_length_mask_from, hoffset]
  · rw [mask, last_mask (ends_inside_of_even heven)]
    exact hbegins

/-- A word ends in front of a text outside of literals exactly when it ends in front of the mask. -/
theorem ends_word_mask (cs : List Char) : endsWord (mask cs) = endsWord cs := by
  rw [endsWord, endsWord, mask, head_mask]

/-- A keyword stands as a whole word outside of literals where a word ends behind it in the mask. -/
theorem word_at_iff_stands_in (hkeyword : LetterWord keyword) : WordAt keyword query offset ↔
    ∃ tail, StandsIn keyword (mask query) offset tail ∧ endsWord tail = true := by
  constructor
  · rintro ⟨rest, hbegins, hends⟩
    exact ⟨mask rest, mask_of_begins_at hkeyword hbegins, by rwa [ends_word_mask]⟩
  · rintro ⟨tail, hstands, hends⟩
    obtain ⟨rest, hbegins, rfl⟩ := begins_at_of_mask hkeyword hstands
    exact ⟨rest, hbegins, by rwa [ends_word_mask] at hends⟩

/-- A keyword stands as a word outside of literals where the mask shows it as a word. -/
theorem word_at_iff (hkeyword : LetterWord keyword) : WordAt keyword query offset ↔
    ∃ front tail, mask query = front ++ tail ∧ byteLength front = offset ∧
      MatchesAt (wholeWord keyword) front tail () := by
  rw [word_at_iff_stands_in hkeyword]
  constructor
  · rintro ⟨tail, ⟨front, word, hsplit, hoffset, hbefore, hword⟩, hends⟩
    have hne : word ++ tail ≠ [] := by simp [(is_alpha_of_keyword hkeyword hword).1]
    exact ⟨front, word ++ tail, hsplit, hoffset, hne, tail,
      whole_word_eq_some_iff.mpr ⟨hbefore, hends, word, rfl, hword⟩⟩
  · rintro ⟨front, tail, hsplit, rfl, -, left, hmatch⟩
    obtain ⟨hbefore, hends, word, rfl, hword⟩ := whole_word_eq_some_iff.mp hmatch
    exact ⟨left, ⟨front, word, hsplit, rfl, hbefore, hword⟩, hends⟩

end Ariel.Validation
