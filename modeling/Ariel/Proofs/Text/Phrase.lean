import Ariel.Proofs.Text.Scan
import Ariel.Proofs.Text.Word

/-!
# Rows of words

What a pattern of several keywords covers is a row of words, with gaps of other characters between
them. A letter that begins a word behind the first one begins a later word of the row, or stands
behind the row (`Words.split`). A pattern that covers such rows and does not hold at their later
words is therefore reported wherever it holds (`Rows.mem_occurrences`).
-/

namespace Ariel.Text

variable {words : List (List Char)} {word gap front text tail rest : List Char}

/-- A text is a row of words and the rest behind it. Each word is followed by a gap without ASCII
letters, which may be empty. -/
inductive Words : List (List Char) → List Char → List Char → Prop where
  | nil {rest : List Char} : Words [] rest rest
  | cons {words : List (List Char)} {word gap text rest : List Char} :
      word ≠ [] → (∀ c ∈ word, isWordCharacter c = true) → (∀ c ∈ gap, c.isAlpha = false) →
      Words words text rest → Words (word :: words) (word ++ (gap ++ text)) rest

/-- Where a word begins behind the beginning of another one, that word has ended. -/
theorem exists_behind_word (hword : ∀ c ∈ word, isWordCharacter c = true) (hne : front ≠ [])
    (hbegins : beginsWord front.getLast? = true) (hsplit : word ++ text = front ++ tail) :
    ∃ more, text = more ++ tail ∧ front = word ++ more := by
  rcases List.append_eq_append_iff.mp hsplit with ⟨more, rfl, rfl⟩ | ⟨more, rfl, rfl⟩
  · exact ⟨more, rfl, rfl⟩
  · -- The front ends within the word, and so with a word character.
    have hno := not_begins_word hne (fun c hc => hword c (List.mem_append_left _ hc)) []
    rw [List.nil_append, hbegins] at hno
    cases hno

/-- A letter does not stand in a gap. -/
theorem exists_behind_gap (hgap : ∀ c ∈ gap, c.isAlpha = false)
    (hletter : tail.head?.any Char.isAlpha = true) (hsplit : gap ++ text = front ++ tail) :
    ∃ more, text = more ++ tail ∧ front = gap ++ more := by
  rcases List.append_eq_append_iff.mp hsplit with ⟨more, rfl, rfl⟩ | ⟨more, rfl, rfl⟩
  · exact ⟨more, rfl, rfl⟩
  · cases more with
    | nil => exact ⟨[], rfl, by simp⟩
    | cons c more =>
        have hc : c.isAlpha = true := hletter
        rw [hgap c (by simp)] at hc
        cases hc

/-- A letter that begins a word behind the first word of a row stands behind the gap. -/
theorem exists_behind_first (hword : ∀ c ∈ word, isWordCharacter c = true)
    (hgap : ∀ c ∈ gap, c.isAlpha = false) (hne : front ≠ [])
    (hbegins : beginsWord front.getLast? = true) (hletter : tail.head?.any Char.isAlpha = true)
    (hsplit : word ++ (gap ++ text) = front ++ tail) :
    ∃ more, text = more ++ tail ∧ beginsWord more.getLast? = true := by
  obtain ⟨behind, hbehind, rfl⟩ := exists_behind_word hword hne hbegins hsplit
  obtain ⟨more, hmore, rfl⟩ := exists_behind_gap hgap hletter hbehind
  rw [← List.append_assoc] at hbegins
  exact ⟨more, hmore, begins_word_append hbegins⟩

/-- A letter that begins a word begins a word of the row, or stands behind the row. -/
theorem Words.split (h : Words words text rest) (hsplit : text = front ++ tail)
    (hbegins : beginsWord front.getLast? = true) (hletter : tail.head?.any Char.isAlpha = true) :
    tail.length ≤ rest.length ∨ ∃ word ∈ words, word <+: tail := by
  induction h generalizing front with
  | nil =>
      left
      rw [hsplit, List.length_append]
      exact Nat.le_add_left _ _
  | @cons words word gap text rest _ hword hgap _ ih =>
      by_cases hne : front = []
      · subst hne
        exact .inr ⟨word, List.mem_cons_self, gap ++ text, hsplit⟩
      · obtain ⟨more, hmore, hlater⟩ := exists_behind_first hword hgap hne hbegins hletter hsplit
        exact (ih hmore hlater).imp_right fun ⟨word, hmem, hprefix⟩ =>
          ⟨word, List.mem_cons_of_mem _ hmem, hprefix⟩

/-- A letter that begins a word behind the beginning of a row begins a later word of the row, or
stands behind the row. -/
theorem Words.split_behind (h : Words (word :: words) text rest) (hsplit : text = front ++ tail)
    (hne : front ≠ []) (hbegins : beginsWord front.getLast? = true)
    (hletter : tail.head?.any Char.isAlpha = true) :
    tail.length ≤ rest.length ∨ ∃ later ∈ words, later <+: tail := by
  cases h with
  | cons _ hword hgap hwords =>
      obtain ⟨more, hmore, hlater⟩ := exists_behind_first hword hgap hne hbegins hletter hsplit
      exact hwords.split hmore hlater hletter

section Pattern

variable {α : Type} {p : Pattern α} {value : α}

/-- A match of a pattern is a row of words, the first of which begins with a letter, and the pattern
holds at no later word of the row. -/
structure Row (p : Pattern α) (before : Option Char) (text rest : List Char)
    (word : List Char) (words : List (List Char)) : Prop where
  begins : beginsWord before = true
  letter : word.head?.any Char.isAlpha = true
  row : Words (word :: words) text rest
  apart : ∀ later ∈ words, ∀ before text, p before (later ++ text) = none

/-- Every match of a pattern is a row of words. -/
def Rows (p : Pattern α) : Prop :=
  ∀ {before text value rest}, p before text = some (value, rest) →
    ∃ word words, Row p before text rest word words

/-- The letter at the beginning of a row is the first character of its text. -/
theorem Row.letter_head {before : Option Char} (h : Row p before text rest word words) :
    text.head?.any Char.isAlpha = true := by
  obtain ⟨-, hletter, hrow, -⟩ := h
  cases hrow with
  | cons _ _ _ _ => exact any_head_append hletter

/-- A pattern of rows of words is reported wherever it holds. -/
theorem Rows.mem_occurrences (hrows : Rows p) (h : p front.getLast? tail = some (value, rest)) :
    ⟨byteLength front, value⟩ ∈ occurrences p (front ++ tail) := by
  obtain ⟨word, words, hrow⟩ := hrows h
  have hletter := hrow.letter_head
  have hne : tail ≠ [] := by
    rintro rfl
    cases hletter
  have hbegins : beginsWord front.getLast? = true := hrow.begins
  have hmem : (⟨0 + byteLength front, value⟩ : Occurrence α) ∈
      occurrencesFrom p none 0 0 (front ++ tail) := by
    refine mem_occurrences_from (Nat.zero_le _) hne (by rwa [Option.or_none]) ?_
    rintro start more rfl hmore ⟨found, left⟩ hfound
    rw [Option.or_none] at hfound
    obtain ⟨first, later, hearlier⟩ := hrows hfound
    -- No earlier match reaches into this one, for it would hold at a later word of its row.
    rcases hearlier.row.split_behind rfl hmore (begins_word_append hbegins) hletter with
      hle | ⟨name, hname, behind, rfl⟩
    · exact hle
    · rw [hearlier.apart name hname] at h
      cases h
  rwa [Nat.zero_add] at hmem

end Pattern

end Ariel.Text
