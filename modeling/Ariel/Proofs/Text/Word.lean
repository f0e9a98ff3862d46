import Ariel.Proofs.Text.Character
import Ariel.Proofs.Text.Pattern

/-!
# Words in any letter case

`anyCaseWord` finds a word in every written form of its letters. A text put together from texts
without the word is without it, too, when no word stands across the places where they meet
(`no_word_append`).
-/

namespace Ariel.Text

variable {letters word cs ds rest front : List Char} {keyword : String} {c : Char}

/-- A word spells letters, given as capitals, in any letter case. -/
abbrev Spells (letters word : List Char) : Prop :=
  List.Forall₂ (fun letter c => isLetter letter c = true) letters word

/-- What is recognised as a letter is a word character. -/
theorem is_word_character_of_letter {letter : Char} (hletter : letter.isAlpha = true)
    (h : isLetter letter c = true) : isWordCharacter c = true := by
  simp only [isLetter, Bool.or_eq_true, Bool.and_eq_true, beq_iff_eq] at h
  rcases h with (rfl | ⟨-, hkelvin⟩) | ⟨-, rfl⟩
  · rw [is_alpha_to_upper] at hletter
    exact is_word_character_of_alpha hletter
  · rw [← Char.ofNat_toNat c, hkelvin]
    decide +kernel
  · decide +kernel

/-- A word is spelled with word characters. -/
theorem Spells.word_characters (hletters : ∀ c ∈ letters, c.isAlpha = true)
    (h : Spells letters word) : ∀ c ∈ word, isWordCharacter c = true := by
  induction h with
  | nil => simp
  | cons hletter _ ih =>
      rw [List.forall_mem_cons] at hletters ⊢
      exact ⟨is_word_character_of_letter hletters.1 hletter, ih hletters.2⟩

/-- A word is spelled with as many characters as it has letters. -/
theorem Spells.ne_nil (hne : letters ≠ []) (h : Spells letters word) : word ≠ [] := by
  rintro rfl
  cases h
  exact hne rfl

/-- A word has no blank at its front. -/
theorem Spells.head (hne : letters ≠ []) (hletters : ∀ c ∈ letters, c.isAlpha = true)
    (h : Spells letters word) : ∀ c ∈ (word ++ rest).head?, isBlank c = false :=
  head_of_run (h.ne_nil hne) fun c hc =>
    is_blank_of_word_character (h.word_characters hletters c hc)

/-- A word with neither a K nor a long s is spelled in ASCII letters. -/
theorem Spells.capitals_eq (hletters : 'K' ∉ letters) (hword : 'ſ' ∉ word)
    (h : Spells letters word) : capitals word = letters := by
  induction h with
  | nil => rfl
  | @cons letter c _ _ hletter _ ih =>
      simp only [List.mem_cons, not_or] at hletters hword
      simp only [isLetter, Bool.or_eq_true, Bool.and_eq_true, beq_iff_eq] at hletter
      rcases hletter with (hupper | ⟨hk, -⟩) | ⟨-, hs⟩
      · exact List.cons_eq_cons.mpr ⟨hupper, ih hletters.2 hword.2⟩
      · exact absurd hk.symm hletters.1
      · exact absurd hs.symm hword.1

/-- Take a word, given in capitals, in any letter case, when a word can end behind it. -/
def anyCaseWord? (letters : List Char) (cs : List Char) : Option (List Char) := do
  let rest ← anyCase? letters cs
  guard (endsWord rest)
  pure rest

/-- A word, given in capitals, in any letter case. -/
def anyCaseWord (keyword : String) : Pattern Unit := fun before cs => do
  guard (beginsWord before)
  pure ((), ← anyCaseWord? keyword.toList cs)

/-- A word is taken where it is spelled and can end. -/
theorem any_case_word_eq_some_iff : anyCaseWord? letters cs = some rest ↔
    ∃ word, cs = word ++ rest ∧ Spells letters word ∧ endsWord rest = true := by
  simp only [anyCaseWord?, bind, Option.bind_eq_some_iff, any_case_eq_some_iff, guard_eq_some_iff,
    pure, Option.some.injEq]
  constructor
  · rintro ⟨_, ⟨word, hword, rfl⟩, -, hends, rfl⟩
    exact ⟨word, rfl, hword, hends⟩
  · rintro ⟨word, rfl, hword, hends⟩
    exact ⟨rest, ⟨word, hword, rfl⟩, (), hends, rfl⟩

/-- A text is without a word in any letter case. -/
def NoWord (keyword : String) (cs : List Char) : Prop :=
  ∀ front tail, cs = front ++ tail → beginsWord front.getLast? = true → tail ≠ [] →
    anyCaseWord? keyword.toList tail = none

/-- A text is without a word where the word does not occur. -/
theorem no_word_iff : NoWord keyword cs ↔ occurs (anyCaseWord keyword) cs = false := by
  rw [occurs, Bool.not_eq_false', List.isEmpty_iff, occurrences_eq_nil_iff]
  constructor
  · rintro h front tail u hsplit ⟨hne, rest, hmatch⟩
    simp only [anyCaseWord, bind, Option.bind_eq_some_iff, guard_eq_some_iff] at hmatch
    obtain ⟨-, hbegins, left, hword, -⟩ := hmatch
    rw [h front tail hsplit hbegins hne] at hword
    cases hword
  · intro h front tail hsplit hbegins hne
    cases hword : anyCaseWord? keyword.toList tail with
    | none => rfl
    | some rest =>
        refine absurd ⟨hne, rest, ?_⟩ (h front tail () hsplit)
        simp [anyCaseWord, hbegins, hword, guard, bind, pure]

/-- A keyword is a word made of letters. -/
structure LetterWord (keyword : String) : Prop where
  ne_nil : keyword.toList ≠ []
  letters : ∀ c ∈ keyword.toList, c.isAlpha = true

instance : Decidable (LetterWord keyword) :=
  decidable_of_iff (keyword.toList ≠ [] ∧ keyword.toList.all Char.isAlpha = true)
    ⟨fun h => ⟨h.1, List.all_eq_true.mp h.2⟩, fun h => ⟨h.ne_nil, List.all_eq_true.mpr h.letters⟩⟩

/-- Between two texts no word goes on. -/
def Parted (cs ds : List Char) : Prop :=
  (∀ c ∈ cs.getLast?, isWordCharacter c = false) ∨ ∀ c ∈ ds.head?, isWordCharacter c = false

/-- Between the end of a text and the text behind it no word goes on, either. -/
theorem Parted.of_append (h : Parted (front ++ cs) ds) (hne : cs ≠ []) : Parted cs ds :=
  h.imp_left fun hlast c hc => hlast c (by rwa [List.getLast?_append_of_ne_nil _ hne])

/-- A word that begins in the first of two parted texts stands in it. -/
theorem any_case_word_append (hkeyword : LetterWord keyword) (hparted : Parted cs ds)
    (hne : cs ≠ []) (h : anyCaseWord? keyword.toList (cs ++ ds) = some rest) :
    ∃ left, anyCaseWord? keyword.toList cs = some left := by
  obtain ⟨word, hsplit, hword, hends⟩ := any_case_word_eq_some_iff.mp h
  have hletters := hword.word_characters hkeyword.letters
  rcases List.append_eq_append_iff.mp hsplit with ⟨more, rfl, hrest⟩ | ⟨more, rfl, rfl⟩
  · cases more with
    | nil =>
        rw [List.append_nil] at hword
        exact ⟨[], any_case_word_eq_some_iff.mpr ⟨cs, by simp, hword, rfl⟩⟩
    | cons d more =>
        -- The word would go on behind the first text.
        rcases hparted with hlast | hhead
        · have hcs := hletters (cs.getLast hne) (List.mem_append_left _ (List.getLast_mem hne))
          rw [hlast _ (List.getLast?_eq_some_getLast hne)] at hcs
          cases hcs
        · have hd := hletters d (by simp)
          rw [hhead d (by rw [hrest]; rfl)] at hd
          cases hd
  · refine ⟨more, any_case_word_eq_some_iff.mpr ⟨word, rfl, hword, ?_⟩⟩
    cases more with
    | nil => rfl
    | cons d more => exact hends

/-- A word begins at the end of a text in two parts where one begins at the end of the second. -/
theorem begins_word_append (h : beginsWord (front ++ cs).getLast? = true) :
    beginsWord cs.getLast? = true := by
  rcases List.eq_nil_or_concat' cs with rfl | ⟨init, d, rfl⟩
  · rfl
  · rw [← List.append_assoc, List.getLast?_concat] at h
    rwa [List.getLast?_concat]

/-- Where a text ends with word characters, no word begins behind it. -/
theorem not_begins_word (hne : cs ≠ []) (hcs : ∀ c ∈ cs, isWordCharacter c = true)
    (front : List Char) : beginsWord (front ++ cs).getLast? = false := by
  rw [List.getLast?_append_of_ne_nil _ hne, List.getLast?_eq_some_getLast hne]
  simp [beginsWord, hcs _ (List.getLast_mem hne)]

/-- Parted texts without a word are without it together. -/
theorem no_word_append (hkeyword : LetterWord keyword) (hparted : Parted cs ds)
    (hcs : NoWord keyword cs) (hds : NoWord keyword ds) : NoWord keyword (cs ++ ds) := by
  intro front tail hsplit hbegins hne
  rcases List.append_eq_append_iff.mp hsplit with ⟨more, rfl, hrest⟩ | ⟨more, rfl, rfl⟩
  · exact hds more tail hrest (begins_word_append hbegins) hne
  · cases more with
    | nil => exact hds [] ds rfl rfl (by simpa using hne)
    | cons c more =>
        cases hword : anyCaseWord? keyword.toList (c :: more ++ ds) with
        | none => rfl
        | some rest =>
            have hlater : Parted (c :: more) ds := hparted.of_append (by simp)
            obtain ⟨left, hleft⟩ := any_case_word_append hkeyword hlater (by simp) hword
            rw [hcs front (c :: more) rfl hbegins (by simp)] at hleft
            cases hleft

/-- A text without letters is without words. -/
theorem no_word_of_digits (hkeyword : LetterWord keyword) (h : ∀ c ∈ cs, c.isDigit = true) :
    NoWord keyword cs := by
  rintro front tail rfl - -
  cases hword : anyCaseWord? keyword.toList tail with
  | none => rfl
  | some rest =>
      obtain ⟨word, rfl, hspells, -⟩ := any_case_word_eq_some_iff.mp hword
      cases hletters : keyword.toList with
      | nil => exact absurd hletters hkeyword.ne_nil
      | cons letter letters =>
          rw [hletters] at hspells
          cases hspells with
          | @cons _ c _ more hletter _ =>
              have hdigit : c.isDigit = true := h c (by simp)
              have halpha := hkeyword.letters letter (by rw [hletters]; simp)
              rw [is_digit_iff] at hdigit
              simp only [isLetter, Bool.or_eq_true, Bool.and_eq_true, beq_iff_eq] at hletter
              rcases hletter with (rfl | ⟨-, hkelvin⟩) | ⟨-, rfl⟩
              · rw [is_alpha_to_upper, is_alpha_of_digit (is_digit_iff.mpr hdigit)] at halpha
                cases halpha
              · omega
              · exact absurd (is_digit_iff.mpr hdigit) (by decide)

end Ariel.Text
