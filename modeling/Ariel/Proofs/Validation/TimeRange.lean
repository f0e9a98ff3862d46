import Ariel.Proofs.Text.Phrase
import Ariel.Proofs.Text.Report
import Ariel.Proofs.Validation.Keyword
import Ariel.Proofs.Validation.Pattern

/-!
# Time ranges of a query

The validation recognises a time range by LAST with a number and a word, or by START.
`time_range_eq_some_iff` says what it takes. As that holds neither quotes nor semicolons, they part
the time ranges of a text (`seam_of_walled`); and a LAST and a number at the end of a text may take
the first word of a clause behind it, which is counted no less (`loose_seam_of_clause`).
-/

namespace Ariel.Validation

open Ariel.Text

variable {cs rest taken front tail gap word : List Char} {before : Option Char} {u : Unit}
  {c : Char}

/-- A time range as the validation recognises it. -/
def timeRange : Pattern Unit := fun before cs =>
  ((lastClause before cs).map fun found => ((), found.2)).or (wholeWord "START" before cs)

/-- The number of time ranges that the validation recognises in a query. -/
def timeRanges (query : String) : Nat :=
  (occurrences timeRange (mask query.toList)).length

/-- What is recognised as a time range is LAST with a number and a word, or START. -/
inductive IsRange : List Char → Prop where
  | last {word gap amount between unit : List Char} :
      capitals word = "LAST".toList → gap ≠ [] → (∀ c ∈ gap, isBlank c = true) →
      amount ≠ [] → (∀ c ∈ amount, isDecimalDigit c = true) →
      between ≠ [] → (∀ c ∈ between, isBlank c = true) →
      unit ≠ [] → (∀ c ∈ unit, c.isAlpha = true) →
      IsRange (word ++ ((gap ++ (amount ++ between)) ++ unit))
  | start {word : List Char} : capitals word = "START".toList → IsRange word

/-- The marks that part time ranges. -/
def walls : List Char := ['\'', ';']

theorem letter_word_last : LetterWord "LAST" := by decide

theorem letter_word_start : LetterWord "START" := by decide

section Text

/-- A time range is recognised where it stands between the ends of words. -/
theorem time_range_eq_some_iff : timeRange before cs = some (u, rest) ↔
    beginsWord before = true ∧ endsWord rest = true ∧
      ∃ taken, cs = taken ++ rest ∧ IsRange taken := by
  constructor
  · intro h
    rcases Option.or_eq_some_iff.mp h with hlast | ⟨-, hstart⟩
    · obtain ⟨⟨found, left⟩, hfound, heq⟩ := Option.map_eq_some_iff.mp hlast
      cases heq
      obtain ⟨hbegins, word, gap, between, htext⟩ := last_clause_text hfound
      refine ⟨hbegins, htext.ends, _, ?_, .last htext.keyword htext.gap_ne_nil htext.gap_blank
        htext.amount_ne_nil htext.amount_digits htext.between_ne_nil htext.between_blank
        htext.unit_ne_nil htext.unit_letters⟩
      simpa using htext.split
    · obtain ⟨hbegins, hends, word, rfl, hword⟩ := whole_word_eq_some_iff.mp hstart
      exact ⟨hbegins, hends, word, rfl, .start hword⟩
  · rintro ⟨hbegins, hends, taken, rfl, hrange⟩
    cases hrange with
    | @last word gap amount between unit hword hgap hblank hamount hdigits hbetween hblank' hunit
        hletters =>
        have htext : LastClauseText (word ++ ((gap ++ (amount ++ between)) ++ unit) ++ rest)
            ⟨byteLength (word ++ gap), amount,
              byteLength (word ++ (gap ++ (amount ++ between))), unit⟩ rest word gap between :=
          ⟨by simp, hword, hgap, hblank, hamount, hdigits, hbetween, hblank', hunit, hletters,
            hends, rfl, rfl⟩
        rw [timeRange, htext.taken hbegins]
        rfl
    | start hword =>
        have hstart : wholeWord "START" before (taken ++ rest) = some (u, rest) :=
          whole_word_eq_some_iff.mpr ⟨hbegins, hends, taken, rfl, hword⟩
        have hnone : lastClause before (taken ++ rest) = none := by
          refine Option.eq_none_iff_forall_ne_some.mpr fun (found, left) hfound => ?_
          obtain ⟨-, word, gap, between, htext⟩ := last_clause_text hfound
          have hhead := head_of_keyword letter_word_start hword rest
          rw [htext.split, head_of_keyword letter_word_last htext.keyword] at hhead
          cases hhead
        rw [timeRange, hnone, hstart]
        rfl

/-- A time range begins with the letter of its keyword. -/
theorem IsRange.head (h : IsRange taken) (rest : List Char) :
    (taken ++ rest).head?.map Char.toUpper = some 'L' ∨
      (taken ++ rest).head?.map Char.toUpper = some 'S' := by
  cases h with
  | last hword =>
      rw [List.append_assoc]
      exact .inl (head_of_keyword letter_word_last hword _)
  | start hword => exact .inr (head_of_keyword letter_word_start hword _)

/-- A time range ends with a letter. -/
theorem IsRange.ends_in_letter (h : IsRange taken) : ∃ c ∈ taken.getLast?, c.isAlpha = true := by
  have hlast : ∀ {cs : List Char}, cs ≠ [] → (∀ c ∈ cs, c.isAlpha = true) →
      ∃ c ∈ cs.getLast?, c.isAlpha = true := fun hne hletters =>
    ⟨_, List.getLast?_eq_some_getLast hne, hletters _ (List.getLast_mem hne)⟩
  cases h with
  | last _ _ _ _ _ _ _ hunit hletters =>
      obtain ⟨c, hc, halpha⟩ := hlast hunit hletters
      refine ⟨c, ?_, halpha⟩
      rw [List.getLast?_append_of_ne_nil _ (by simp [hunit]),
        List.getLast?_append_of_ne_nil _ hunit]
      exact hc
  | start hword =>
      obtain ⟨hne, hletters⟩ := is_alpha_of_keyword letter_word_start hword
      exact hlast hne hletters

/-- No word begins behind a time range. -/
theorem IsRange.not_begins_word (h : IsRange taken) : beginsWord taken.getLast? = false := by
  obtain ⟨c, hc, halpha⟩ := h.ends_in_letter
  rw [Option.mem_def.mp hc]
  simp [beginsWord, is_word_character_of_alpha halpha]

/-- No letter stands between LAST and the word of a time range. -/
theorem no_letter_around_amount {amount between : List Char} (hgap : ∀ c ∈ gap, isBlank c = true)
    (hamount : ∀ c ∈ amount, isDecimalDigit c = true)
    (hbetween : ∀ c ∈ between, isBlank c = true) :
    ∀ c ∈ gap ++ (amount ++ between), c.isAlpha = false := by
  simp only [List.mem_append]
  rintro c (hc | hc | hc)
  · exact is_alpha_of_blank (hgap c hc)
  · exact is_alpha_of_decimal_digit (hamount c hc)
  · exact is_alpha_of_blank (hbetween c hc)

/-- No wall stands in a time range. -/
theorem IsRange.no_wall (h : IsRange taken) (hc : c ∈ walls) : c ∉ taken := by
  have hall : walls.all (fun c => !c.isAlpha && !isBlank c && !isDecimalDigit c) = true := by decide
  have hother : (c.isAlpha = false ∧ isBlank c = false) ∧ isDecimalDigit c = false := by
    simpa using List.all_eq_true.mp hall c hc
  obtain ⟨⟨halpha, hblank⟩, hdigit⟩ := hother
  have hword : ∀ {keyword : String} {word : List Char}, LetterWord keyword →
      capitals word = keyword.toList → c ∉ word := by
    intro keyword word hkeyword hword hmem
    rw [(is_alpha_of_keyword hkeyword hword).2 c hmem] at halpha
    cases halpha
  cases h with
  | last hlast _ hgap _ hamount _ hbetween _ hunit =>
      simp only [List.mem_append, not_or]
      exact ⟨hword letter_word_last hlast, ⟨fun hmem => by simp [hgap c hmem] at hblank,
        fun hmem => by simp [hamount c hmem] at hdigit,
        fun hmem => by simp [hbetween c hmem] at hblank⟩,
        fun hmem => by simp [hunit c hmem] at halpha⟩
  | start hstart => exact hword letter_word_start hstart

/-- A time range begins with one of two letters, at the beginning of a word. -/
theorem time_range_eq_none (h : beginsWord before = false ∨
      ∀ c ∈ cs.head?, c.toUpper ≠ 'L' ∧ c.toUpper ≠ 'S') : timeRange before cs = none := by
  refine Option.eq_none_iff_forall_ne_some.mpr fun (u, left) hfound => ?_
  obtain ⟨hbegins, -, taken, rfl, hrange⟩ := time_range_eq_some_iff.mp hfound
  rcases h with hno | hhead
  · rw [hbegins] at hno
    cases hno
  · rcases hrange.head left with hletter | hletter
    · obtain ⟨c, hc, heq⟩ := Option.map_eq_some_iff.mp hletter
      exact (hhead c hc).1 heq
    · obtain ⟨c, hc, heq⟩ := Option.map_eq_some_iff.mp hletter
      exact (hhead c hc).2 heq

end Text

section Reports

variable {before' : Option Char}

/-- No time range begins with another character than a letter. -/
theorem no_range_of_not_alpha (h : c.isAlpha = false) : c.toUpper ≠ 'L' ∧ c.toUpper ≠ 'S' := by
  rw [← is_alpha_to_upper] at h
  constructor <;> (intro hc; rw [hc] at h; cases h)

/-- Of the character in front, it only matters whether a word can begin behind it. -/
theorem reports_congr (h : beginsWord before = beginsWord before') :
    reports timeRange before cs = reports timeRange before' cs := by
  cases cs with
  | nil => rfl
  | cons c cs =>
      have hhere : timeRange before (c :: cs) = timeRange before' (c :: cs) := by
        refine Option.ext fun (u, rest) => ?_
        rw [time_range_eq_some_iff, time_range_eq_some_iff, h]
      rw [reports, reports, occurrencesFrom, occurrencesFrom, hhere]

/-- Of the character in front, nothing matters when none of a word follows. -/
theorem reports_of_head (h : ∀ c ∈ cs.head?, isWordCharacter c = false) :
    reports timeRange before cs = reports timeRange before' cs := by
  cases cs with
  | nil => rfl
  | cons c cs =>
      have hc : c.isAlpha = false := by
        refine Bool.eq_false_iff.mpr fun halpha => ?_
        have hword := is_word_character_of_alpha halpha
        rw [h c rfl] at hword
        cases hword
      have hnone : ∀ before, timeRange before (c :: cs) = none := fun before =>
        time_range_eq_none (.inr (by simpa using no_range_of_not_alpha hc))
      rw [reports, reports, occurrencesFrom, occurrencesFrom, hnone, hnone]

/-- No time range begins in a text without letters. -/
theorem reports_behind_plain (h : ∀ c ∈ front, c.isAlpha = false) :
    reports timeRange before (front ++ tail) =
      reports timeRange (front.getLast?.or before) tail := by
  refine reports_behind fun start rest hsplit hne => time_range_eq_none (.inr fun c hc => ?_)
  rw [List.head?_append_of_ne_nil _ hne] at hc
  exact no_range_of_not_alpha (h c (by simp [hsplit, List.mem_of_mem_head? hc]))

/-- No time range stands in a text without letters. -/
theorem reports_of_plain (h : ∀ c ∈ cs, c.isAlpha = false) : reports timeRange before cs = [] := by
  rw [← List.append_nil cs, reports_behind_plain h, reports_nil]

/-- No time range begins within a word, when none begins where it does. -/
theorem reports_behind_word (h : ∀ c ∈ front, c.isAlpha = true)
    (hhere : timeRange before (front ++ tail) = none) :
    reports timeRange before (front ++ tail) =
      reports timeRange (front.getLast?.or before) tail := by
  refine reports_behind fun start rest hsplit hne => ?_
  by_cases hstart : start = []
  · subst hstart
    rw [hsplit] at hhere
    exact hhere
  · have hno : beginsWord ([] ++ start).getLast? = false := by
      refine not_begins_word hstart (fun c hc => is_word_character_of_alpha (h c ?_)) []
      rw [hsplit]
      exact List.mem_append_left _ hc
    rw [List.nil_append, List.getLast?_eq_some_getLast hstart] at hno
    rw [List.getLast?_eq_some_getLast hstart, Option.some_or]
    exact time_range_eq_none (.inl hno)

end Reports

section Seam

/-- Where no time range reaches into the tail, the same one is found with the tail. -/
theorem time_range_append (hends : endsWord tail = true ∨ ¬ IsRange cs)
    (hinside : ∀ more left, tail = more ++ left → more ≠ [] → ¬ IsRange (cs ++ more)) :
    timeRange before (cs ++ tail) =
      (timeRange before cs).map fun found => (found.1, found.2 ++ tail) := by
  have hboundary : ∀ {taken more : List Char}, cs = taken ++ more → IsRange taken →
      endsWord (more ++ tail) = endsWord more := by
    rintro taken (- | ⟨c, more⟩) rfl hrange
    · rw [List.append_nil] at hends
      exact hends.resolve_right fun hno => hno hrange
    · rfl
  refine Option.ext fun (u, rest) => ?_
  rw [Option.map_eq_some_iff, time_range_eq_some_iff]
  constructor
  · rintro ⟨hbegins, hend, taken, hsplit, hrange⟩
    rcases List.append_eq_append_iff.mp hsplit with ⟨more, rfl, htail⟩ | ⟨more, rfl, rfl⟩
    · cases more with
      | nil =>
          rw [List.append_nil] at hrange
          refine ⟨((), []), time_range_eq_some_iff.mpr ⟨hbegins, rfl, cs, by simp, hrange⟩, ?_⟩
          simpa using htail
      | cons c more => exact absurd hrange (hinside _ _ htail (by simp))
    · rw [hboundary rfl hrange] at hend
      exact ⟨((), more), time_range_eq_some_iff.mpr ⟨hbegins, hend, taken, rfl, hrange⟩, rfl⟩
  · rintro ⟨⟨_, more⟩, hfound, heq⟩
    cases heq
    obtain ⟨hbegins, hend, taken, rfl, hrange⟩ := time_range_eq_some_iff.mp hfound
    exact ⟨hbegins, (hboundary rfl hrange).trans hend, taken, by simp, hrange⟩

/-- Behind its last wall, a text holds blanks only, and without walls it holds nothing else. -/
def Walled (front : List Char) : Prop :=
  ∃ init gap, front = init ++ gap ∧ (∀ c ∈ gap, isBlank c = true) ∧
    (init = [] ∨ ∃ c ∈ init.getLast?, c ∈ walls)

/-- A text with a wall at its end is walled. -/
theorem walled_of_last (hlast : front.getLast? = some c) (hc : c ∈ walls) : Walled front :=
  ⟨front, [], by simp, by simp, .inr ⟨c, hlast, hc⟩⟩

/-- No time range begins in a walled text and goes on behind it. -/
theorem Walled.not_is_range (h : Walled front) (hsplit : front = cs ++ rest) (hne : rest ≠ [])
    (more : List Char) : ¬ IsRange (rest ++ more) := by
  obtain ⟨init, gap, hfront, hgap, hinit⟩ := h
  have hblank : (∀ c ∈ rest, isBlank c = true) → ¬ IsRange (rest ++ more) := by
    intro hrest hrange
    obtain ⟨c, rest, rfl⟩ := List.exists_cons_of_ne_nil hne
    have hc := is_alpha_of_blank (hrest c List.mem_cons_self)
    rw [← is_alpha_to_upper] at hc
    have hhead := hrange.head []
    rcases hhead with hletter | hletter <;>
      · obtain hletter : c.toUpper = _ := by simpa using hletter
        rw [hletter] at hc
        cases hc
  rcases List.append_eq_append_iff.mp (hfront.symm.trans hsplit) with
    ⟨middle, rfl, rfl⟩ | ⟨middle, rfl, rfl⟩
  · exact hblank fun c hc => hgap c (List.mem_append_right _ hc)
  · by_cases hmiddle : middle = []
    · subst hmiddle
      exact hblank (by simpa using hgap)
    · rcases hinit with hnil | ⟨c, hc, hwall⟩
      · exact absurd (List.append_eq_nil_iff.mp hnil).2 hmiddle
      · rw [List.getLast?_append_of_ne_nil _ hmiddle] at hc
        exact fun hrange => hrange.no_wall hwall (by simp [List.mem_of_getLast? hc])

/-- Nothing is found across the end of a walled text. -/
theorem seam_of_walled (h : Walled front) : Seam timeRange before front tail := by
  intro start rest hsplit hne
  refine time_range_append (.inr ?_) fun more _ _ _ => h.not_is_range hsplit hne more
  have hrest := h.not_is_range hsplit hne []
  rwa [List.append_nil] at hrest

/-- Nothing is found across a wall. -/
theorem seam_of_wall (hc : c ∈ walls) : Seam timeRange before front (c :: tail) := by
  intro start rest _ _
  have hall : walls.all (!isWordCharacter ·) = true := by decide
  have hplain : isWordCharacter c = false := by simpa using List.all_eq_true.mp hall c hc
  refine time_range_append (.inl ?_) fun more left hsplit hne hrange => ?_
  · simp [endsWord, hplain]
  · obtain ⟨d, more, rfl⟩ := List.exists_cons_of_ne_nil hne
    obtain ⟨rfl, -⟩ := List.cons.inj hsplit
    exact hrange.no_wall hc (by simp)

/-- Blanks at the end of a text make no difference. -/
theorem seam_of_blanks (hgap : ∀ c ∈ gap, isBlank c = true) :
    Seam timeRange before front gap := by
  intro start rest _ _
  refine time_range_append (.inl ?_) fun more left hsplit hne hrange => ?_
  · cases gap with
    | nil => rfl
    | cons c gap =>
        rw [← List.append_nil (c :: gap)]
        exact ends_word_of_blanks (by simp) hgap
  · obtain ⟨c, hc, halpha⟩ := hrange.ends_in_letter
    rw [List.getLast?_append_of_ne_nil _ hne] at hc
    have hblank := hgap c (by rw [hsplit]; exact List.mem_append_left _ (List.mem_of_getLast? hc))
    rw [is_alpha_of_blank hblank] at halpha
    cases halpha

end Seam

section Loose

/-- A time range takes five characters at least. -/
theorem IsRange.five_le (h : IsRange taken) : 5 ≤ taken.length := by
  cases h with
  | last hword hgap _ _ _ _ _ _ _ =>
      have hlength := congrArg List.length hword
      rw [length_capitals] at hlength
      have hpos := List.length_pos_iff.mpr hgap
      simp only [List.length_append]
      have : "LAST".toList.length = 4 := rfl
      omega
  | start hword =>
      have hlength := congrArg List.length hword
      rw [length_capitals] at hlength
      exact hlength.ge

/-- A time range that ends behind a gap in a text begins there with LAST and a number. -/
theorem exists_last_of_is_range {more : List Char} (hne : cs ≠ [])
    (hlast : beginsWord cs.getLast? = true) (hletter : more.head?.any Char.isAlpha = true)
    (h : IsRange (cs ++ more)) :
    ∃ word gap, cs = word ++ gap ∧ capitals word = "LAST".toList ∧
      (∀ c ∈ gap, c.isAlpha = false) ∧
      ∀ unit : List Char, unit ≠ [] → (∀ c ∈ unit, c.isAlpha = true) → IsRange (cs ++ unit) := by
  -- The text does not end within a word of letters, for it ends with no word character.
  have hinner : ∀ front {within letters rest : List Char}, within ≠ [] → letters = within ++ rest →
      (∀ c ∈ letters, c.isAlpha = true) → ¬ beginsWord (front ++ within).getLast? = true := by
    rintro front within _ rest hne rfl hletters
    rw [not_begins_word hne (fun c hc =>
      is_word_character_of_alpha (hletters c (List.mem_append_left _ hc))) front]
    exact Bool.false_ne_true
  generalize htaken : cs ++ more = taken at h
  cases h with
  | @last word gap amount between unit hword hgap hblank hamount hdigits hbetween hblank' hunit
      hletters =>
      obtain ⟨-, hwordLetters⟩ := is_alpha_of_keyword letter_word_last hword
      have hgaps := no_letter_around_amount hblank hdigits hblank'
      obtain ⟨behind, hbehind, rfl⟩ := exists_behind_word
        (fun c hc => is_word_character_of_alpha (hwordLetters c hc)) hne hlast htaken.symm
      obtain ⟨within, hwithin, rfl⟩ := exists_behind_gap hgaps hletter hbehind
      obtain rfl : within = [] := by
        by_contra hsome
        rw [← List.append_assoc] at hlast
        exact hinner (word ++ (gap ++ (amount ++ between))) hsome hwithin hletters hlast
      refine ⟨word, gap ++ (amount ++ between), by simp, hword, hgaps, fun unit hne hunit => ?_⟩
      rw [List.append_nil, List.append_assoc]
      exact .last hword hgap hblank hamount hdigits hbetween hblank' hne hunit
  | start hword =>
      obtain ⟨-, hletters⟩ := is_alpha_of_keyword letter_word_start hword
      exact absurd hlast (hinner [] hne htaken.symm hletters)

/-- No time range is found in LAST and a text without letters behind it. -/
theorem reports_last_gap (hword : capitals word = "LAST".toList)
    (hgap : ∀ c ∈ gap, c.isAlpha = false) : reports timeRange before (word ++ gap) = [] := by
  have hlength : word.length = 4 := by rw [← length_capitals, hword]; rfl
  obtain ⟨-, hletters⟩ := is_alpha_of_keyword letter_word_last hword
  refine reports_free fun start rest hsplit hne => ?_
  rw [List.append_nil]
  refine Option.eq_none_iff_forall_ne_some.mpr fun (u, left) hfound => ?_
  obtain ⟨hbegins, -, taken, rfl, hrange⟩ := time_range_eq_some_iff.mp hfound
  obtain ⟨c, hc, halpha⟩ := hrange.ends_in_letter
  -- The last letter of what is found would stand in the gap.
  suffices hmem : c ∈ gap by
    rw [hgap c hmem] at halpha
    cases halpha
  by_cases hstart : start = []
  · subst hstart
    have hfive := hrange.five_le
    obtain ⟨more, rfl⟩ : word <+: taken :=
      List.prefix_of_prefix_length_le ⟨gap, rfl⟩ ⟨left, hsplit.symm⟩ (by omega)
    have hsome : more ≠ [] := by
      rintro rfl
      rw [List.append_nil] at hfive
      omega
    obtain rfl : gap = more ++ left := by simpa using hsplit
    rw [List.getLast?_append_of_ne_nil _ hsome] at hc
    exact List.mem_append_left _ (List.mem_of_getLast? hc)
  · have hbefore : beginsWord start.getLast? = true := by
      rwa [List.getLast?_eq_some_getLast hstart, Option.some_or,
        ← List.getLast?_eq_some_getLast hstart] at hbegins
    obtain ⟨more, rfl, -⟩ := exists_behind_word
      (fun c hc => is_word_character_of_alpha (hletters c hc)) hstart hbefore hsplit
    simp [List.mem_of_getLast? hc]

/-- A clause that begins with a word is counted as one behind a text that ends with no word
character, even where LAST and a number at the end of the text take its first word. -/
theorem loose_seam_of_clause (hfront : beginsWord front.getLast? = true) (hne : word ≠ [])
    (hword : ∀ c ∈ word, c.isAlpha = true) (hends : endsWord tail = true)
    (hcount : (reports timeRange (front.getLast?.or before) (word ++ tail)).length =
      (reports timeRange word.getLast? tail).length + 1) :
    LooseSeam timeRange before front (word ++ tail) := by
  intro start rest hsplit hrest
  have hlast : rest.getLast? = front.getLast? := by
    rw [hsplit, List.getLast?_append_of_ne_nil _ hrest]
  rw [← hlast] at hfront hcount
  have hwhole : ¬ IsRange rest := by
    intro hrange
    rw [hrange.not_begins_word] at hfront
    cases hfront
  by_cases hcross : ∃ more left, word ++ tail = more ++ left ∧ more ≠ [] ∧ IsRange (rest ++ more)
  · obtain ⟨more, left, htail, hmore, hrange⟩ := hcross
    have hletter : more.head?.any Char.isAlpha = true := by
      have hhead := congrArg List.head? htail
      rw [List.head?_append_of_ne_nil _ hne, List.head?_append_of_ne_nil _ hmore] at hhead
      rw [← hhead, List.head?_eq_some_head hne]
      exact hword _ (List.head_mem hne)
    obtain ⟨name, gap, rfl, hname, hgap, hunits⟩ :=
      exists_last_of_is_range hrest hfront hletter hrange
    cases hbegins : beginsWord (start.getLast?.or before) with
    | false =>
        left
        rw [time_range_eq_none (.inl hbegins), time_range_eq_none (.inl hbegins)]
        rfl
    | true =>
        refine .inr ⟨(), word, tail, rfl, hne, ?_, reports_last_gap hname hgap, ?_⟩
        · exact time_range_eq_some_iff.mpr
            ⟨hbegins, hends, name ++ gap ++ word, by simp, hunits word hne hword⟩
        · have hsome : (name ++ gap).getLast?.or (start.getLast?.or before) =
              (name ++ gap).getLast?.or before := by
            rw [List.getLast?_eq_some_getLast hrest]
            rfl
          rw [hsome, hcount]
  · refine .inl (time_range_append (.inr hwhole) fun more left htail hmore hrange => ?_)
    exact hcross ⟨more, left, htail, hmore, hrange⟩

/-- What the validation sees of a time clause in front of a tail: a word and a part behind it. It is
one time range behind which only those of the tail follow, and so they do behind its first word. -/
structure Recognised (shown tail word behind : List Char) : Prop where
  split : shown = word ++ behind
  ne_nil : word ≠ []
  letters : ∀ c ∈ word, c.isAlpha = true
  ends : endsWord (behind ++ tail) = true
  one : ∀ before, beginsWord before = true →
    (reports timeRange before (shown ++ tail)).length = (reports timeRange none tail).length + 1
  none_behind : reports timeRange word.getLast? (behind ++ tail) = reports timeRange none tail

/-- A recognised clause adds one time range to those in front of it and behind it. -/
theorem Recognised.length_reports {shown behind : List Char}
    (h : Recognised shown tail word behind) (hfront : beginsWord front.getLast? = true) :
    (reports timeRange none (front ++ (shown ++ tail))).length =
      (reports timeRange none front).length + ((reports timeRange none tail).length + 1) := by
  have hone := h.one (front.getLast?.or none) (by rwa [Option.or_none])
  have hsplit : shown ++ tail = word ++ (behind ++ tail) := by rw [h.split, List.append_assoc]
  rw [hsplit] at hone ⊢
  have hcount : (reports timeRange (front.getLast?.or none) (word ++ (behind ++ tail))).length =
      (reports timeRange word.getLast? (behind ++ tail)).length + 1 := by
    rw [hone, h.none_behind]
  rw [length_reports_append (loose_seam_of_clause hfront h.ne_nil h.letters h.ends hcount), hone]

end Loose

end Ariel.Validation
