import Ariel.Proofs.Template.Replacement
import Ariel.Proofs.Text.Word
import Ariel.Template.TimeRange

/-!
# Time clauses in written queries

`relative_clause_eq_some_iff` and `keyword_literal_eq_some_iff` say what a time clause in a written
query is made of. A relative clause holds no mark, and an absolute one ends with a quote: so a mark
with no quote behind it separates the time clauses of a query (`seam_time_clause`).
-/

namespace Ariel.Template

open Ariel.Text

variable {cs rest taken word gap front back : List Char} {keyword : String}
  {before : Option Char} {u : Unit} {c : Char}

/-- Blanks between two parts of a clause. -/
structure Between (gap : List Char) : Prop where
  ne_nil : gap ≠ []
  blank : ∀ c ∈ gap, isBlank c = true

/-- A single space is enough. -/
theorem between_space : Between [' '] :=
  ⟨List.cons_ne_nil _ _, List.forall_mem_singleton.mpr (by decide)⟩

/-- The keywords with which a written clause begins. -/
def rangeKeywords : List String := ["LAST", "START"]

/-- The units that a written clause may have. -/
def rangeUnits : List String := ["MINUTES", "HOURS", "DAYS"]

theorem letter_word_of_keyword : ∀ keyword ∈ rangeKeywords, LetterWord keyword := by decide

theorem letter_word_of_unit : ∀ keyword ∈ rangeUnits, LetterWord keyword := by decide

/-- LAST with an amount and a unit. -/
inductive RelativeRange : List Char → Prop where
  | last {word gap amount between unit : List Char} {keyword : String} :
      Spells "LAST".toList word → Between gap → amount ≠ [] →
      (∀ c ∈ amount, isDecimalDigit c = true) → Between between →
      keyword ∈ rangeUnits → Spells keyword.toList unit →
      RelativeRange (word ++ (gap ++ (amount ++ (between ++ unit))))

/-- A keyword with a literal. -/
inductive KeywordLiteral (keyword : String) : List Char → Prop where
  | quoted {word gap content : List Char} :
      Spells keyword.toList word → Between gap → '\'' ∉ content →
      KeywordLiteral keyword (word ++ (gap ++ '\'' :: (content ++ ['\''])))

/-- A mark is an ASCII character that is neither a letter nor a digit nor a blank. -/
def isMark (c : Char) : Bool :=
  decide (c.toNat < 0x80) && !c.isAlphanum && !isBlank c

section Characters

/-- What is recognised as a letter is no mark. -/
theorem is_mark_of_letter {letter : Char} (hletter : letter.isAlpha = true)
    (h : isLetter letter c = true) : isMark c = false := by
  simp only [isLetter, Bool.or_eq_true, Bool.and_eq_true, beq_iff_eq] at h
  rcases h with (rfl | ⟨-, hkelvin⟩) | ⟨-, rfl⟩
  · rw [is_alpha_to_upper] at hletter
    simp [isMark, Char.isAlphanum, hletter]
  · simp [isMark, hkelvin]
  · decide

/-- A digit of any script is no mark. -/
theorem is_mark_of_decimal_digit (h : isDecimalDigit c = true) : isMark c = false := by
  by_cases hascii : c.toNat < 0x80
  · have hdigit : c.isDigit = true := by
      rw [is_digit_iff]
      unfold isDecimalDigit decimalDigitRanges CodePointRange.covers at h
      unfold CodePointRange.covers at h
      split at h
      · cases h
      · split at h
        · omega
        · rw [if_pos (by omega)] at h
          cases h
    simp [isMark, Char.isAlphanum, hdigit]
  · simp [isMark, hascii]

/-- A blank is no mark. -/
theorem is_mark_of_blank (h : isBlank c = true) : isMark c = false := by
  simp [isMark, h]

/-- A word is spelled without marks. -/
theorem no_mark_of_spells {letters : List Char} (hletters : ∀ c ∈ letters, c.isAlpha = true)
    (h : Spells letters word) : ∀ c ∈ word, isMark c = false := by
  induction h with
  | nil => simp
  | cons hletter _ ih =>
      rw [List.forall_mem_cons] at hletters ⊢
      exact ⟨is_mark_of_letter hletters.1 hletter, ih hletters.2⟩

/-- No two units begin with the same letter, so that a word spells one of them at most. -/
theorem unit_unique {keyword' : String} {word' rest' : List Char} (h : keyword ∈ rangeUnits)
    (h' : keyword' ∈ rangeUnits) (hword : Spells keyword.toList word)
    (hword' : Spells keyword'.toList word') (hsplit : word ++ rest = word' ++ rest') :
    keyword = keyword' := by
  have hne : word ≠ [] := hword.ne_nil (letter_word_of_unit _ h).ne_nil
  have hne' : word' ≠ [] := hword'.ne_nil (letter_word_of_unit _ h').ne_nil
  obtain ⟨c, more, rfl⟩ := List.exists_cons_of_ne_nil hne
  obtain ⟨d, more', rfl⟩ := List.exists_cons_of_ne_nil hne'
  obtain ⟨rfl, -⟩ := List.cons.inj hsplit
  have hfirst : ∀ {keyword : String} {more}, keyword ∈ rangeUnits →
      Spells keyword.toList (c :: more) → keyword.toList.head? = some c.toUpper := by
    intro keyword more hunit hspells
    -- Neither the Kelvin sign nor the long s begins a unit.
    have hplain : ∀ keyword ∈ rangeUnits,
        keyword.toList.head? ≠ some 'K' ∧ keyword.toList.head? ≠ some 'S' := by decide
    cases hkeyword : keyword.toList with
    | nil => exact absurd hkeyword (letter_word_of_unit _ hunit).ne_nil
    | cons letter letters =>
        rw [hkeyword] at hspells
        cases hspells with
        | cons hletter _ =>
            obtain ⟨hk, hs⟩ := hplain keyword hunit
            rw [hkeyword, List.head?_cons, ne_eq, Option.some.injEq] at hk hs
            simp only [isLetter, beq_eq_false_iff_ne.mpr hk, beq_eq_false_iff_ne.mpr hs,
              Bool.false_and, Bool.or_false, beq_iff_eq] at hletter
            rw [List.head?_cons, hletter]
  have hinjective : ∀ keyword ∈ rangeUnits, ∀ keyword' ∈ rangeUnits,
      keyword.toList.head? = keyword'.toList.head? → keyword = keyword' := by decide
  exact hinjective keyword h keyword' h' ((hfirst h hword).trans (hfirst h' hword').symm)

end Characters

section Readers

/-- One of the units is read where it stands as a word. -/
theorem unit_eq_some_iff :
    (rangeUnits.findSome? fun keyword => anyCaseWord? keyword.toList cs) = some rest ↔
      ∃ keyword ∈ rangeUnits, ∃ word, cs = word ++ rest ∧ Spells keyword.toList word ∧
        endsWord rest = true := by
  constructor
  · intro h
    obtain ⟨keyword, hkeyword, hfound⟩ := List.exists_of_findSome?_eq_some h
    exact ⟨keyword, hkeyword, any_case_word_eq_some_iff.mp hfound⟩
  · rintro ⟨keyword, hkeyword, word, rfl, hword, hends⟩
    have hsome := any_case_word_eq_some_iff.mpr ⟨word, rfl, hword, hends⟩
    have hany : (rangeUnits.findSome? fun keyword =>
        anyCaseWord? keyword.toList (word ++ rest)).isSome = true :=
      List.findSome?_isSome_iff.mpr ⟨keyword, hkeyword, by rw [hsome]; rfl⟩
    -- What is read is read for the same unit.
    obtain ⟨rest', hrest'⟩ := Option.isSome_iff_exists.mp hany
    obtain ⟨keyword', hkeyword', hfound⟩ := List.exists_of_findSome?_eq_some hrest'
    obtain ⟨word', hsplit, hword', -⟩ := any_case_word_eq_some_iff.mp hfound
    obtain rfl := unit_unique hkeyword hkeyword' hword hword' hsplit
    rw [hrest', ← hfound, hsome]

/-- A relative time clause is LAST with an amount and a unit, behind which a word can end. -/
theorem relative_clause_eq_some_iff : relativeClause? cs = some rest ↔
    ∃ taken, cs = taken ++ rest ∧ RelativeRange taken ∧ endsWord rest = true := by
  simp only [relativeClause?, bind, Option.bind_eq_some_iff, any_case_eq_some_iff,
    blanks_eq_some_iff, guard_eq_some_iff]
  constructor
  · rintro ⟨_, ⟨word, hword, rfl⟩, tail, ⟨gap, rfl, hne, hgap, -⟩, -, hdigit, _,
      ⟨between, hdrop, hbetween, hblank, -⟩, hunit⟩
    obtain ⟨keyword, hkeyword, unit, rfl, hspells, hends⟩ := unit_eq_some_iff.mp hunit
    have hamount : tail.takeWhile isDecimalDigit ≠ [] := by
      intro hnil
      cases tail with
      | nil => cases hdigit
      | cons c tail =>
          have hc : isDecimalDigit c = true := hdigit
          rw [List.takeWhile_cons_of_pos hc] at hnil
          cases hnil
    refine ⟨_, ?_, .last hword ⟨hne, hgap⟩ hamount (fun c => List.mem_takeWhile_imp)
      ⟨hbetween, hblank⟩ hkeyword hspells, hends⟩
    have htail : tail = tail.takeWhile isDecimalDigit ++ (between ++ (unit ++ rest)) := by
      rw [← hdrop, List.takeWhile_append_dropWhile]
    conv_lhs => rw [htail]
    simp only [List.append_assoc]
  · rintro ⟨_, rfl, @⟨word, gap, amount, between, unit, keyword, hword, hgap, hne, hamount,
      hbetween, hkeyword, hunit⟩, hends⟩
    simp only [List.append_assoc]
    have hsolid : ∀ c ∈ (amount ++ (between ++ (unit ++ rest))).head?, isBlank c = false :=
      head_of_run hne fun c hc => is_blank_of_decimal_digit (hamount c hc)
    have hstop : ∀ c ∈ (between ++ (unit ++ rest)).head?, isDecimalDigit c = false :=
      head_of_run hbetween.ne_nil fun c hc => is_decimal_digit_of_blank (hbetween.blank c hc)
    have hfirst : (amount ++ (between ++ (unit ++ rest))).head?.any isDecimalDigit = true := by
      obtain ⟨c, more, rfl⟩ := List.exists_cons_of_ne_nil hne
      exact hamount c List.mem_cons_self
    have hletters := letter_word_of_unit _ hkeyword
    refine ⟨_, ⟨word, hword, rfl⟩, _, ⟨gap, rfl, hgap.ne_nil, hgap.blank, hsolid⟩, (), hfirst, _,
      ⟨between, drop_while_append hamount hstop, hbetween.ne_nil, hbetween.blank,
        hunit.head hletters.ne_nil hletters.letters⟩, ?_⟩
    exact unit_eq_some_iff.mpr ⟨keyword, hkeyword, unit, rfl, hunit, hends⟩

/-- A keyword with a literal is read up to the closing quote. -/
theorem keyword_literal_eq_some_iff : keywordLiteral? keyword cs = some rest ↔
    ∃ taken, cs = taken ++ rest ∧ KeywordLiteral keyword taken := by
  simp only [keywordLiteral?, bind, Option.bind_eq_some_iff, any_case_eq_some_iff,
    blanks_eq_some_iff, Prod.exists, quoted_text_eq_some_iff, pure, Option.some.injEq]
  constructor
  · rintro ⟨_, ⟨word, hword, rfl⟩, _, ⟨gap, rfl, hne, hgap, -⟩, content, _, ⟨rfl, hcontent⟩, rfl⟩
    exact ⟨_, by simp, .quoted hword ⟨hne, hgap⟩ hcontent⟩
  · rintro ⟨_, rfl, @⟨word, gap, content, hword, hgap, hcontent⟩⟩
    have hquote : ∀ c ∈ ('\'' :: (content ++ '\'' :: rest)).head?, isBlank c = false := by
      intro c hc
      obtain rfl := Option.some.inj hc
      decide
    refine ⟨gap ++ '\'' :: (content ++ '\'' :: rest), ⟨word, hword, by simp⟩, _,
      ⟨gap, rfl, hgap.ne_nil, hgap.blank, hquote⟩, content, rest, ⟨by simp, hcontent⟩, rfl⟩

/-- STOP with its literal is read behind blanks. -/
theorem stop_eq_some_iff : (blanks? cs).bind (keywordLiteral? "STOP") = some rest ↔
    ∃ taken, cs = taken ++ rest ∧ ∃ gap stop, taken = gap ++ stop ∧ Between gap ∧
      KeywordLiteral "STOP" stop := by
  simp only [Option.bind_eq_some_iff, blanks_eq_some_iff, keyword_literal_eq_some_iff]
  constructor
  · rintro ⟨_, ⟨gap, rfl, hne, hgap, -⟩, stop, rfl, hstop⟩
    exact ⟨gap ++ stop, by simp, gap, stop, rfl, ⟨hne, hgap⟩, hstop⟩
  · rintro ⟨_, rfl, gap, stop, rfl, hgap, hstop⟩
    refine ⟨stop ++ rest, ⟨gap, by simp, hgap.ne_nil, hgap.blank, ?_⟩, stop, rfl, hstop⟩
    cases hstop with
    | quoted hword _ _ =>
        rw [List.append_assoc]
        have hstop : LetterWord "STOP" := by decide
        exact hword.head hstop.ne_nil hstop.letters

/-- A keyword with a literal ends with a quote. -/
theorem KeywordLiteral.last (h : KeywordLiteral keyword taken) : taken.getLast? = some '\'' := by
  cases h
  simp [List.getLast?_append, List.getLast?_cons]

/-- START with its literal is an absolute clause. -/
theorem absolute_clause_of_start (h : KeywordLiteral "START" cs) :
    absoluteClause? cs = some [] := by
  have hstart : keywordLiteral? "START" cs = some [] :=
    keyword_literal_eq_some_iff.mpr ⟨cs, by simp, h⟩
  simp only [absoluteClause?, hstart, bind, pure, Option.bind_some]
  rfl

/-- START and STOP with their literals are an absolute clause. -/
theorem absolute_clause_of_start_stop (hstart : KeywordLiteral "START" cs) (hgap : Between gap)
    (hstop : KeywordLiteral "STOP" rest) : absoluteClause? (cs ++ (gap ++ rest)) = some [] := by
  have hread : keywordLiteral? "START" (cs ++ (gap ++ rest)) = some (gap ++ rest) :=
    keyword_literal_eq_some_iff.mpr ⟨cs, rfl, hstart⟩
  have hend : (blanks? (gap ++ rest)).bind (keywordLiteral? "STOP") = some [] :=
    stop_eq_some_iff.mpr ⟨gap ++ rest, by simp, gap, rest, rfl, hgap, hstop⟩
  simp only [absoluteClause?, hread, hend, bind, pure, Option.bind_some, Option.getD_some]

/-- A text that begins with an S is no relative clause. -/
theorem relative_clause_of_start : relativeClause? ('S' :: cs) = none := by
  have hletter : isLetter 'L' 'S' = false := by decide
  have hword : anyCase? "LAST".toList ('S' :: cs) = none := by
    show (if isLetter 'L' 'S' then _ else _) = _
    rw [hletter]
    rfl
  rw [relativeClause?, hword]
  rfl

end Readers

section Seam

/-- A relative clause holds no mark. -/
theorem RelativeRange.no_mark (h : RelativeRange taken) : ∀ c ∈ taken, isMark c = false := by
  cases h with
  | last hword hgap _ hamount hbetween hkeyword hunit =>
      simp only [List.mem_append]
      rintro c (hc | hc | hc | hc | hc)
      · exact no_mark_of_spells (letter_word_of_keyword "LAST" (by decide)).letters hword c hc
      · exact is_mark_of_blank (hgap.blank c hc)
      · exact is_mark_of_decimal_digit (hamount c hc)
      · exact is_mark_of_blank (hbetween.blank c hc)
      · exact no_mark_of_spells (letter_word_of_unit _ hkeyword).letters hunit c hc

/-- What is read up to a quote is read in front of a text without quotes. -/
theorem read_append_of_quote {f : List Char → Option (List Char)} {P : List Char → Prop}
    (hf : ∀ {cs rest}, f cs = some rest ↔ ∃ taken, cs = taken ++ rest ∧ P taken)
    (hlast : ∀ {taken}, P taken → taken.getLast? = some '\'') (hback : '\'' ∉ back) :
    f (cs ++ back) = (f cs).map (· ++ back) := by
  refine Option.ext fun rest => ?_
  rw [hf, Option.map_eq_some_iff]
  constructor
  · rintro ⟨taken, hsplit, htaken⟩
    rcases List.append_eq_append_iff.mp hsplit with ⟨more, rfl, hrest⟩ | ⟨more, rfl, rfl⟩
    · cases more with
      | nil => exact ⟨[], hf.mpr ⟨cs ++ [], by simp, htaken⟩, by simpa using hrest⟩
      | cons c more =>
          -- The closing quote would stand behind the text.
          have hquote := hlast htaken
          rw [List.getLast?_append_of_ne_nil _ (by simp)] at hquote
          refine absurd ?_ hback
          rw [hrest]
          exact List.mem_append_left _ (List.mem_of_getLast? hquote)
    · exact ⟨more, hf.mpr ⟨taken, rfl, htaken⟩, rfl⟩
  · rintro ⟨more, hmore, rfl⟩
    obtain ⟨taken, rfl, htaken⟩ := hf.mp hmore
    exact ⟨taken, by simp, htaken⟩

/-- A relative clause is read in front of a mark. -/
theorem relative_clause_append (hlast : cs.getLast? = some c) (hc : isMark c = true) :
    relativeClause? (cs ++ back) = (relativeClause? cs).map (· ++ back) := by
  have hmem : c ∈ cs := List.mem_of_getLast? hlast
  have hinside : ∀ {taken}, RelativeRange taken → c ∉ taken := by
    intro taken htaken hct
    rw [htaken.no_mark c hct] at hc
    cases hc
  refine Option.ext fun rest => ?_
  rw [relative_clause_eq_some_iff, Option.map_eq_some_iff]
  constructor
  · rintro ⟨taken, hsplit, htaken, hends⟩
    rcases List.append_eq_append_iff.mp hsplit with ⟨more, rfl, -⟩ | ⟨more, rfl, rfl⟩
    · exact absurd (List.mem_append_left _ hmem) (hinside htaken)
    · refine ⟨more, relative_clause_eq_some_iff.mpr ⟨taken, rfl, htaken, ?_⟩, rfl⟩
      cases more with
      | nil => rfl
      | cons d more => exact hends
  · rintro ⟨more, hmore, rfl⟩
    obtain ⟨taken, rfl, htaken, hends⟩ := relative_clause_eq_some_iff.mp hmore
    refine ⟨taken, by simp, htaken, ?_⟩
    cases more with
    | nil =>
        rw [List.append_nil] at hmem
        exact absurd hmem (hinside htaken)
    | cons d more => exact hends

/-- An absolute clause is read in front of a text without quotes. -/
theorem absolute_clause_append (hback : '\'' ∉ back) :
    absoluteClause? (cs ++ back) = (absoluteClause? cs).map (· ++ back) := by
  have hstart : keywordLiteral? "START" (cs ++ back) =
      (keywordLiteral? "START" cs).map (· ++ back) :=
    read_append_of_quote keyword_literal_eq_some_iff KeywordLiteral.last hback
  have hstop : ∀ rest, (blanks? (rest ++ back)).bind (keywordLiteral? "STOP") =
      ((blanks? rest).bind (keywordLiteral? "STOP")).map (· ++ back) := by
    intro rest
    refine read_append_of_quote (f := fun cs => (blanks? cs).bind (keywordLiteral? "STOP"))
      stop_eq_some_iff ?_ hback
    rintro _ ⟨gap, stop, rfl, -, hstop⟩
    rw [List.getLast?_append, hstop.last]
    rfl
  simp only [absoluteClause?, bind, pure, hstart]
  cases keywordLiteral? "START" cs with
  | none => rfl
  | some rest =>
      show some (((blanks? (rest ++ back)).bind (keywordLiteral? "STOP")).getD (rest ++ back)) =
        some (((blanks? rest).bind (keywordLiteral? "STOP")).getD rest ++ back)
      rw [hstop]
      cases (blanks? rest).bind (keywordLiteral? "STOP") with
      | none => rfl
      | some left => rfl

/-- A mark with no quote behind it separates the time clauses of a query. -/
theorem seam_time_clause (hlast : front.getLast? = some c) (hc : isMark c = true)
    (hback : '\'' ∉ back) : Seam timeClause before front back := by
  intro start rest hsplit hne
  have hrest : rest.getLast? = some c := by
    rwa [hsplit, List.getLast?_append_of_ne_nil _ hne] at hlast
  simp only [timeClause, bind, pure, relative_clause_append hrest hc, absolute_clause_append hback,
    ← Option.map_or]
  cases (guard (beginsWord (start.getLast?.or before)) : Option Unit) with
  | none => rfl
  | some u =>
      cases (relativeClause? rest).or (absoluteClause? rest) with
      | none => rfl
      | some left => rfl

end Seam

section Beginning

/-- A time clause begins with LAST or START as a word. -/
theorem time_clause_begins (h : timeClause before cs = some (u, rest)) :
    beginsWord before = true ∧ ∃ keyword ∈ rangeKeywords, ∃ word more,
      cs = word ++ (more ++ rest) ∧ Spells keyword.toList word ∧
        endsWord (more ++ rest) = true := by
  simp only [timeClause, bind, Option.bind_eq_some_iff, guard_eq_some_iff, pure, Option.some.injEq,
    Prod.mk.injEq, Option.or_eq_some_iff] at h
  obtain ⟨-, hbegins, left, hclause, -, hrest⟩ := h
  obtain rfl : left = rest := hrest
  refine ⟨hbegins, ?_⟩
  rcases hclause with hrelative | ⟨-, habsolute⟩
  · obtain ⟨_, rfl, @⟨word, gap, amount, between, unit, keyword, hword, hgap, -⟩, -⟩ :=
      relative_clause_eq_some_iff.mp hrelative
    refine ⟨"LAST", by decide, word, gap ++ (amount ++ (between ++ unit)), by simp, hword, ?_⟩
    rw [List.append_assoc]
    exact ends_word_of_blanks hgap.ne_nil hgap.blank
  · simp only [absoluteClause?, bind, Option.bind_eq_some_iff, keyword_literal_eq_some_iff, pure,
      Option.some.injEq] at habsolute
    obtain ⟨behind, ⟨_, rfl, @⟨word, gap, content, hword, hgap, -⟩⟩, hstop⟩ := habsolute
    have hbehind : ∃ more, behind = more ++ left := by
      cases hread : (blanks? behind).bind (keywordLiteral? "STOP") with
      | none => exact ⟨[], by rw [← hstop, hread]; rfl⟩
      | some left' =>
          obtain ⟨taken, htaken, -⟩ := stop_eq_some_iff.mp hread
          rw [hread] at hstop
          obtain rfl : left' = left := hstop
          exact ⟨taken, htaken⟩
    obtain ⟨more, rfl⟩ := hbehind
    refine ⟨"START", by decide, word, gap ++ ('\'' :: (content ++ '\'' :: more)), by simp,
      hword, ?_⟩
    rw [List.append_assoc]
    exact ends_word_of_blanks hgap.ne_nil hgap.blank

/-- A time clause covers at least its keyword. -/
theorem time_clause_covers : Consumes timeClause := by
  intro before cs u rest h
  obtain ⟨-, keyword, hkeyword, word, more, rfl, hword, -⟩ := time_clause_begins h
  have hne := hword.ne_nil (letter_word_of_keyword keyword hkeyword).ne_nil
  exact ⟨word ++ more, by simp [hne], by simp⟩

end Beginning

end Ariel.Template
