import Ariel.Proofs.Query.TimeRange
import Ariel.Proofs.Query.Window.Harmless
import Ariel.Proofs.Validation.TimeRange

/-!
# Time clauses as time ranges

A swap looks for time clauses, and the validation counts time ranges. Outside of literals, a time
clause without a long s is one time range (`ClauseText.recognised`), and so is the clause of a
window. Inside of a literal, the clause of a window is none, as no letter of it is left in the mask
(`no_letter_inside`).
-/

namespace Ariel.Template

open Ariel.Query Ariel.Text Ariel.Validation

variable {cs rest taken tail word gap front : List Char} {keyword : String} {before : Option Char}
  {u : Unit} {c : Char} {w : Window} {clause : String}

/-- What a time clause in a written query is made of. -/
inductive ClauseText : List Char → Prop where
  | relative {taken : List Char} : RelativeRange taken → ClauseText taken
  | start {taken : List Char} : KeywordLiteral "START" taken → ClauseText taken
  | startStop {start gap stop : List Char} : KeywordLiteral "START" start → Between gap →
      KeywordLiteral "STOP" stop → ClauseText (start ++ (gap ++ stop))

theorem letter_word_stop : LetterWord "STOP" := by decide

section Made

/-- No quote stands in a relative clause. -/
theorem RelativeRange.no_quote (h : RelativeRange taken) : '\'' ∉ taken :=
  fun hquote => absurd (h.no_mark _ hquote) (by decide)

/-- A keyword with a literal ends with its quote. -/
theorem KeywordLiteral.quote_mem (h : KeywordLiteral keyword taken) : '\'' ∈ taken :=
  List.mem_of_getLast? h.last

/-- A time clause begins a word, and behind one that is relative a word ends. -/
theorem clause_text_of_time_clause (h : timeClause before cs = some (u, rest)) :
    beginsWord before = true ∧ ∃ taken, cs = taken ++ rest ∧ ClauseText taken ∧
      (RelativeRange taken → endsWord rest = true) := by
  simp only [timeClause, bind, Option.bind_eq_some_iff, guard_eq_some_iff, pure, Option.some.injEq,
    Prod.mk.injEq, Option.or_eq_some_iff] at h
  obtain ⟨-, hbegins, left, hclause, -, hrest⟩ := h
  obtain rfl : left = rest := hrest
  refine ⟨hbegins, ?_⟩
  rcases hclause with hrelative | ⟨-, habsolute⟩
  · obtain ⟨taken, rfl, hrange, hends⟩ := relative_clause_eq_some_iff.mp hrelative
    exact ⟨taken, rfl, .relative hrange, fun _ => hends⟩
  · simp only [absoluteClause?, bind, Option.bind_eq_some_iff, keyword_literal_eq_some_iff, pure,
      Option.some.injEq] at habsolute
    obtain ⟨behind, ⟨start, rfl, hstart⟩, hstop⟩ := habsolute
    cases hread : (blanks? behind).bind (keywordLiteral? "STOP") with
    | none =>
        rw [hread] at hstop
        obtain rfl : behind = left := hstop
        exact ⟨start, rfl, .start hstart, fun hrange => absurd hstart.quote_mem hrange.no_quote⟩
    | some left' =>
        rw [hread] at hstop
        obtain rfl : left' = left := hstop
        obtain ⟨_, rfl, gap, stop, rfl, hgap, hstop⟩ := stop_eq_some_iff.mp hread
        refine ⟨start ++ (gap ++ stop), by simp, .startStop hstart hgap hstop, fun hrange => ?_⟩
        exact absurd (List.mem_append_left _ hstart.quote_mem) hrange.no_quote

/-- No quote stands in front of the literal behind a keyword. -/
theorem quote_not_mem_keyword (hkeyword : LetterWord keyword) (hword : Spells keyword.toList word)
    (hgap : Between gap) : '\'' ∉ word ∧ '\'' ∉ gap :=
  ⟨fun hquote => absurd (no_mark_of_spells hkeyword.letters hword _ hquote) (by decide),
    quote_not_mem_blanks hgap.blank⟩

/-- A keyword with a literal closes it. -/
theorem KeywordLiteral.even (hkeyword : LetterWord keyword) (h : KeywordLiteral keyword taken) :
    Even (taken.count '\'') := by
  cases h with
  | @quoted word gap content hword hgap hcontent =>
      obtain ⟨hw, hg⟩ := quote_not_mem_keyword hkeyword hword hgap
      have htwo : (word ++ (gap ++ '\'' :: (content ++ ['\'']))).count '\'' = 2 := by
        simp [List.count_append, List.count_eq_zero_of_not_mem, hw, hg, hcontent]
      rw [htwo]
      exact ⟨1, rfl⟩

/-- A time clause closes its literals. -/
theorem ClauseText.even (h : ClauseText taken) : Even (taken.count '\'') := by
  cases h with
  | relative hrange => exact even_count_of_not_mem hrange.no_quote
  | start hstart => exact hstart.even letter_word_start
  | @startStop start gap stop hstart hgap hstop =>
      have hquote := quote_not_mem_blanks hgap.blank
      rw [List.count_append, List.count_append, List.count_eq_zero_of_not_mem hquote, Nat.zero_add]
      exact (hstart.even letter_word_start).add (hstop.even letter_word_stop)

end Made

section Outside

variable {behind : List Char}

/-- No time range begins with a unit, or within one. -/
theorem reports_behind_unit (hkeyword : keyword ∈ rangeUnits)
    (hword : capitals word = keyword.toList) (htail : endsWord tail = true) :
    reports timeRange before (word ++ tail) = reports timeRange none tail := by
  have hfirst : ∀ keyword ∈ rangeUnits,
      keyword.toList.head? ≠ some 'L' ∧ keyword.toList.head? ≠ some 'S' := by decide
  obtain ⟨hl, hs⟩ := hfirst keyword hkeyword
  have hunit := letter_word_of_unit keyword hkeyword
  have hhead := head_of_keyword hunit hword tail
  have hnone : timeRange before (word ++ tail) = none := by
    refine time_range_eq_none (.inr fun c hc => ?_)
    rw [Option.mem_def.mp hc, Option.map_some] at hhead
    rw [← hhead] at hl hs
    exact ⟨fun heq => hl (congrArg some heq), fun heq => hs (congrArg some heq)⟩
  rw [reports_behind_word (is_alpha_of_keyword hunit hword).2 hnone]
  exact reports_of_head (is_word_character_of_ends_word htail)

/-- A relative clause is a time range in front of the end of a word. -/
theorem recognised_of_relative (h : RelativeRange taken) (hplain : 'ſ' ∉ taken)
    (htail : endsWord tail = true) : ∃ word behind, Recognised taken tail word behind := by
  cases h with
  | @last word gap amount between unit keyword hword hgap hne hamount hbetween hkeyword hunit =>
      have hplainUnits : ∀ keyword ∈ rangeUnits, 'K' ∉ keyword.toList := by decide
      simp only [List.mem_append, not_or] at hplain
      have hlast : capitals word = "LAST".toList := hword.capitals_eq (by decide) hplain.1
      have hplural : capitals unit = keyword.toList :=
        hunit.capitals_eq (hplainUnits keyword hkeyword) hplain.2.2.2.2
      obtain ⟨hwordNe, hletters⟩ := is_alpha_of_keyword letter_word_last hlast
      obtain ⟨hunitNe, hunits⟩ := is_alpha_of_keyword (letter_word_of_unit _ hkeyword) hplural
      have hrange : IsRange (word ++ (gap ++ (amount ++ (between ++ unit)))) := by
        have hrange := IsRange.last hlast hgap.ne_nil hgap.blank hne hamount hbetween.ne_nil
          hbetween.blank hunitNe hunits
        simpa using hrange
      refine ⟨word, gap ++ (amount ++ (between ++ unit)), rfl, hwordNe, hletters, ?_,
        fun before hbegins => ?_, ?_⟩
      · rw [List.append_assoc]
        exact ends_word_of_blanks hgap.ne_nil hgap.blank
      · have hhere : timeRange before (word ++ (gap ++ (amount ++ (between ++ unit))) ++ tail) =
            some ((), tail) := time_range_eq_some_iff.mpr ⟨hbegins, htail, _, rfl, hrange⟩
        rw [reports_at (by simp [hwordNe]) hhere, List.length_cons,
          reports_of_head (is_word_character_of_ends_word htail)]
      · have hsplit : gap ++ (amount ++ (between ++ unit)) ++ tail =
            (gap ++ (amount ++ between)) ++ (unit ++ tail) := by simp
        rw [hsplit, reports_behind_plain
          (no_letter_around_amount hgap.blank hamount hbetween.blank)]
        exact reports_behind_unit hkeyword hplural htail

/-- A clause that begins with START is a time range when no other one stands behind that word. -/
theorem recognised_of_start (hword : capitals word = "START".toList)
    (hends : endsWord (behind ++ tail) = true) (hlast : behind.getLast? = some '\'')
    (hnone : reports timeRange word.getLast? behind = []) :
    Recognised (word ++ behind) tail word behind := by
  obtain ⟨hne, hletters⟩ := is_alpha_of_keyword letter_word_start hword
  have hbehind :
      reports timeRange word.getLast? (behind ++ tail) = reports timeRange none tail := by
    have hseam : reports timeRange word.getLast? (behind ++ tail) = _ :=
      reports_append (seam_of_walled (walled_of_last hlast (by decide)))
    rw [hnone, List.nil_append, hlast, Option.some_or] at hseam
    exact hseam.trans (reports_congr (by decide))
  refine ⟨rfl, hne, hletters, hends, fun before hbegins => ?_, hbehind⟩
  have hhere : timeRange before (word ++ (behind ++ tail)) = some ((), behind ++ tail) :=
    time_range_eq_some_iff.mpr ⟨hbegins, hends, word, rfl, .start hword⟩
  have hsome : word.getLast?.or before = word.getLast? := by
    rw [List.getLast?_eq_some_getLast hne, Option.some_or]
  rw [List.append_assoc, reports_at hne hhere, hsome, hbehind, List.length_cons]

/-- No time range begins with STOP. -/
theorem time_range_of_stop (hword : capitals word = "STOP".toList) :
    timeRange before (word ++ tail) = none := by
  refine Option.eq_none_iff_forall_ne_some.mpr fun (u, left) hfound => ?_
  obtain ⟨-, -, taken, hsplit, hrange⟩ := time_range_eq_some_iff.mp hfound
  cases hrange with
  | last hlast =>
      have hhead := head_of_keyword letter_word_stop hword tail
      rw [hsplit, List.append_assoc, head_of_keyword letter_word_last hlast] at hhead
      cases hhead
  | start hstart =>
      have hcapitals := congrArg capitals hsplit
      rw [capitals_append, capitals_append, hword, hstart] at hcapitals
      have hthird : some 'O' = some 'A' := congrArg (·[2]?) hcapitals
      cases hthird

/-- The mask of a literal behind blanks shows its quotes and blanks. -/
theorem mask_gap_literal {content : List Char} (hgap : Between gap) (hcontent : '\'' ∉ content) :
    mask (gap ++ '\'' :: (content ++ '\'' :: tail)) =
      gap ++ '\'' :: (List.replicate (byteLength content) ' ' ++ '\'' :: mask tail) := by
  rw [mask_append_of_no_quote (quote_not_mem_blanks hgap.blank), mask_literal hcontent]

/-- Between the quotes of a blanked literal, and in front of them, no letter stands. -/
theorem no_letter_in_blanked {count : Nat} (hgap : Between gap) :
    ∀ c ∈ gap ++ '\'' :: (List.replicate count ' ' ++ ['\'']), c.isAlpha = false := by
  simp only [List.mem_append, List.mem_cons, List.not_mem_nil, or_false]
  rintro c (hc | rfl | hc | rfl)
  · exact is_alpha_of_blank (hgap.blank c hc)
  · decide
  · rw [List.eq_of_mem_replicate hc]
    decide
  · decide

/-- Behind START, no time range stands in the mask of a clause with two literals. -/
theorem reports_behind_start {gap' gap'' : List Char} {count count' : Nat} (hgap : Between gap)
    (hgap' : Between gap') (hgap'' : Between gap'') (hword : capitals word = "STOP".toList) :
    reports timeRange before (gap ++ '\'' :: (List.replicate count ' ' ++ '\'' ::
      (gap' ++ (word ++ (gap'' ++ '\'' :: (List.replicate count' ' ' ++ ['\''])))))) = [] := by
  have hfront : ∀ c ∈ (gap ++ '\'' :: (List.replicate count ' ' ++ ['\''])) ++ gap',
      c.isAlpha = false := by
    intro c hc
    rcases List.mem_append.mp hc with hc | hc
    · exact no_letter_in_blanked hgap c hc
    · exact is_alpha_of_blank (hgap'.blank c hc)
  have hsplit : gap ++ '\'' :: (List.replicate count ' ' ++ '\'' ::
        (gap' ++ (word ++ (gap'' ++ '\'' :: (List.replicate count' ' ' ++ ['\'']))))) =
      ((gap ++ '\'' :: (List.replicate count ' ' ++ ['\''])) ++ gap') ++
        (word ++ (gap'' ++ '\'' :: (List.replicate count' ' ' ++ ['\'']))) := by simp
  obtain ⟨-, hletters⟩ := is_alpha_of_keyword letter_word_stop hword
  rw [hsplit, reports_behind_plain hfront, reports_behind_word hletters (time_range_of_stop hword),
    reports_of_plain (no_letter_in_blanked hgap'')]

/-- Outside of literals, a time clause without a long s is one time range. -/
theorem ClauseText.recognised (h : ClauseText taken) (hplain : 'ſ' ∉ taken)
    (htail : RelativeRange taken → endsWord tail = true) :
    ∃ word behind, Recognised (mask taken) tail word behind := by
  cases h with
  | relative hrange =>
      rw [mask_of_no_quote hrange.no_quote]
      exact recognised_of_relative hrange hplain (htail hrange)
  | start hstart =>
      cases hstart with
      | @quoted word gap content hword hgap hcontent =>
          simp only [List.mem_append, not_or] at hplain
          have hcapitals := hword.capitals_eq (by decide) hplain.1
          have hquote := (quote_not_mem_keyword letter_word_start hword hgap).1
          rw [mask_append_of_no_quote hquote, mask_gap_literal hgap hcontent]
          refine ⟨_, _, recognised_of_start hcapitals ?_ ?_
            (reports_of_plain (no_letter_in_blanked hgap))⟩
          · rw [List.append_assoc]
            exact ends_word_of_blanks hgap.ne_nil hgap.blank
          · simp [List.getLast?_append, List.getLast?_cons, mask, maskFrom]
  | startStop hstart hgap hstop =>
      cases hstart with
      | @quoted word gap' content hword hgap' hcontent =>
          cases hstop with
          | @quoted stop gap'' content' hstop hgap'' hcontent' =>
              simp only [List.mem_append, not_or] at hplain
              have hcapitals := hword.capitals_eq (by decide) hplain.1.1
              have hcapitals' := hstop.capitals_eq (by decide) hplain.2.2.1
              have hquote := (quote_not_mem_keyword letter_word_start hword hgap').1
              have hquote' := quote_not_mem_keyword letter_word_stop hstop hgap
              simp only [List.append_assoc, List.cons_append, List.nil_append]
              rw [mask_append_of_no_quote hquote, mask_gap_literal hgap' hcontent,
                mask_append_of_no_quote hquote'.2, mask_append_of_no_quote hquote'.1,
                mask_gap_literal hgap'' hcontent']
              refine ⟨_, _, recognised_of_start hcapitals ?_ ?_ ?_⟩
              · rw [List.append_assoc]
                exact ends_word_of_blanks hgap'.ne_nil hgap'.blank
              · simp [List.getLast?_append, List.getLast?_cons, mask, maskFrom]
              · exact reports_behind_start hgap' hgap hgap'' hcapitals'

end Outside

section Clause

/-- The clause of a window is a time clause. -/
theorem clause_text_of_clause (h : w.clause? = some clause) : ClauseText clause.toList := by
  have hmatch : timeClause none clause.toList = some ((), []) :=
    time_clause_of_shows rfl (Window.shows_of_clause h)
  obtain ⟨-, taken, hsplit, htext, -⟩ := clause_text_of_time_clause hmatch
  rw [List.append_nil] at hsplit
  rwa [hsplit]

/-- The clause of a window without a stop or with one is no relative clause. -/
theorem not_relative_of_absolute {start : String} {stop : Option String}
    (h : (Window.absolute start stop).clause? = some clause) : ¬ RelativeRange clause.toList := by
  intro hrange
  refine hrange.no_quote ?_
  cases Window.shows_of_clause h <;> simp [String.toList_append]

/-- Outside of literals, the clause of a window is one time range. Behind a relative clause a word
has to end. -/
theorem clause_recognised (h : w.clause? = some clause)
    (htail : (∃ start stop, w = .absolute start stop) ∨ endsWord tail = true) :
    ∃ word behind, Recognised (mask clause.toList) tail word behind := by
  refine (clause_text_of_clause h).recognised
    (fun hmem => absurd (Window.clause_chars h _ hmem) (by decide)) fun hrange => ?_
  rcases htail with ⟨start, stop, rfl⟩ | hends
  · exact absurd hrange (not_relative_of_absolute h)
  · exact hends

/-- What stands behind a literal up to the next one shows its letters, and they are all. -/
theorem no_letter_across {content : List Char} (hfront : '\'' ∉ front) (hcontent : '\'' ∉ content)
    (hletters : ∀ c ∈ content, c.isAlpha = false)
    (htail : ∀ c ∈ maskFrom true tail, c.isAlpha = false) :
    ∀ c ∈ maskFrom true (front ++ '\'' :: (content ++ '\'' :: tail)), c.isAlpha = false := by
  have hmask : maskFrom true (front ++ '\'' :: (content ++ '\'' :: tail)) =
      List.replicate (byteLength front) ' ' ++ '\'' :: (content ++ '\'' :: maskFrom true tail) := by
    rw [mask_from_content hfront]
    exact congrArg (_ ++ '\'' :: ·) (mask_append_of_no_quote hcontent)
  rw [hmask]
  simp only [List.mem_append, List.mem_cons]
  rintro c (hc | rfl | hc | rfl | hc)
  · rw [List.eq_of_mem_replicate hc]
    decide
  · decide
  · exact hletters c hc
  · decide
  · exact htail c hc

/-- Inside of a literal, no letter of the clause of a window is left in the mask. -/
theorem no_letter_inside (h : w.clause? = some clause) :
    ∀ c ∈ maskFrom true clause.toList, c.isAlpha = false := by
  obtain ⟨rest, hwrites⟩ := Window.writes_harmlessly_of_clause h
  have hnil : ∀ c ∈ maskFrom true [], c.isAlpha = false := by simp [maskFrom]
  cases hwrites with
  | @last amount unit _ =>
      rw [mask_inside_of_no_quote (Window.no_quote_in_relative amount.toNat unit)]
      intro c hc
      rw [List.eq_of_mem_replicate hc]
      decide
  | @start start _ hstart _ =>
      have htext : ("START '" ++ trim start ++ "'").toList =
          "START ".toList ++ '\'' :: ((trim start).toList ++ ['\'']) := by
        simp [String.toList_append]
      rw [htext]
      exact no_letter_across (by decide) hstart.no_single_quote hstart.no_ascii_letter hnil
  | @startStop start bound _ hstart hbound _ =>
      have htext : ("START '" ++ trim start ++ "' STOP '" ++ bound ++ "'").toList =
          "START ".toList ++ '\'' :: ((trim start).toList ++ '\'' ::
            (" STOP ".toList ++ '\'' :: (bound.toList ++ ['\'']))) := by
        simp [String.toList_append]
      rw [htext]
      exact no_letter_across (by decide) hstart.no_single_quote hstart.no_ascii_letter
        (no_letter_across (by decide) hbound.no_single_quote hbound.no_ascii_letter hnil)

end Clause

end Ariel.Template
