import Ariel.Proofs.Calendar.Datetime
import Ariel.Proofs.Query.Window.Parser

/-!
# Writing and reading windows

Writing a sound window and reading its clause gives the window back, with its bounds trimmed; and
what is read from any text is sound, trimmed, and given back by its own clause. Both halves are
`parse_clause_round_trip`.
-/

namespace Ariel.Query.Window

open Ariel.Text Ariel.Calendar

/-- No quote stands in a datetime. -/
theorem IsDatetime.quote_not_mem {cs : List Char} (h : IsDatetime cs) : '\'' ∉ trimmed cs :=
  fun hquote => absurd (datetime_chars h _ hquote) (by decide)

/-- The clause of a relative window that looks back. -/
theorem clause_relative {n : UInt32} (hn : n ≠ 0) (u : TimeUnit) :
    clause? (.relative n u) = some ("LAST " ++ decimal n.toNat ++ " " ++ u.keyword) := by
  have hcheck : check (.relative n u) = .ok () := check_eq_ok_iff.mpr hn
  simp only [clause?, hcheck]

/-- The clause of a sound absolute window without a stop. -/
theorem clause_start {start : String} {stop : Option String} (h : (absolute start stop).Sound)
    (hstop : bound? stop = none) :
    clause? (.absolute start stop) = some ("START '" ++ trim start ++ "'") := by
  have hcheck : check (.absolute start stop) = .ok () := check_eq_ok_iff.mpr h
  simp only [clause?, hcheck, hstop]

/-- The clause of a sound absolute window with a stop. -/
theorem clause_start_stop {start bound : String} {stop : Option String}
    (h : (absolute start stop).Sound) (hstop : bound? stop = some bound) :
    clause? (.absolute start stop) =
      some ("START '" ++ trim start ++ "' STOP '" ++ bound ++ "'") := by
  have hcheck : check (.absolute start stop) = .ok () := check_eq_ok_iff.mpr h
  simp only [clause?, hcheck, hstop]

/-- Trimming the bounds of a sound window does not change its clause. -/
theorem clause_normal {w : Window} (h : w.Sound) : w.normal.clause? = w.clause? := by
  cases w with
  | unbounded => rfl
  | relative n u => rfl
  | absolute start stop =>
      have hnormal : (absolute (trim start) (bound? stop)).Sound := sound_normal.mpr h
      cases hstop : bound? stop with
      | none =>
          rw [normal, clause_start h hstop, clause_start hnormal (by rw [bound_bound, hstop]),
            trim_trim]
      | some bound =>
          rw [normal, clause_start_stop h hstop,
            clause_start_stop hnormal (by rw [bound_bound, hstop]), trim_trim]

/-- The keyword of a unit is one of its words. -/
theorem names_unit_keyword (u : TimeUnit) : NamesUnit u.keyword.toList u := by
  cases u <;> decide

/-- A keyword, a space and a quoted text without quotes are a bound. -/
theorem bound_text (keyword : String) {content : List Char}
    (hkeyword : capitals keyword.toList = keyword.toList) (hcontent : '\'' ∉ content) :
    BoundText keyword (keyword.toList ++ [' '] ++ ('\'' :: content ++ ['\''])) content :=
  ⟨keyword.toList, [' '], rfl, hkeyword, by simp [Gap, isGap], hcontent⟩

/-- The clause of a relative window denotes it. -/
theorem denotes_relative {n : UInt32} (hn : n ≠ 0) (u : TimeUnit) :
    Denotes ("LAST " ++ decimal n.toNat ++ " " ++ u.keyword).toList (.relative n u) := by
  have hamount : AmountText ((decimal n.toNat).toList ++ [' '] ++ u.keyword.toList)
      (decimal n.toNat).toList u.keyword.toList :=
    ⟨decimal_ne_nil _, fun c hc => is_digit_of_decimal hc, by cases u <;> decide,
      List.all_eq_true.mp (by cases u <;> decide), [' '], rfl, by simp, by simp [Gap, isGap]⟩
  have htext : RelativeText ("LAST".toList ++ [' '] ++ ((decimal n.toNat).toList ++ [' '] ++
      u.keyword.toList)) (decimal n.toNat).toList u.keyword.toList :=
    .last (by decide) (by simp) (by simp [Gap, isGap]) hamount
  have hpos : 0 < n.toNat := Nat.pos_of_ne_zero fun h => hn (UInt32.toNat_inj.mp h)
  have hmeans : Clause.Means (.relative (decimal n.toNat).toList u.keyword.toList)
      (.relative n u) := .relative (digits_value_decimal _) hpos (names_unit_keyword u)
  have hclause : ClauseText _ (.relative _ _) := htext
  have hdenotes := Denotes.clause hclause hmeans
  simpa [String.toList_append] using hdenotes

/-- The clause of an absolute window without a stop denotes it, its start trimmed. -/
theorem denotes_start {start : String} (hstart : IsDatetime start.toList) :
    Denotes ("START '" ++ trim start ++ "'").toList (.absolute (trim start) none) := by
  have hbound := bound_text "START" (by decide) hstart.quote_not_mem
  have hclause : ClauseText _ (.absolute _ none) := .startOnly hbound
  have hmeans := Clause.Means.startOnly (is_datetime_trimmed.mpr hstart)
  have hdenotes := Denotes.clause hclause hmeans
  rw [trimmed_trimmed] at hdenotes
  simpa [String.toList_append, trim] using hdenotes

/-- The clause of an absolute window with a stop denotes it, its bounds trimmed. -/
theorem denotes_start_stop {start stop : String} (hstart : IsDatetime start.toList)
    (hstop : IsDatetime stop.toList) :
    Denotes ("START '" ++ trim start ++ "' STOP '" ++ trim stop ++ "'").toList
      (.absolute (trim start) (some (trim stop))) := by
  have hfirst := bound_text "START" (by decide) hstart.quote_not_mem
  have hsecond := bound_text "STOP" (by decide) hstop.quote_not_mem
  have hgap : Gap [' '] := by simp [Gap, isGap]
  have hclause : ClauseText _ (.absolute _ (some _)) :=
    .startStop hfirst (by simp) hgap hsecond
  have hmeans := Clause.Means.startStop (is_datetime_trimmed.mpr hstart)
    (is_datetime_trimmed.mpr hstop)
  have hdenotes := Denotes.clause hclause hmeans
  rw [trimmed_trimmed, trimmed_trimmed] at hdenotes
  simpa [String.toList_append, trim] using hdenotes

/-- A sound window that is not unbounded has a clause, and the clause denotes the window with its
bounds trimmed. -/
theorem clause_denotes {w : Window} (hw : w.Sound) (hne : w ≠ .unbounded) :
    ∃ text, w.clause? = some text ∧ Denotes text.toList w.normal := by
  cases w with
  | unbounded => exact absurd rfl hne
  | relative n u => exact ⟨_, clause_relative hw u, denotes_relative hw u⟩
  | absolute start stop =>
      cases stop with
      | none => exact ⟨_, clause_start hw rfl, denotes_start hw.1⟩
      | some s =>
          -- A blank stop counts as none.
          by_cases hblank : trimmed s.toList = []
          · have hstop : bound? (some s) = none := by rw [bound_some, if_pos hblank]
            refine ⟨_, clause_start hw hstop, ?_⟩
            rw [normal, hstop]
            exact denotes_start hw.1
          · have hstop : bound? (some s) = some (trim s) := by rw [bound_some, if_neg hblank]
            have hs : IsDatetime s.toList := by simpa using hw.2 _ hstop
            refine ⟨_, clause_start_stop hw hstop, ?_⟩
            rw [normal, hstop]
            exact denotes_start_stop hw.1 hs

/-- Only a sound window has a clause. -/
theorem sound_of_clause {w : Window} {text : String} (h : w.clause? = some text) : w.Sound := by
  refine check_eq_ok_iff.mp ?_
  cases hcheck : w.check with
  | ok => rfl
  | error e => simp [clause?, hcheck] at h

/-- How the clause of a window is written. -/
inductive Shows : Window → String → Prop where
  | last {amount : UInt32} (unit : TimeUnit) : amount ≠ 0 →
      Shows (.relative amount unit) ("LAST " ++ decimal amount.toNat ++ " " ++ unit.keyword)
  | start {start : String} {stop : Option String} :
      IsDatetime start.toList → bound? stop = none →
      Shows (.absolute start stop) ("START '" ++ trim start ++ "'")
  | startStop {start bound : String} {stop : Option String} :
      IsDatetime start.toList → IsDatetime bound.toList → bound? stop = some (trim bound) →
      Shows (.absolute start stop) ("START '" ++ trim start ++ "' STOP '" ++ trim bound ++ "'")

/-- A clause is written in one of three ways. -/
theorem shows_of_clause {w : Window} {text : String} (h : w.clause? = some text) :
    w.Shows text := by
  have hsound := sound_of_clause h
  cases w with
  | unbounded => cases h
  | relative n u =>
      rw [clause_relative hsound u] at h
      obtain rfl := Option.some.inj h
      exact .last u hsound
  | absolute start stop =>
      cases hstop : bound? stop with
      | none =>
          rw [clause_start hsound hstop] at h
          obtain rfl := Option.some.inj h
          exact .start hsound.1 hstop
      | some bound =>
          have htrim := trim_of_mem_bound hstop
          rw [clause_start_stop hsound hstop] at h
          obtain rfl := Option.some.inj h
          rw [← htrim]
          exact .startStop hsound.1 (hsound.2 bound hstop) (by rw [htrim, hstop])

/-- What a clause is written in: ASCII letters, single quotes and the characters of datetimes. -/
def isClauseChar (c : Char) : Bool :=
  c.isAlpha || c == '\'' || isDatetimeChar c

/-- The clause of a window is written in the characters of clauses. -/
theorem clause_chars {w : Window} {text : String} (h : w.clause? = some text) :
    ∀ c ∈ text.toList, isClauseChar c = true := by
  have hdatetime : ∀ {cs : List Char}, IsDatetime cs → ∀ c ∈ trimmed cs, isClauseChar c = true :=
    fun hcs c hc => by simp [isClauseChar, datetime_chars hcs c hc]
  cases shows_of_clause h with
  | @last amount unit _ =>
      simp only [String.toList_append, List.mem_append]
      rintro c (((hc | hc) | hc) | hc)
      · exact List.all_eq_true.mp (by decide) c hc
      · simp [isClauseChar, isDatetimeChar, is_digit_of_decimal hc]
      · exact List.all_eq_true.mp (by decide) c hc
      · exact List.all_eq_true.mp (by cases unit <;> decide) c hc
  | start hstart _ =>
      simp only [String.toList_append, List.mem_append, to_list_trim]
      rintro c ((hc | hc) | hc)
      · exact List.all_eq_true.mp (by decide) c hc
      · exact hdatetime hstart c hc
      · exact List.all_eq_true.mp (by decide) c hc
  | startStop hstart hbound _ =>
      simp only [String.toList_append, List.mem_append, to_list_trim]
      rintro c ((((hc | hc) | hc) | hc) | hc)
      · exact List.all_eq_true.mp (by decide) c hc
      · exact hdatetime hstart c hc
      · exact List.all_eq_true.mp (by decide) c hc
      · exact hdatetime hbound c hc
      · exact List.all_eq_true.mp (by decide) c hc

/-- The clause of a window has no outer blanks. -/
theorem trimmed_clause {w : Window} {text : String} (h : w.clause? = some text) :
    trimmed text.toList = text.toList := by
  have hw := sound_of_clause h
  cases w with
  | unbounded => cases h
  | relative n u =>
      rw [clause_relative hw] at h
      cases h
      obtain ⟨middle, hkeyword⟩ : ∃ middle, u.keyword.toList = middle ++ ['S'] := by
        cases u
        · exact ⟨"MINUTE".toList, rfl⟩
        · exact ⟨"HOUR".toList, rfl⟩
        · exact ⟨"DAY".toList, rfl⟩
      simpa [String.toList_append, hkeyword] using
        trimmed_between 'L' 'S'
          ("AST ".toList ++ (decimal n.toNat).toList ++ " ".toList ++ middle)
          (by decide) (by decide)
  | absolute start stop =>
      cases hstop : bound? stop with
      | none =>
          rw [clause_start hw hstop] at h
          cases h
          simpa [String.toList_append] using
            trimmed_between 'S' '\'' ("TART '".toList ++ trimmed start.toList)
              (by decide) (by decide)
      | some bound =>
          rw [clause_start_stop hw hstop] at h
          cases h
          simpa [String.toList_append] using
            trimmed_between 'S' '\''
              ("TART '".toList ++ trimmed start.toList ++ "' STOP '".toList ++ bound.toList)
              (by decide) (by decide)

/-- A sound window that is not unbounded has a clause, which is read as the window with its bounds
trimmed. -/
theorem parse_clause {w : Window} (hw : w.Sound) (hne : w ≠ .unbounded) :
    ∃ text, w.clause? = some text ∧ parse text = .ok w.normal := by
  obtain ⟨text, hclause, hdenotes⟩ := clause_denotes hw hne
  refine ⟨text, hclause, parse_eq_ok_iff.mpr ?_⟩
  rwa [trimmed_clause hclause]

/-- What a clause means is sound. -/
theorem Clause.Means.sound {clause : Clause} {w : Window} (h : clause.Means w) : w.Sound := by
  cases h with
  | relative _ hpos _ =>
      rintro rfl
      exact absurd hpos (by decide)
  | startOnly hstart | blankStop hstart _ => simpa [Sound] using hstart
  | startStop hstart hstop =>
      simpa [Sound, bound_some, trim, hstop.ne_nil] using And.intro hstart hstop

/-- What a clause means has trimmed bounds. -/
theorem Clause.Means.normal_eq {clause : Clause} {w : Window} (h : clause.Means w) :
    w.normal = w := by
  cases h with
  | relative _ _ _ => rfl
  | startOnly _ | blankStop _ _ => simp [normal, trim]
  | startStop _ hstop => simp [normal, bound_some, trim, hstop.ne_nil]

/-- What is read from a text is sound and has trimmed bounds. -/
theorem sound_of_parse {text : String} {w : Window} (h : parse text = .ok w) :
    w.Sound ∧ w.normal = w := by
  have hdenotes := parse_eq_ok_iff.mp h
  generalize trimmed text.toList = cs at hdenotes
  cases hdenotes with
  | unbounded => exact ⟨trivial, rfl⟩
  | clause _ hmeans => exact ⟨hmeans.sound, hmeans.normal_eq⟩

/-- Writing and reading are inverse. A sound window that is not unbounded is written as a clause
that is read as the same window with its bounds trimmed, and the trimmed window is written in the
same way. Conversely, what is read from any text is sound and trimmed, and its clause is read as
itself. -/
theorem parse_clause_round_trip :
    (∀ w : Window, w.check = .ok () → w ≠ .unbounded →
      ∃ text, w.clause? = some text ∧ parse text = .ok w.normal ∧
        w.normal.clause? = some text) ∧
    ∀ (text : String) (w : Window), parse text = .ok w →
      w.check = .ok () ∧ w.normal = w ∧
        (w ≠ .unbounded → ∃ clause, w.clause? = some clause ∧ parse clause = .ok w) := by
  constructor
  · intro w hcheck hne
    have hw : w.Sound := check_eq_ok_iff.mp hcheck
    obtain ⟨text, hclause, hparse⟩ := parse_clause hw hne
    exact ⟨text, hclause, hparse, (clause_normal hw).trans hclause⟩
  · intro text w hparse
    obtain ⟨hw, hnormal⟩ := sound_of_parse hparse
    refine ⟨check_eq_ok_iff.mpr hw, hnormal, fun hne => ?_⟩
    obtain ⟨clause, hclause, hread⟩ := parse_clause hw hne
    exact ⟨clause, hclause, hnormal ▸ hread⟩

/-- A start with outer blanks and a blank stop, and an amount with leading zeros. -/
theorem parse_clause_round_trip_padded :
    (absolute " 2024-01-01 00:00 " (some " ")).check = .ok () ∧
    (∃ text, (absolute " 2024-01-01 00:00 " (some " ")).clause? = some text ∧
      parse text = .ok (absolute "2024-01-01 00:00" none)) ∧
    parse "last 007 h" = .ok (.relative 7 .hours) ∧
    ∃ clause, (relative 7 .hours).clause? = some clause ∧
      parse clause = .ok (.relative 7 .hours) := by
  have hpadded : (absolute " 2024-01-01 00:00 " (some " ")).check = .ok () := by
    have hstart : IsDatetime " 2024-01-01 00:00 ".toList := by unfold IsDatetime; decide +kernel
    have hstop : bound? (some " ") = none := by decide
    exact check_eq_ok_iff.mpr ⟨hstart, by simp [hstop]⟩
  have hread : parse "last 007 h" = .ok (.relative 7 .hours) := by
    have hamount : AmountText "007 h".toList "007".toList "h".toList :=
      ⟨by decide, List.all_eq_true.mp (by decide), by decide, List.all_eq_true.mp (by decide),
        [' '], by decide, by decide, by simp [Gap, isGap]⟩
    have hword : capitals "last".toList = "LAST".toList := by decide
    have hclause : ClauseText "last 007 h".toList (.relative "007".toList "h".toList) :=
      .last hword (List.cons_ne_nil ' ' []) (by simp [Gap, isGap]) hamount
    have hmeans : Clause.Means (.relative "007".toList "h".toList) (.relative 7 .hours) :=
      .relative (by decide) (by decide) (by decide)
    have htrimmed : trimmed "last 007 h".toList = "last 007 h".toList := by decide
    exact parse_eq_ok_iff.mpr (htrimmed ▸ .clause hclause hmeans)
  have hnormal : (absolute " 2024-01-01 00:00 " (some " ")).normal =
      absolute "2024-01-01 00:00" none := by decide +kernel
  obtain ⟨text, hclause, hparse, -⟩ := parse_clause_round_trip.1 _ hpadded (by decide)
  exact ⟨hpadded, ⟨text, hclause, hnormal ▸ hparse⟩, hread,
    (parse_clause_round_trip.2 _ _ hread).2.2 (by decide)⟩

end Ariel.Query.Window
