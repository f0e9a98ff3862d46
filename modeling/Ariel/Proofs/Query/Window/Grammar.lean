import Ariel.Proofs.Query.Window
import Ariel.Proofs.Text.Character
import Ariel.Proofs.Text.Reader
import Ariel.Query.Window.Parser

/-!
# The grammar of time clauses

A relative clause is `[LAST gap] amount gap unit`, an absolute one `START 'a' [gap STOP 'b']`, where
a gap is made of spaces, tabs and line ends. `RelativeText` and `AbsoluteText` say so of texts, and
`clause_of_eq_some_iff` says that the reader of clauses takes a whole text exactly when it has one
of the two forms.
-/

namespace Ariel.Query.Window

open Ariel.Text

/-- Spaces, tabs and line ends only. -/
def Gap (cs : List Char) : Prop := ∀ c ∈ cs, isGap c = true

/-- An amount in ASCII digits and a word in ASCII letters, with a gap between them. -/
structure AmountText (text amount unit : List Char) : Prop where
  amount_ne_nil : amount ≠ []
  amount_digits : ∀ c ∈ amount, c.isDigit = true
  unit_ne_nil : unit ≠ []
  unit_letters : ∀ c ∈ unit, c.isAlpha = true
  split : ∃ gap, text = amount ++ gap ++ unit ∧ gap ≠ [] ∧ Gap gap

/-- A relative clause: an amount and a unit, behind the keyword LAST or by themselves. -/
inductive RelativeText : (text amount unit : List Char) → Prop where
  | bare {text amount unit : List Char} :
      AmountText text amount unit → RelativeText text amount unit
  | last {word gap text amount unit : List Char} :
      capitals word = "LAST".toList → gap ≠ [] → Gap gap → AmountText text amount unit →
      RelativeText (word ++ gap ++ text) amount unit

/-- A keyword and a quoted text, with or without a gap between them. -/
def BoundText (keyword : String) (text content : List Char) : Prop :=
  ∃ word gap, text = word ++ gap ++ ('\'' :: content ++ ['\'']) ∧
    capitals word = keyword.toList ∧ Gap gap ∧ '\'' ∉ content

/-- An absolute clause: a start, and a stop behind a gap when there is one. -/
inductive AbsoluteText : (text start : List Char) → (stop : Option (List Char)) → Prop where
  | startOnly {text start : List Char} :
      BoundText "START" text start → AbsoluteText text start none
  | startStop {first gap second start stop : List Char} :
      BoundText "START" first start → gap ≠ [] → Gap gap → BoundText "STOP" second stop →
      AbsoluteText (first ++ gap ++ second) start (some stop)

/-- A text that has the form of a clause. -/
def ClauseText (text : List Char) : Clause → Prop
  | .relative amount unit => RelativeText text amount unit
  | .absolute start stop => AbsoluteText text start stop

/-- A gap is taken up to the first character that is none. -/
theorem gap_eq_some_iff {cs rest : List Char} :
    gap? cs = some rest ↔ ∃ gap, cs = gap ++ rest ∧ gap ≠ [] ∧ Gap gap ∧
      ∀ c ∈ rest.head?, isGap c = false := by
  rw [show gap? cs = run? isGap cs by cases cs <;> rfl]
  exact run_eq_some_iff

/-- The characters of a gap, as code points. -/
theorem is_gap_iff {c : Char} :
    isGap c = true ↔ c = ' ' ∨ c = '\t' ∨ c = '\r' ∨ c = '\n' := by
  simp [isGap, or_assoc]

/-- A letter ends a gap. -/
theorem is_gap_of_alpha {c : Char} (h : c.isAlpha = true) : isGap c = false := by
  refine Bool.eq_false_iff.mpr fun hgap => ?_
  rcases is_gap_iff.mp hgap with rfl | rfl | rfl | rfl <;> exact absurd h (by decide)

/-- A digit ends a gap. -/
theorem is_gap_of_digit {c : Char} (h : c.isDigit = true) : isGap c = false := by
  refine Bool.eq_false_iff.mpr fun hgap => ?_
  rcases is_gap_iff.mp hgap with rfl | rfl | rfl | rfl <;> exact absurd h (by decide)

/-- A gap begins with no digit. -/
theorem is_digit_of_gap {c : Char} (h : isGap c = true) : c.isDigit = false :=
  Bool.eq_false_iff.mpr fun hdigit => by simp [is_gap_of_digit hdigit] at h

/-- The first character of a keyword in any letter case has the keyword's first letter as its
capital. -/
theorem head_of_capitals {word : List Char} {letter : Char} {letters : List Char}
    (h : capitals word = letter :: letters) :
    ∃ c rest, word = c :: rest ∧ c.toUpper = letter := by
  cases word with
  | nil => cases h
  | cons c rest => exact ⟨c, rest, rfl, (List.cons.inj h).1⟩

/-- A bound is taken from a text that begins with one. -/
theorem bound_take_iff {keyword : String} {cs content rest : List Char} :
    bound keyword cs = some (content, rest) ↔
      ∃ text, cs = text ++ rest ∧ BoundText keyword text content := by
  simp only [bound, bind, Option.bind_eq_some_iff, keyword_eq_some_iff, quoted_text_eq_some_iff]
  constructor
  · rintro ⟨_, ⟨word, rfl, hword⟩, hquoted, hcontent⟩
    rename_i tail
    refine ⟨word ++ tail.takeWhile isGap ++ ('\'' :: content ++ ['\'']), ?_, word,
      tail.takeWhile isGap, rfl, hword, fun c hc => List.mem_takeWhile_imp hc, hcontent⟩
    calc
      word ++ tail = word ++ (tail.takeWhile isGap ++ tail.dropWhile isGap) := by
        rw [List.takeWhile_append_dropWhile]
      _ = _ := by rw [hquoted]; simp
  · rintro ⟨_, rfl, word, gap, rfl, hword, hgap, hcontent⟩
    refine ⟨gap ++ ('\'' :: content ++ '\'' :: rest), ⟨word, by simp, hword⟩, ?_, hcontent⟩
    exact drop_while_append hgap (by simp [isGap])

/-- An absolute clause is taken from a text that begins with one. -/
theorem absolute_clause_sound {cs rest : List Char} {clause : Clause}
    (h : absoluteClause? cs = some (clause, rest)) :
    ∃ text, cs = text ++ rest ∧ ClauseText text clause := by
  simp only [absoluteClause?, bind, Option.bind_eq_some_iff] at h
  obtain ⟨⟨start, tail⟩, hstart, h⟩ := h
  obtain ⟨first, rfl, hfirst⟩ := bound_take_iff.mp hstart
  split at h
  next stop last hstop =>
    cases h
    obtain ⟨afterGap, hgap, hbound⟩ := Option.bind_eq_some_iff.mp hstop
    obtain ⟨gap, hsplit, hne, hchars, -⟩ := gap_eq_some_iff.mp hgap
    obtain ⟨second, rfl, hsecond⟩ := bound_take_iff.mp hbound
    refine ⟨first ++ gap ++ second, ?_, .startStop hfirst hne hchars hsecond⟩
    rw [show tail = gap ++ (second ++ rest) from hsplit]
    simp
  next =>
    cases h
    exact ⟨first, rfl, .startOnly hfirst⟩

/-- A whole absolute clause is taken to its end. -/
theorem absolute_clause_complete {text start : List Char} {stop : Option (List Char)}
    (h : AbsoluteText text start stop) :
    absoluteClause? text = some (.absolute start stop, []) := by
  cases h with
  | startOnly hstart =>
      have hbound : bound "START" text = some (start, []) :=
        bound_take_iff.mpr ⟨text, by simp, hstart⟩
      simp [absoluteClause?, hbound, gap?]
  | @startStop first gap second _ stop hstart hne hgap hstop =>
      have hbound : bound "START" (first ++ gap ++ second) = some (start, gap ++ second) :=
        bound_take_iff.mpr ⟨first, by simp, hstart⟩
      have hstopBound : bound "STOP" second = some (stop, []) :=
        bound_take_iff.mpr ⟨second, by simp, hstop⟩
      have hend : gap? (gap ++ second) = some second := by
        refine gap_eq_some_iff.mpr ⟨gap, rfl, hne, hgap, ?_⟩
        obtain ⟨word, _, rfl, hword, -⟩ := hstop
        obtain ⟨c, letters, rfl, hc⟩ := head_of_capitals hword
        intro d hd
        obtain rfl : c = d := by simpa using hd
        exact is_gap_of_alpha (by rw [← is_alpha_to_upper, hc]; decide)
      simp only [absoluteClause?, hbound, bind, Option.bind_some, hend, hstopBound]

/-- The amount and the unit are taken from a text that begins with them. -/
theorem amount_sound {cs amount unit afterGap : List Char}
    (hamount : amount = cs.takeWhile Char.isDigit) (hne : amount ≠ [])
    (hgap : gap? (cs.dropWhile Char.isDigit) = some afterGap)
    (hunit : unit = afterGap.takeWhile Char.isAlpha) (hunitNe : unit ≠ []) :
    ∃ text, cs = text ++ afterGap.dropWhile Char.isAlpha ∧ AmountText text amount unit := by
  obtain ⟨gap, hsplit, hgapNe, hgap, -⟩ := gap_eq_some_iff.mp hgap
  refine ⟨amount ++ gap ++ unit, ?_, ⟨hne, ?_, hunitNe, ?_, gap, rfl, hgapNe, hgap⟩⟩
  · calc
      cs = amount ++ cs.dropWhile Char.isDigit := by
        rw [hamount, List.takeWhile_append_dropWhile]
      _ = amount ++ (gap ++ afterGap) := by rw [hsplit]
      _ = amount ++ gap ++ (unit ++ afterGap.dropWhile Char.isAlpha) := by
        rw [hunit, List.takeWhile_append_dropWhile, List.append_assoc]
      _ = _ := by simp
  · intro c hc
    exact List.mem_takeWhile_imp (hamount ▸ hc)
  · intro c hc
    exact List.mem_takeWhile_imp (hunit ▸ hc)

/-- A relative clause is taken from a text that begins with one. -/
theorem relative_clause_sound {cs rest : List Char} {clause : Clause}
    (h : relativeClause? cs = some (clause, rest)) :
    ∃ text, cs = text ++ rest ∧ ClauseText text clause := by
  simp only [relativeClause?, bind, Option.bind_eq_some_iff, guard_eq_some_iff, pure] at h
  obtain ⟨-, hamount, afterGap, hgap, -, hunit, h⟩ := h
  cases h
  obtain ⟨text, hsplit, htext⟩ := amount_sound rfl (by simpa using hamount) hgap rfl
    (by simpa using hunit)
  -- Without LAST and a gap behind it, the amount is taken from the beginning.
  cases hlast : (keyword? "LAST" cs).bind gap? with
  | none =>
      rw [hlast] at hsplit htext
      exact ⟨text, hsplit, .bare htext⟩
  | some tail =>
      rw [hlast] at hsplit htext
      obtain ⟨afterWord, hword, htail⟩ := Option.bind_eq_some_iff.mp hlast
      obtain ⟨word, rfl, hcapitals⟩ := keyword_eq_some_iff.mp hword
      obtain ⟨gap, rfl, hne, hchars, -⟩ := gap_eq_some_iff.mp htail
      refine ⟨word ++ gap ++ text, ?_, .last hcapitals hne hchars htext⟩
      rw [show tail = text ++ _ from hsplit]
      simp

/-- The gap behind an amount, and the unit behind the gap, are taken to their end. -/
theorem amount_complete {text amount unit : List Char} (h : AmountText text amount unit) :
    text.takeWhile Char.isDigit = amount ∧
      gap? (text.dropWhile Char.isDigit) = some unit ∧
      unit.takeWhile Char.isAlpha = unit ∧ unit.dropWhile Char.isAlpha = [] := by
  obtain ⟨gap, rfl, hne, hgap⟩ := h.split
  have hgapHead : ∀ c ∈ (gap ++ unit).head?, c.isDigit = false :=
    head_of_run hne fun c hc => is_digit_of_gap (hgap c hc)
  have hunitHead : ∀ c ∈ unit.head?, isGap c = false := fun c hc =>
    is_gap_of_alpha (h.unit_letters c (List.mem_of_mem_head? hc))
  rw [List.append_assoc, take_while_append h.amount_digits hgapHead,
    drop_while_append h.amount_digits hgapHead]
  exact ⟨rfl, gap_eq_some_iff.mpr ⟨gap, rfl, hne, hgap, hunitHead⟩,
    List.takeWhile_eq_self_iff.mpr h.unit_letters, List.dropWhile_eq_nil_iff.mpr h.unit_letters⟩

/-- An amount begins with a digit. -/
theorem AmountText.head {text amount unit : List Char} (h : AmountText text amount unit) :
    ∃ c cs, text = c :: cs ∧ c.isDigit = true := by
  obtain ⟨gap, rfl, -, -⟩ := h.split
  obtain ⟨c, cs, rfl⟩ := List.exists_cons_of_ne_nil h.amount_ne_nil
  exact ⟨c, _, rfl, h.amount_digits c (by simp)⟩

/-- A keyword is not taken from a text that begins with a digit. -/
theorem keyword_of_digit {word : String} {letter : Char} {letters cs : List Char} {c : Char}
    (hword : word.toList = letter :: letters) (hletter : letter.isAlpha = true)
    (hc : c.isDigit = true) : keyword? word (c :: cs) = none := by
  cases h : keyword? word (c :: cs) with
  | none => rfl
  | some rest =>
      obtain ⟨taken, hsplit, htaken⟩ := keyword_eq_some_iff.mp h
      obtain ⟨d, ds, rfl, hd⟩ := head_of_capitals (htaken.trans hword)
      obtain rfl : c = d := (List.cons.inj hsplit).1
      rw [to_upper_of_digit hc] at hd
      rw [← hd, is_alpha_iff] at hletter
      rw [is_digit_iff] at hc
      omega

/-- A whole relative clause is taken to its end. -/
theorem relative_clause_complete {text amount unit : List Char}
    (h : RelativeText text amount unit) :
    relativeClause? text = some (.relative amount unit, []) := by
  -- What is left after the optional keyword is the amount and the unit.
  obtain ⟨body, hbody, htext⟩ : ∃ body, ((keyword? "LAST" text).bind gap?).getD text = body ∧
      AmountText body amount unit := by
    cases h with
    | bare hamount =>
        obtain ⟨c, cs, rfl, hc⟩ := hamount.head
        refine ⟨c :: cs, ?_, hamount⟩
        rw [keyword_of_digit (by rfl) (by decide) hc]
        rfl
    | @last word gap text _ _ hword hne hgap hamount =>
        refine ⟨text, ?_, hamount⟩
        have hkeyword : keyword? "LAST" (word ++ gap ++ text) = some (gap ++ text) :=
          keyword_eq_some_iff.mpr ⟨word, by simp, hword⟩
        have htake : gap? (gap ++ text) = some text := by
          obtain ⟨c, cs, rfl, hc⟩ := hamount.head
          refine gap_eq_some_iff.mpr ⟨gap, rfl, hne, hgap, ?_⟩
          simpa using is_gap_of_digit hc
        rw [hkeyword, Option.bind_some, htake]
        rfl
  obtain ⟨hamount, hgap, hunit, hend⟩ := amount_complete htext
  have hamountNe : (!amount.isEmpty) = true := by simpa using htext.amount_ne_nil
  have hunitNe : (!unit.isEmpty) = true := by simpa using htext.unit_ne_nil
  simp only [relativeClause?, hbody, hamount, hgap, hunit, hend, hamountNe, hunitNe, guard,
    if_true, bind, pure, Option.bind_some]

/-- A relative clause does not begin with START. -/
theorem absolute_clause_of_relative {text amount unit : List Char}
    (h : RelativeText text amount unit) : absoluteClause? text = none := by
  suffices hkeyword : keyword? "START" text = none by
    simp [absoluteClause?, bound, hkeyword]
  cases h with
  | bare hamount =>
      obtain ⟨c, cs, rfl, hc⟩ := hamount.head
      exact keyword_of_digit (by rfl) (by decide) hc
  | @last word gap _ _ _ hword _ _ _ =>
      obtain ⟨c, cs, rfl, hc⟩ := head_of_capitals hword
      cases hstart : keyword? "START" (c :: cs ++ gap ++ _) with
      | none => rfl
      | some rest =>
          obtain ⟨taken, hsplit, htaken⟩ := keyword_eq_some_iff.mp hstart
          obtain ⟨d, ds, rfl, hd⟩ := head_of_capitals htaken
          obtain rfl : c = d := (List.cons.inj hsplit).1
          exact absurd (hc.symm.trans hd) (by decide)

/-- A whole text is taken as a clause exactly when it has the form of that clause. -/
theorem clause_of_eq_some_iff {text : List Char} {clause : Clause} :
    clauseOf? text = some (clause, []) ↔ ClauseText text clause := by
  constructor
  · intro h
    rcases Option.or_eq_some_iff.mp h with h | ⟨-, h⟩
    · obtain ⟨_, hsplit, hclause⟩ := absolute_clause_sound h
      simpa [hsplit] using hclause
    · obtain ⟨_, hsplit, hclause⟩ := relative_clause_sound h
      simpa [hsplit] using hclause
  · intro h
    cases clause with
    | relative amount unit =>
        rw [clauseOf?, absolute_clause_of_relative h, Option.none_or]
        exact relative_clause_complete h
    | absolute start stop =>
        rw [clauseOf?, absolute_clause_complete h]
        rfl

/-- What a clause leaves of a text is a tail of it. -/
theorem clause_of_suffix {text rest : List Char} {clause : Clause}
    (h : clauseOf? text = some (clause, rest)) : ∃ front, text = front ++ rest := by
  rcases Option.or_eq_some_iff.mp h with h | ⟨-, h⟩
  · obtain ⟨front, hsplit, -⟩ := absolute_clause_sound h
    exact ⟨front, hsplit⟩
  · obtain ⟨front, hsplit, -⟩ := relative_clause_sound h
    exact ⟨front, hsplit⟩

end Ariel.Query.Window
