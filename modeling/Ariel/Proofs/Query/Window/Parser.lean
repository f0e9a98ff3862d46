import Ariel.Proofs.Query.Window.Grammar

/-!
# What time clauses denote

`Denotes` gives the window that a text stands for, by the form of the text alone, and `UnknownUnit`
names the texts whose only fault is their unit. `parse_eq_ok_iff` and `parse_eq_unknown_unit_iff`
say that `Window.parse` decides both.
-/

namespace Ariel.Query

open Ariel.Text

/-- The words that name a unit, in capitals. -/
def TimeUnit.words : TimeUnit → List String
  | .minutes => ["MINUTES", "MINUTE", "MIN", "M"]
  | .hours => ["HOURS", "HOUR", "H"]
  | .days => ["DAYS", "DAY", "D"]

/-- A keyword is read as the unit that it is a word for. -/
theorem TimeUnit.of_keyword_eq_ok_iff {s : String} {u : TimeUnit} :
    TimeUnit.ofKeyword s = .ok u ↔ uppercase (trim s) ∈ u.words := by
  unfold TimeUnit.ofKeyword
  split <;> cases u <;> simp_all [TimeUnit.words]

/-- A keyword that names no unit fails with its capitals. -/
theorem TimeUnit.of_keyword_eq_error_iff {s : String} {e : QueryError} :
    TimeUnit.ofKeyword s = .error e ↔
      e = .unknownTimeUnit (uppercase (trim s)) ∧ ∀ u : TimeUnit, uppercase (trim s) ∉ u.words := by
  cases h : TimeUnit.ofKeyword s with
  | ok u =>
      simp only [reduceCtorEq, false_iff, not_and, not_forall, not_not]
      exact fun _ => ⟨u, TimeUnit.of_keyword_eq_ok_iff.mp h⟩
  | error e' =>
      have hnone : ∀ u : TimeUnit, uppercase (trim s) ∉ u.words := by
        intro u hu
        rw [TimeUnit.of_keyword_eq_ok_iff.mpr hu] at h
        cases h
      have he : e' = .unknownTimeUnit (uppercase (trim s)) := by
        unfold TimeUnit.ofKeyword at h
        split at h <;> cases h
        rfl
      simp [hnone, he, eq_comm]

/-- The upper-case form of a word in ASCII letters is its capitals. -/
theorem uppercase_of_letters {cs : List Char} (h : ∀ c ∈ cs, c.isAlpha = true) :
    uppercase (trim (String.ofList cs)) = String.ofList (capitals cs) := by
  have htrim : trimmed cs = cs :=
    trimmed_of_ends (fun c hc => is_blank_of_alpha (h c (List.mem_of_mem_head? hc)))
      (fun c hc => is_blank_of_alpha (h c (List.mem_of_mem_getLast? hc)))
  have hchars : cs.flatMap uppercaseChar = capitals cs := by
    rw [capitals, List.map_eq_flatMap]
    refine List.flatMap_congr fun c hc => ?_
    have hascii : c.toNat < 0x80 := by
      have := is_alpha_iff.mp (h c hc)
      omega
    rw [uppercaseChar, if_pos hascii]
  rw [trim, String.toList_ofList, htrim, uppercase, String.toList_ofList, hchars]

namespace Window

/-- A word, in any ASCII letter case, names a unit. -/
def NamesUnit (word : List Char) (u : TimeUnit) : Prop :=
  String.ofList (capitals word) ∈ u.words

/-- Naming a unit is decided by looking through the words for it. -/
instance (word : List Char) (u : TimeUnit) : Decidable (NamesUnit word u) :=
  inferInstanceAs (Decidable (_ ∈ _))

/-- The window that a clause stands for: a positive 32-bit amount of a known unit, or bounds that
are datetimes, trimmed, of which a blank stop counts as none. -/
inductive Clause.Means : Clause → Window → Prop where
  | relative {amount unit : List Char} {n : UInt32} {u : TimeUnit} :
      digitsValue amount = n.toNat → 0 < n.toNat → NamesUnit unit u →
      Clause.Means (.relative amount unit) (.relative n u)
  | startOnly {start : List Char} :
      IsDatetime start →
      Clause.Means (.absolute start none) (.absolute (String.ofList (trimmed start)) none)
  | blankStop {start stop : List Char} :
      IsDatetime start → (∀ c ∈ stop, isBlank c = true) →
      Clause.Means (.absolute start (some stop)) (.absolute (String.ofList (trimmed start)) none)
  | startStop {start stop : List Char} :
      IsDatetime start → IsDatetime stop →
      Clause.Means (.absolute start (some stop))
        (.absolute (String.ofList (trimmed start)) (some (String.ofList (trimmed stop))))

/-- The window that a text without outer blanks stands for: none for the empty text, otherwise what
the clause means that the text has the form of. -/
inductive Denotes : (text : List Char) → Window → Prop where
  | unbounded : Denotes [] .unbounded
  | clause {text : List Char} {clause : Clause} {w : Window} :
      ClauseText text clause → clause.Means w → Denotes text w

/-- A text is a relative clause whose amount is a 32-bit number and whose unit, in capitals, is
`name`, which is no word for a unit. -/
def UnknownUnit (text : List Char) (name : String) : Prop :=
  ∃ amount unit, ClauseText text (.relative amount unit) ∧ digitsValue amount < UInt32.size ∧
    name = String.ofList (capitals unit) ∧ ∀ u, ¬ NamesUnit unit u

/-- The amount and the unit of a relative clause stand at its end. -/
theorem RelativeText.amount_text {text amount unit : List Char}
    (h : RelativeText text amount unit) : ∃ body, AmountText body amount unit := by
  cases h with
  | bare h => exact ⟨text, h⟩
  | last _ _ _ h => exact ⟨_, h⟩

section Relative

variable {text amount unit : List Char} (h : RelativeText text amount unit)
include h

/-- The amount of a relative clause is read as its value, below 2^32. -/
theorem RelativeText.numeral : numeral? UInt32.size amount =
    if digitsValue amount < UInt32.size then some (digitsValue amount) else none := by
  obtain ⟨body, hbody⟩ := h.amount_text
  exact numeral_of_digits hbody.amount_ne_nil hbody.amount_digits

/-- The capitals of a unit are its upper-case form. -/
theorem RelativeText.uppercase_unit :
    uppercase (trim (String.ofList unit)) = String.ofList (capitals unit) := by
  obtain ⟨body, hbody⟩ := h.amount_text
  exact uppercase_of_letters hbody.unit_letters

/-- An amount that is no 32-bit number is refused before the unit is read. -/
theorem of_clause_large (hvalue : ¬ digitsValue amount < UInt32.size) :
    ∃ reason, ofClause (.relative amount unit) = .error (.invalidTimeWindow reason) := by
  have hnumeral : numeral? UInt32.size amount = none := by rw [h.numeral, if_neg hvalue]
  simp only [ofClause, hnumeral]
  exact ⟨_, rfl⟩

/-- A word that names no unit is refused by its capitals, also behind a zero. -/
theorem of_clause_unknown (hvalue : digitsValue amount < UInt32.size)
    (hunit : ∀ u, ¬ NamesUnit unit u) :
    ofClause (.relative amount unit) =
      .error (.unknownTimeUnit (String.ofList (capitals unit))) := by
  have hnumeral : numeral? UInt32.size amount = some (digitsValue amount) := by
    rw [h.numeral, if_pos hvalue]
  have hkeyword : TimeUnit.ofKeyword (String.ofList unit) =
      .error (.unknownTimeUnit (String.ofList (capitals unit))) := by
    rw [TimeUnit.of_keyword_eq_error_iff, h.uppercase_unit]
    exact ⟨rfl, hunit⟩
  simp only [ofClause, hnumeral, hkeyword]
  rfl

/-- Behind a known unit only the check of the window is left. -/
theorem of_clause_known {n : UInt32} {u : TimeUnit} (hvalue : digitsValue amount = n.toNat)
    (hunit : NamesUnit unit u) :
    ofClause (.relative amount unit) =
      if n = 0 then .error zeroAmount else .ok (.relative n u) := by
  have hnumeral : numeral? UInt32.size amount = some n.toNat := by
    rw [h.numeral, hvalue, if_pos n.toNat_lt]
  have hkeyword : TimeUnit.ofKeyword (String.ofList unit) = .ok u := by
    rw [TimeUnit.of_keyword_eq_ok_iff, h.uppercase_unit]
    exact hunit
  by_cases hzero : n = 0
  · simp only [ofClause, hnumeral, hkeyword, bind, Except.bind, UInt32.ofNat_toNat, check, hzero,
      if_true]
  · simp only [ofClause, hnumeral, hkeyword, bind, Except.bind, UInt32.ofNat_toNat, check, hzero,
      if_false, pure, Except.pure]

end Relative

/-- A relative clause is read as a window exactly when it means that window. -/
theorem of_clause_relative_eq_ok_iff {text amount unit : List Char} {w : Window}
    (h : RelativeText text amount unit) :
    ofClause (.relative amount unit) = .ok w ↔ Clause.Means (.relative amount unit) w := by
  constructor
  · intro hok
    by_cases hvalue : digitsValue amount < UInt32.size
    · by_cases hunit : ∃ u, NamesUnit unit u
      · obtain ⟨u, hunit⟩ := hunit
        have hn : digitsValue amount = (UInt32.ofNat (digitsValue amount)).toNat :=
          (UInt32.toNat_ofNat_of_lt' hvalue).symm
        rw [of_clause_known h hn hunit] at hok
        split at hok
        next => cases hok
        next hzero =>
          cases hok
          refine .relative hn (Nat.pos_of_ne_zero fun hnat => hzero ?_) hunit
          exact UInt32.toNat_inj.mp hnat
      · rw [of_clause_unknown h hvalue fun u hu => hunit ⟨u, hu⟩] at hok
        cases hok
    · obtain ⟨reason, hreason⟩ := of_clause_large h hvalue
      rw [hreason] at hok
      cases hok
  · intro hmeans
    cases hmeans with
    | relative hvalue hpos hunit =>
        rw [of_clause_known h hvalue hunit, if_neg]
        rintro rfl
        exact absurd hpos (by decide)

/-- An absolute clause is read as a window exactly when it means that window. -/
theorem of_clause_absolute_eq_ok_iff {start : List Char} {stop : Option (List Char)} {w : Window} :
    ofClause (.absolute start stop) = .ok w ↔ Clause.Means (.absolute start stop) w := by
  rw [ofClause, between_eq_ok_iff]
  constructor
  · rintro ⟨rfl, hstart, hbound⟩
    rw [String.toList_ofList] at hstart
    cases stop with
    | none => simpa [normal, trim] using Clause.Means.startOnly hstart
    | some stop =>
        simp only [Option.map_some, bound_some, String.toList_ofList] at hbound
        simp only [normal, Option.map_some, bound_some, String.toList_ofList, trim]
        split
        next hblank => exact .blankStop hstart (trimmed_eq_nil_iff.mp hblank)
        next hblank => exact .startStop hstart (by simpa [hblank] using hbound)
  · intro hmeans
    cases hmeans with
    | startOnly hstart => simpa [normal, Sound, trim] using hstart
    | blankStop hstart hstop =>
        simpa [normal, Sound, trim, bound_some, trimmed_eq_nil_iff.mpr hstop] using hstart
    | startStop hstart hstop =>
        simpa [normal, Sound, trim, bound_some, hstop.ne_nil] using And.intro hstart hstop

section Parse

variable {text : String}

/-- A text that is not blank and has the form of a clause is read as that clause. -/
theorem parse_of_clause {clause : Clause} (h : ClauseText (trimmed text.toList) clause)
    (hne : trimmed text.toList ≠ []) : parse text = ofClause clause := by
  have hempty : (trimmed text.toList).isEmpty = false := by simpa using hne
  simp only [parse, hempty, clause_of_eq_some_iff.mpr h]
  rfl

/-- A blank text is no time range. -/
theorem parse_of_blank {text : String} (h : allBlank text = true) :
    parse text = .ok .unbounded := by
  rw [parse, all_blank_iff.mp h]
  rfl

/-- A text that is not blank and has the form of no clause is no time window. -/
theorem parse_of_no_clause (hne : trimmed text.toList ≠ [])
    (h : ∀ clause, ¬ ClauseText (trimmed text.toList) clause) :
    ∃ reason, parse text = .error (.invalidTimeWindow reason) := by
  have hempty : (trimmed text.toList).isEmpty = false := by simpa using hne
  cases hclause : clauseOf? (trimmed text.toList) with
  | none =>
      simp only [parse, hempty, hclause]
      exact ⟨_, rfl⟩
  | some found =>
      obtain ⟨clause, rest⟩ := found
      obtain ⟨front, hsplit⟩ := clause_of_suffix hclause
      -- A blank rest of a trimmed text would be empty, and the whole text a clause.
      have hrest : (trimmed rest).isEmpty = false := by
        refine Bool.eq_false_iff.mpr fun hblank => h clause ?_
        rw [List.isEmpty_iff] at hblank
        rw [blank_tail_of_trimmed hsplit hblank] at hclause
        exact clause_of_eq_some_iff.mp hclause
      simp only [parse, hempty, hclause, hrest]
      exact ⟨_, rfl⟩

end Parse

/-- No clause is empty. -/
theorem ClauseText.ne_nil {text : List Char} {clause : Clause} (h : ClauseText text clause) :
    text ≠ [] := by
  rintro rfl
  cases h' : clauseOf? [] with
  | none => simp [clause_of_eq_some_iff.mpr h] at h'
  | some found => cases h'

/-- A text has the form of one clause at most. -/
theorem ClauseText.unique {text : List Char} {clause other : Clause} (h : ClauseText text clause)
    (hother : ClauseText text other) : clause = other := by
  have heq := (clause_of_eq_some_iff.mpr h).symm.trans (clause_of_eq_some_iff.mpr hother)
  exact (Prod.mk.inj (Option.some.inj heq)).1

/-- Of a text that is a clause, only what the clause means is denoted. -/
theorem denotes_iff_of_clause {text : List Char} {clause : Clause} {w : Window}
    (h : ClauseText text clause) : Denotes text w ↔ clause.Means w := by
  constructor
  · intro hdenotes
    cases hdenotes with
    | unbounded => exact absurd rfl h.ne_nil
    | clause hother hmeans => exact h.unique hother ▸ hmeans
  · exact .clause h

/-- A clause is read as a window exactly when it means that window. -/
theorem of_clause_eq_ok_iff {text : List Char} {clause : Clause} {w : Window}
    (h : ClauseText text clause) : ofClause clause = .ok w ↔ clause.Means w := by
  cases clause with
  | relative amount unit => exact of_clause_relative_eq_ok_iff h
  | absolute start stop => exact of_clause_absolute_eq_ok_iff

/-- A text is read as exactly the window that it denotes. -/
theorem parse_eq_ok_iff {text : String} {w : Window} :
    parse text = .ok w ↔ Denotes (trimmed text.toList) w := by
  by_cases hnil : trimmed text.toList = []
  · have hparse : parse text = .ok .unbounded := by simp [parse, hnil]
    rw [hparse, hnil]
    constructor
    · intro h
      cases h
      exact .unbounded
    · intro h
      generalize htext : ([] : List Char) = cs at h
      cases h with
      | unbounded => rfl
      | clause hclause => exact absurd htext.symm hclause.ne_nil
  · by_cases hclause : ∃ clause, ClauseText (trimmed text.toList) clause
    · obtain ⟨clause, hclause⟩ := hclause
      rw [parse_of_clause hclause hnil, of_clause_eq_ok_iff hclause,
        denotes_iff_of_clause hclause]
    · rw [not_exists] at hclause
      obtain ⟨reason, hreason⟩ := parse_of_no_clause hnil hclause
      rw [hreason]
      constructor
      · intro h
        cases h
      · intro h
        generalize htext : trimmed text.toList = cs at h
        cases h with
        | unbounded => exact absurd htext hnil
        | clause hother => exact absurd (htext ▸ hother) (hclause _)

/-- A clause whose only fault is its unit is refused by the name of the unit, any other clause that
is refused as a time window. -/
theorem of_clause_eq_error {text : List Char} {clause : Clause} {e : QueryError}
    (h : ClauseText text clause) (he : ofClause clause = .error e) :
    (∃ name, e = .unknownTimeUnit name ∧ UnknownUnit text name) ∨
      (∃ reason, e = .invalidTimeWindow reason) ∧ ∀ name, ¬ UnknownUnit text name := by
  cases clause with
  | absolute start stop =>
      -- An absolute clause has no unit.
      refine .inr ⟨between_eq_error he, ?_⟩
      rintro name ⟨amount, unit, htext, -⟩
      cases h.unique htext
  | relative amount unit =>
      by_cases hunknown : ∃ name, UnknownUnit text name
      · obtain ⟨name, amount', unit', htext, hvalue, rfl, hunit⟩ := hunknown
        cases h.unique htext
        rw [of_clause_unknown htext hvalue hunit] at he
        cases he
        exact .inl ⟨_, rfl, amount, unit, htext, hvalue, rfl, hunit⟩
      · rw [not_exists] at hunknown
        refine .inr ⟨?_, hunknown⟩
        by_cases hvalue : digitsValue amount < UInt32.size
        · have hunit : ∃ u, NamesUnit unit u := by
            by_contra hnone
            rw [not_exists] at hnone
            exact hunknown _ ⟨amount, unit, h, hvalue, rfl, hnone⟩
          obtain ⟨u, hunit⟩ := hunit
          have hn : digitsValue amount = (UInt32.ofNat (digitsValue amount)).toNat :=
            (UInt32.toNat_ofNat_of_lt' hvalue).symm
          rw [of_clause_known h hn hunit] at he
          split at he <;> cases he
          exact ⟨_, rfl⟩
        · obtain ⟨reason, hreason⟩ := of_clause_large h hvalue
          rw [hreason] at he
          cases he
          exact ⟨_, rfl⟩

/-- A text that is refused has an unknown unit as its only fault, or is no time window. -/
theorem parse_eq_error {text : String} {e : QueryError} (h : parse text = .error e) :
    (∃ name, e = .unknownTimeUnit name ∧ UnknownUnit (trimmed text.toList) name) ∨
      (∃ reason, e = .invalidTimeWindow reason) ∧
        ∀ name, ¬ UnknownUnit (trimmed text.toList) name := by
  by_cases hnil : trimmed text.toList = []
  · simp [parse, hnil] at h
  · by_cases hclause : ∃ clause, ClauseText (trimmed text.toList) clause
    · obtain ⟨clause, hclause⟩ := hclause
      rw [parse_of_clause hclause hnil] at h
      exact of_clause_eq_error hclause h
    · rw [not_exists] at hclause
      obtain ⟨reason, hreason⟩ := parse_of_no_clause hnil hclause
      rw [hreason] at h
      cases h
      refine .inr ⟨⟨_, rfl⟩, ?_⟩
      rintro name ⟨amount, unit, htext, -⟩
      exact hclause _ htext

/-- An unknown unit is what a text is refused for when it is the text's only fault. -/
theorem parse_eq_unknown_unit_iff {text : String} {name : String} :
    parse text = .error (.unknownTimeUnit name) ↔ UnknownUnit (trimmed text.toList) name := by
  constructor
  · intro h
    rcases parse_eq_error h with ⟨name', hname, hunknown⟩ | ⟨⟨reason, hreason⟩, -⟩
    · cases hname
      exact hunknown
    · cases hreason
  · rintro ⟨amount, unit, htext, hvalue, rfl, hunit⟩
    rw [parse_of_clause htext htext.ne_nil]
    exact of_clause_unknown htext hvalue hunit

/-- Reading decides the grammar: a text is read as the window that it denotes, it is refused for its
unit when that is its only fault, and as a time window in every other case. -/
theorem parse_decides_grammar (text : String) :
    (∀ w, parse text = .ok w ↔ Denotes (trimmed text.toList) w) ∧
    (∀ name, parse text = .error (.unknownTimeUnit name) ↔
      UnknownUnit (trimmed text.toList) name) ∧
    ((∃ reason, parse text = .error (.invalidTimeWindow reason)) ↔
      (∀ w, ¬ Denotes (trimmed text.toList) w) ∧
        ∀ name, ¬ UnknownUnit (trimmed text.toList) name) := by
  refine ⟨fun w => parse_eq_ok_iff, fun name => parse_eq_unknown_unit_iff, ?_, ?_⟩
  · rintro ⟨reason, hreason⟩
    refine ⟨fun w hw => ?_, fun name hname => ?_⟩
    · rw [parse_eq_ok_iff.mpr hw] at hreason
      cases hreason
    · rw [parse_eq_unknown_unit_iff.mpr hname] at hreason
      cases hreason
  · rintro ⟨hdenotes, hunknown⟩
    cases h : parse text with
    | ok w => exact absurd (parse_eq_ok_iff.mp h) (hdenotes w)
    | error e =>
        rcases parse_eq_error h with ⟨name, -, hname⟩ | ⟨⟨reason, rfl⟩, -⟩
        · exact absurd hname (hunknown name)
        · exact ⟨reason, rfl⟩

end Window

end Ariel.Query
