import Ariel.Proofs.Text.Character
import Ariel.Proofs.Text.Pattern
import Ariel.Validation.Check

/-!
# What the patterns of the checks take

One lemma for each pattern with parts: it holds exactly where its parts stand behind each other, and
it reports them and how many bytes behind its beginning they stand.
-/

namespace Ariel.Validation

open Ariel.Text

variable {cs rest name : List Char} {before : Option Char} {u : Unit}

section Keyword

variable {first second : String}

/-- Two keywords are a phrase where a word can begin. -/
theorem whole_phrase_eq_some_iff : wholePhrase first second before cs = some (u, rest) ↔
    beginsWord before = true ∧ phrase? first second cs = some rest := by
  simp [wholePhrase, bind, Option.bind_eq_some_iff]

/-- A character of a plain name is a word character. -/
theorem is_word_character_of_continues_name {c : Char} (h : continuesName c = true) :
    isWordCharacter c = true := by
  have hascii : c.toNat < 0x80 := by
    simp only [continuesName, Char.isAlphanum, Bool.or_eq_true, beq_iff_eq] at h
    rcases h with (halpha | hdigit) | rfl
    · rw [is_alpha_iff] at halpha
      omega
    · rw [is_digit_iff] at hdigit
      omega
    · decide
  rw [isWordCharacter, if_pos hascii]
  exact h

/-- A character that can begin a plain name can continue one. -/
theorem continues_name_of_begins_name {c : Char} (h : beginsName c = true) :
    continuesName c = true := by
  simp only [beginsName, Bool.or_eq_true] at h
  simp only [continuesName, Char.isAlphanum, Bool.or_eq_true]
  exact h.imp .inl id

/-- A plain name is taken up to the first character that does not continue it. -/
theorem name_eq_some_iff : name? cs = some (name, rest) ↔
    cs = name ++ rest ∧ name.head?.any beginsName = true ∧ (∀ c ∈ name, continuesName c = true) ∧
      ∀ c ∈ rest.head?, continuesName c = false := by
  constructor
  · intro h
    cases cs with
    | nil => cases h
    | cons c cs =>
        simp only [name?, Option.ite_none_right_eq_some, Option.some.injEq, Prod.mk.injEq] at h
        obtain ⟨hbegins, rfl, rfl⟩ := h
        refine ⟨?_, hbegins, fun d hd => ?_, fun d => head_drop_while⟩
        · rw [List.cons_append, List.takeWhile_append_dropWhile]
        · rcases List.mem_cons.mp hd with rfl | hd
          · exact continues_name_of_begins_name hbegins
          · exact List.mem_takeWhile_imp hd
  · rintro ⟨rfl, hbegins, hname, hstop⟩
    cases name with
    | nil => cases hbegins
    | cons c run =>
        have hrun : ∀ d ∈ run, continuesName d = true := fun d hd => hname d (by simp [hd])
        have hc : beginsName c = true := hbegins
        rw [List.cons_append, name?, if_pos hc, take_while_append hrun hstop,
          drop_while_append hrun hstop]

end Keyword

section Last

/-- LAST and a number are LAST as the beginning of a word, blanks and a digit. -/
theorem last_amount_eq_some_iff :
    lastAmount before cs = some (u, rest) ↔ beginsWord before = true ∧
      ∃ word gap digit, cs = word ++ (gap ++ digit :: rest) ∧ capitals word = "LAST".toList ∧
        gap ≠ [] ∧ (∀ c ∈ gap, isBlank c = true) ∧ isDecimalDigit digit = true := by
  simp only [lastAmount, lastAmount?, bind, Option.bind_eq_some_iff, guard_eq_some_iff, pure,
    Option.some.injEq, Prod.mk.injEq, keyword_eq_some_iff, blanks_eq_some_iff]
  constructor
  · rintro ⟨-, hbegins, after, ⟨_, ⟨word, rfl, hword⟩, gapped, ⟨gap, rfl, hne, hgap, -⟩, hdigit⟩, -,
      rfl⟩
    cases gapped with
    | nil => cases hdigit
    | cons digit more =>
        obtain ⟨hc, hmore⟩ := Option.ite_none_right_eq_some.mp hdigit
        obtain rfl := Option.some.inj hmore
        exact ⟨hbegins, word, gap, digit, rfl, hword, hne, hgap, hc⟩
  · rintro ⟨hbegins, word, gap, digit, rfl, hword, hne, hgap, hdigit⟩
    have hstop : ∀ c ∈ (digit :: rest).head?, isBlank c = false := by
      intro c hc
      obtain rfl := Option.some.inj hc
      exact is_blank_of_decimal_digit hdigit
    exact ⟨(), hbegins, rest, ⟨_, ⟨word, rfl, hword⟩, _, ⟨gap, rfl, hne, hgap, hstop⟩,
      if_pos hdigit⟩, trivial, rfl⟩

/-- A text begins with LAST, blanks, the amount, blanks again and the unit of a relative time
clause, and a word can end behind them. -/
structure LastClauseText (cs : List Char) (found : LastClause)
    (rest word gap between : List Char) :
    Prop where
  split : cs = word ++ (gap ++ (found.amount ++ (between ++ (found.unit ++ rest))))
  keyword : capitals word = "LAST".toList
  gap_ne_nil : gap ≠ []
  gap_blank : ∀ c ∈ gap, isBlank c = true
  amount_ne_nil : found.amount ≠ []
  amount_digits : ∀ c ∈ found.amount, isDecimalDigit c = true
  between_ne_nil : between ≠ []
  between_blank : ∀ c ∈ between, isBlank c = true
  unit_ne_nil : found.unit ≠ []
  unit_letters : ∀ c ∈ found.unit, c.isAlpha = true
  ends : endsWord rest = true
  amountOffset : found.amountOffset = byteLength (word ++ gap)
  unitOffset : found.unitOffset = byteLength (word ++ (gap ++ (found.amount ++ between)))

/-- What is taken as a relative time clause has its parts. -/
theorem last_clause_text {found : LastClause} (h : lastClause before cs = some (found, rest)) :
    beginsWord before = true ∧
      ∃ word gap between, LastClauseText cs found rest word gap between := by
  simp only [lastClause, bind, Option.bind_eq_some_iff, Prod.exists, word_start_eq_some_iff,
    guard_eq_some_iff, pure, Option.some.injEq, Prod.mk.injEq] at h
  obtain ⟨-, tail, ⟨hbegins, word, rfl, hword⟩, amount, hamount, -, hdigits, unit, hunit, -,
    hletters, -, hends, rfl, rfl⟩ := h
  obtain ⟨gap, rfl, hne, hgap, -⟩ := blanks_eq_some_iff.mp hamount
  obtain ⟨between, hbetween, hne', hgap', -⟩ := blanks_eq_some_iff.mp hunit
  have hsplit : amount = amount.takeWhile isDecimalDigit ++ (between ++ unit) := by
    rw [← hbetween, List.takeWhile_append_dropWhile]
  have hunits : unit = unit.takeWhile Char.isAlpha ++ unit.dropWhile Char.isAlpha :=
    List.takeWhile_append_dropWhile.symm
  refine ⟨hbegins, word, gap, between, ?_⟩
  exact {
    split := by
      show word ++ (gap ++ amount) = word ++ (gap ++ (amount.takeWhile isDecimalDigit ++
        (between ++ (unit.takeWhile Char.isAlpha ++ unit.dropWhile Char.isAlpha))))
      rw [← hunits, ← hsplit]
    keyword := hword
    gap_ne_nil := hne
    gap_blank := hgap
    amount_ne_nil := by simpa using hdigits
    amount_digits := fun c => List.mem_takeWhile_imp
    between_ne_nil := hne'
    between_blank := hgap'
    unit_ne_nil := by simpa using hletters
    unit_letters := fun c => List.mem_takeWhile_imp
    ends := hends
    amountOffset := bytes_up_to_of_split (List.append_assoc word gap amount).symm
    unitOffset := by
      refine bytes_up_to_of_split ?_
      conv_lhs => rw [hsplit]
      simp }

/-- A relative time clause with its parts is taken behind the end of a word. -/
theorem LastClauseText.taken {found : LastClause} {word gap between : List Char}
    (h : LastClauseText cs found rest word gap between) (hbegins : beginsWord before = true) :
    lastClause before cs = some (found, rest) := by
  obtain ⟨amountOffset, amount, unitOffset, unit⟩ := found
  have hstart : wordStart "LAST" before cs =
      some ((), gap ++ (amount ++ (between ++ (unit ++ rest)))) :=
    word_start_eq_some_iff.mpr ⟨hbegins, word, h.split, h.keyword⟩
  have hgap : blanks? (gap ++ (amount ++ (between ++ (unit ++ rest)))) =
      some (amount ++ (between ++ (unit ++ rest))) :=
    blanks_append h.gap_ne_nil h.gap_blank h.amount_ne_nil
      fun c hc => is_blank_of_decimal_digit (h.amount_digits c hc)
  have hbetween : blanks? (between ++ (unit ++ rest)) = some (unit ++ rest) :=
    blanks_append h.between_ne_nil h.between_blank h.unit_ne_nil
      fun c hc => is_blank_of_alpha (h.unit_letters c hc)
  -- Blanks end the amount, and the end of a word ends the unit.
  have hnotDigit : ∀ c ∈ (between ++ (unit ++ rest)).head?, isDecimalDigit c = false :=
    head_of_run h.between_ne_nil fun c hc => is_decimal_digit_of_blank (h.between_blank c hc)
  have hnotLetter : ∀ c ∈ rest.head?, c.isAlpha = false := by
    intro c hc
    refine Bool.eq_false_iff.mpr fun halpha => ?_
    have hword := is_word_character_of_alpha halpha
    simp [is_word_character_of_ends_word h.ends c hc] at hword
  have hamount : amount.isEmpty = false := List.isEmpty_eq_false_iff.mpr h.amount_ne_nil
  have hunit : unit.isEmpty = false := List.isEmpty_eq_false_iff.mpr h.unit_ne_nil
  have hamountOffset : bytesUpTo (amount ++ (between ++ (unit ++ rest))) cs = amountOffset :=
    (bytes_up_to_of_split (by simpa using h.split)).trans h.amountOffset.symm
  have hunitOffset : bytesUpTo (unit ++ rest) cs = unitOffset :=
    (bytes_up_to_of_split (by simpa using h.split)).trans h.unitOffset.symm
  simp only [lastClause, hstart, hgap, take_while_append h.amount_digits hnotDigit,
    drop_while_append h.amount_digits hnotDigit, hbetween,
    take_while_append h.unit_letters hnotLetter, drop_while_append h.unit_letters hnotLetter,
    hamount, hunit, h.ends, hamountOffset, hunitOffset, guard, bind, Option.bind_some, pure,
    Bool.not_false, if_true]

/-- A relative time clause is taken with all its parts. -/
theorem last_clause_eq_some_iff {found : LastClause} :
    lastClause before cs = some (found, rest) ↔
      beginsWord before = true ∧
        ∃ word gap between, LastClauseText cs found rest word gap between := by
  constructor
  · exact last_clause_text
  · rintro ⟨hbegins, word, gap, between, h⟩
    exact h.taken hbegins

end Last

section Value

variable {gap : Nat} {value : List Char}

/-- A character of a plain name is no blank. -/
theorem is_blank_of_continues_name {c : Char} (h : continuesName c = true) : isBlank c = false :=
  is_blank_of_word_character (is_word_character_of_continues_name h)

/-- No blank continues a plain name. -/
theorem continues_name_of_blank {c : Char} (h : isBlank c = true) : continuesName c = false :=
  Bool.eq_false_iff.mpr fun hname => by
    rw [is_blank_of_continues_name hname] at h
    cases h

theorem begins_name_of_blank {c : Char} (h : isBlank c = true) : beginsName c = false :=
  Bool.eq_false_iff.mpr fun hname => by
    have := continues_name_of_begins_name hname
    rw [continues_name_of_blank h] at this
    cases this

/-- FROM is a whole word, whether a name follows it or not. -/
theorem whole_word_of_from_table {found : Option (Nat × List Char)}
    (h : fromTable before cs = some (found, rest)) :
    ∃ after, wholeWord "FROM" before cs = some ((), after) := by
  simp only [fromTable, bind, Option.bind_eq_some_iff, Prod.exists] at h
  obtain ⟨u, after, hword, -⟩ := h
  exact ⟨after, hword⟩

/-- FROM and the plain name behind it are taken together. -/
theorem from_table_eq_some_iff :
    fromTable before cs = some (some (gap, name), rest) ↔ beginsWord before = true ∧
      ∃ word blanks, cs = word ++ (blanks ++ (name ++ rest)) ∧ capitals word = "FROM".toList ∧
        blanks ≠ [] ∧ (∀ c ∈ blanks, isBlank c = true) ∧ gap = byteLength (word ++ blanks) ∧
        name? (name ++ rest) = some (name, rest) := by
  constructor
  · intro h
    simp only [fromTable, bind, Option.bind_eq_some_iff, Prod.exists, whole_word_eq_some_iff] at h
    obtain ⟨-, tail, ⟨hbegins, -, word, rfl, hword⟩, h⟩ := h
    split at h
    next => cases h
    next gapped hgap =>
      split at h
      next => cases h
      next found after hname =>
        cases h
        obtain ⟨blanks, rfl, hne, hblanks, -⟩ := blanks_eq_some_iff.mp hgap
        obtain ⟨rfl, -⟩ := name_eq_some_iff.mp hname
        exact ⟨hbegins, word, blanks, rfl, hword, hne, hblanks,
          bytes_up_to_of_split (List.append_assoc ..).symm, hname⟩
  · rintro ⟨hbegins, word, blanks, rfl, hword, hne, hblanks, rfl, hname⟩
    have hwhole : wholeWord "FROM" before (word ++ (blanks ++ (name ++ rest))) =
        some ((), blanks ++ (name ++ rest)) :=
      whole_word_eq_some_iff.mpr ⟨hbegins, ends_word_of_blanks hne hblanks, word, rfl, hword⟩
    have hgap : blanks? (blanks ++ (name ++ rest)) = some (name ++ rest) := by
      obtain ⟨-, hfirst, hcontinues, -⟩ := name_eq_some_iff.mp hname
      have hsome : name ≠ [] := by
        rintro rfl
        cases hfirst
      exact blanks_append hne hblanks hsome
        fun c hc => is_blank_of_continues_name (hcontinues c hc)
    simp only [fromTable, hwhole, hgap, hname, bind, Option.bind_some, pure]
    rw [bytes_up_to_of_split (List.append_assoc ..).symm]

/-- LIMIT is a whole word, whether a value follows it or not. -/
theorem whole_word_of_limit_clause {found : Option (Nat × List Char)}
    (h : limitClause before cs = some (found, rest)) :
    ∃ after, wholeWord "LIMIT" before cs = some ((), after) := by
  simp only [limitClause, bind, Option.bind_eq_some_iff, Prod.exists] at h
  obtain ⟨u, after, hword, -⟩ := h
  exact ⟨after, hword⟩

/-- LIMIT and what stands behind it up to the next blank are taken together. -/
theorem limit_clause_eq_some_iff :
    limitClause before cs = some (some (gap, value), rest) ↔ beginsWord before = true ∧
      ∃ word blanks, cs = word ++ (blanks ++ (value ++ rest)) ∧ capitals word = "LIMIT".toList ∧
        blanks ≠ [] ∧ (∀ c ∈ blanks, isBlank c = true) ∧ gap = byteLength (word ++ blanks) ∧
        value ≠ [] ∧ (∀ c ∈ value, isBlank c = false) ∧ ∀ c ∈ rest.head?, isBlank c = true := by
  constructor
  · intro h
    simp only [limitClause, bind, Option.bind_eq_some_iff, Prod.exists, whole_word_eq_some_iff] at h
    obtain ⟨-, tail, ⟨hbegins, -, word, rfl, hword⟩, h⟩ := h
    split at h
    next => cases h
    next => cases h
    next gapped hsome hgap =>
      cases h
      obtain ⟨blanks, rfl, hne, hblanks, hstop⟩ := blanks_eq_some_iff.mp hgap
      refine ⟨hbegins, word, blanks, ?_, hword, hne, hblanks, ?_, ?_, fun c hc => ?_,
        fun c hc => ?_⟩
      · rw [List.takeWhile_append_dropWhile]
      · exact bytes_up_to_of_split (List.append_assoc ..).symm
      · obtain ⟨c, more, rfl⟩ := List.exists_cons_of_ne_nil hsome
        have hc : isBlank c = false := hstop c rfl
        simp [hc]
      · simpa using List.mem_takeWhile_imp hc
      · simpa using head_drop_while hc
  · rintro ⟨hbegins, word, blanks, rfl, hword, hne, hblanks, rfl, hsome, hvalue, hrest⟩
    have hwhole : wholeWord "LIMIT" before (word ++ (blanks ++ (value ++ rest))) =
        some ((), blanks ++ (value ++ rest)) :=
      whole_word_eq_some_iff.mpr ⟨hbegins, ends_word_of_blanks hne hblanks, word, rfl, hword⟩
    have hgap : blanks? (blanks ++ (value ++ rest)) = some (value ++ rest) :=
      blanks_append hne hblanks hsome hvalue
    have hsolid : ∀ c ∈ value, (!isBlank c) = true := fun c hc => by simp [hvalue c hc]
    have hstop : ∀ c ∈ rest.head?, (!isBlank c) = false := fun c hc => by simp [hrest c hc]
    simp only [limitClause, hwhole, hgap, bind, Option.bind_some]
    split
    next hnone => cases hnone
    next hnil => exact absurd (List.append_eq_nil_iff.mp (Option.some.inj hnil)).1 hsome
    next found hfound =>
      obtain rfl := Option.some.inj hfound
      rw [take_while_append hsolid hstop, drop_while_append hsolid hstop,
        bytes_up_to_of_split (List.append_assoc ..).symm]
      rfl

end Value

section Comparison

/-- A comparison behind a character that does not belong to its operator. -/
def comparedBehind? : List Char → Option ((Nat × String × List Char) × List Char)
  | [] => none
  | c :: cs =>
      if ['<', '>', '!', '='].contains c then none
      else (comparedLiteral? cs).map fun found => ((c.utf8Size, found.1), found.2)

/-- A comparison stands at the beginning of a query, or behind a character. -/
theorem equality_with_literal_eq (before : Option Char) (cs : List Char) :
    equalityWithLiteral before cs =
      (if before.isNone then (comparedLiteral? cs).map fun found => ((0, found.1), found.2)
        else none).or (comparedBehind? cs) := by
  unfold equalityWithLiteral
  cases before with
  | none =>
      cases comparedLiteral? cs with
      | none => cases cs <;> rfl
      | some found => rfl
  | some c => cases cs <;> rfl

end Comparison

end Ariel.Validation
