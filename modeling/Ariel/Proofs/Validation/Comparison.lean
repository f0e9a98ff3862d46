import Ariel.Proofs.Text.Word
import Ariel.Proofs.Validation.Pattern
import Ariel.Proofs.Validation.Reading

/-!
# What is compared with literals

The check of wildcards behind equality operators and the check of patterns behind LIKE search the
query itself, in which a literal may end with an operator or with LIKE. Where the search keeps in
step with the literals, each of them finds the operators and words outside of literals, one remark
for each (`literal_checks_read_outside`); where it does not, remarks are lost, and others are made
about what literals hold.
-/

namespace Ariel.Validation

open Ariel.Text

variable {before : Option Char} {offset : Nat} {cs rest text : List Char} {operator : String}

section Runs

/-- Texts with runs behind them are the same when their ends do not belong to the runs. -/
theorem append_run_inj {p : Char → Bool} {ds run run' : List Char} (h : cs ++ run = ds ++ run')
    (hrun : ∀ c ∈ run, p c = true) (hrun' : ∀ c ∈ run', p c = true)
    (hcs : ∀ c ∈ cs.getLast?, p c = false) (hds : ∀ c ∈ ds.getLast?, p c = false) :
    cs = ds ∧ run = run' := by
  have hreverse : run.reverse ++ cs.reverse = run'.reverse ++ ds.reverse := by
    rw [← List.reverse_append, h, List.reverse_append]
  have htaken : (run.reverse ++ cs.reverse).takeWhile p = run.reverse :=
    take_while_append (by simpa using hrun) (by simpa using hcs)
  have hsame : run.reverse = run'.reverse := by
    rw [← htaken, hreverse]
    exact take_while_append (by simpa using hrun') (by simpa using hds)
  obtain rfl := List.reverse_inj.mp hsame
  exact ⟨List.append_cancel_right h, rfl⟩

/-- A text ends with a character of the run behind it. -/
theorem exists_last_of_run {p : Char → Bool} {run : List Char} (cs : List Char) (hne : run ≠ [])
    (hrun : ∀ c ∈ run, p c = true) : ∃ c ∈ (cs ++ run).getLast?, p c = true := by
  refine ⟨run.getLast hne, ?_, hrun _ (List.getLast_mem hne)⟩
  rw [List.getLast?_append_of_ne_nil cs hne, List.getLast?_eq_some_getLast hne]
  rfl

/-- Words with blanks behind them end a text in one way only, when what stands in front of them does
not belong to them. -/
theorem append_word_inj {p : Char → Bool} {start start' word word' gap gap' : List Char}
    (h : start ++ (word ++ gap) = start' ++ (word' ++ gap'))
    (hsolid : ∀ c, p c = true → isBlank c = false) (hne : word ≠ []) (hne' : word' ≠ [])
    (hword : ∀ c ∈ word, p c = true) (hword' : ∀ c ∈ word', p c = true)
    (hgap : ∀ c ∈ gap, isBlank c = true) (hgap' : ∀ c ∈ gap', isBlank c = true)
    (hstart : ∀ c ∈ start.getLast?, p c = false) (hstart' : ∀ c ∈ start'.getLast?, p c = false) :
    start = start' ∧ word = word' := by
  have hlast : ∀ {front run : List Char}, run ≠ [] → (∀ c ∈ run, p c = true) →
      ∀ c ∈ (front ++ run).getLast?, isBlank c = false := by
    intro front run hsome hrun c hc
    rw [List.getLast?_append_of_ne_nil front hsome] at hc
    exact hsolid c (hrun c (List.mem_of_getLast? hc))
  rw [← List.append_assoc, ← List.append_assoc] at h
  obtain ⟨hfront, -⟩ := append_run_inj h hgap hgap' (hlast hne hword) (hlast hne' hword')
  exact append_run_inj hfront hword hword' hstart hstart'

/-- What no character before a text is, its last character is not either. -/
theorem last_of_or {p : Char → Bool} (h : (cs.getLast?.or before).any p = false) :
    ∀ c ∈ cs.getLast?, p c = false := by
  intro c hc
  rw [Option.mem_def.mp hc] at h
  exact h

/-- A quoted text is taken behind blanks. -/
theorem quoted_text_of_drop_blanks : quotedText? (dropBlanks cs) = some (text, rest) ↔
    ∃ gap, cs = gap ++ '\'' :: (text ++ '\'' :: rest) ∧ (∀ c ∈ gap, isBlank c = true) ∧
      '\'' ∉ text := by
  rw [quoted_text_eq_some_iff, List.cons_append]
  constructor
  · rintro ⟨hdrop, htext⟩
    obtain ⟨gap, hsplit, hgap⟩ := drop_blanks_spec cs
    exact ⟨gap, by rw [← hdrop, ← hsplit], hgap, htext⟩
  · rintro ⟨gap, rfl, hgap, htext⟩
    have hhead : ∀ c ∈ ('\'' :: (text ++ '\'' :: rest)).head?, isBlank c = false := by
      simp [isBlank]
    exact ⟨by rw [drop_blanks_append hgap, drop_blanks_of_head hhead], htext⟩

end Runs

section Equality

/-- The characters of comparison operators. -/
def operatorCharacters : List Char := ['<', '>', '!', '=']

/-- An equality operator, with the blanks behind it, that is not the end of a longer one. -/
structure Compares (before : Option Char) (operator : String) (cs : List Char) : Prop where
  known : operator ∈ equalityOperators
  alone : before.any operatorCharacters.contains = false
  form : ∃ gap, cs = operator.toList ++ gap ∧ ∀ c ∈ gap, isBlank c = true

/-- Equality operators are written in the characters of operators. -/
theorem operator_characters (h : operator ∈ equalityOperators) :
    operator.toList ≠ [] ∧ ∀ c ∈ operator.toList, operatorCharacters.contains c = true := by
  have hall : ∀ operator ∈ equalityOperators,
      operator.toList ≠ [] ∧ operator.toList.all operatorCharacters.contains = true := by decide
  obtain ⟨hne, hrun⟩ := hall operator h
  exact ⟨hne, List.all_eq_true.mp hrun⟩

/-- The characters of operators are neither quotes nor blanks. -/
theorem solid_of_operator {c : Char} (h : operatorCharacters.contains c = true) :
    c ≠ '\'' ∧ isBlank c = false := by
  have hall : (operatorCharacters.all fun c => c != '\'' && !isBlank c) = true := by decide
  have hc := List.all_eq_true.mp hall c (List.contains_iff_mem.mp h)
  simpa using hc

theorem lawful_compares : Lead.Lawful Compares where
  quoteless := by
    rintro before operator cs ⟨hknown, -, gap, rfl, hgap⟩
    rw [List.mem_append, not_or]
    refine ⟨fun hquote => ?_, quote_not_mem_blanks hgap⟩
    exact (solid_of_operator ((operator_characters hknown).2 _ hquote)).1 rfl
  unique := by
    rintro before operator operator' start start' cs cs' h ⟨hknown, halone, gap, rfl, hgap⟩
      ⟨hknown', halone', gap', rfl, hgap'⟩
    obtain ⟨hne, hrun⟩ := operator_characters hknown
    obtain ⟨hne', hrun'⟩ := operator_characters hknown'
    obtain ⟨hstart, hoperator⟩ := append_word_inj h (fun c hc => (solid_of_operator hc).2) hne hne'
      hrun hrun' hgap hgap' (last_of_or halone) (last_of_or halone')
    exact ⟨hstart, String.toList_inj.mp hoperator⟩

/-- A text that ends with neither an operator nor a blank does not end with a comparison. -/
theorem not_ends_compares
    (h : cs.getLast?.any (fun c => operatorCharacters.contains c || isBlank c) = false) :
    ¬ Ends Compares before cs := by
  rintro ⟨start, operator, tail, rfl, hknown, -, gap, rfl, hgap⟩
  obtain ⟨hne, hrun⟩ := operator_characters hknown
  rw [← List.append_assoc] at h
  by_cases hnone : gap = []
  · obtain ⟨c, hc, hcharacter⟩ := exists_last_of_run start hne hrun
    rw [hnone, List.append_nil, Option.mem_def.mp hc, Option.any_some, hcharacter] at h
    cases h
  · obtain ⟨c, hc, hblank⟩ := exists_last_of_run (start ++ operator.toList) hnone hgap
    rw [Option.mem_def.mp hc, Option.any_some, hblank, Bool.or_true] at h
    cases h

/-- A comparison is taken where an operator stands in front of a literal. -/
theorem compared_literal_eq_some_iff :
    comparedLiteral? cs = some ((operator, text), rest) ↔ operator ∈ equalityOperators ∧
      ∃ gap, (∀ c ∈ gap, isBlank c = true) ∧ '\'' ∉ text ∧
        cs = operator.toList ++ (gap ++ '\'' :: (text ++ '\'' :: rest)) := by
  constructor
  · intro h
    obtain ⟨operator', hmem, hfound⟩ := List.exists_of_findSome?_eq_some h
    simp only [bind, Option.bind_eq_some_iff, Prod.exists, pure, Option.some.injEq,
      Prod.mk.injEq] at hfound
    obtain ⟨tail, hliteral, text', rest', hquoted, ⟨rfl, rfl⟩, rfl⟩ := hfound
    obtain ⟨gap, rfl, hgap, htext⟩ := quoted_text_of_drop_blanks.mp hquoted
    exact ⟨hmem, gap, hgap, htext, literal_eq_some_iff.mp hliteral⟩
  · rintro ⟨hmem, gap, hgap, htext, rfl⟩
    have hquoted : quotedText? (dropBlanks (gap ++ '\'' :: (text ++ '\'' :: rest))) =
        some (text, rest) := quoted_text_of_drop_blanks.mpr ⟨gap, rfl, hgap, htext⟩
    simp only [equalityOperators, List.mem_cons, List.not_mem_nil, or_false] at hmem
    rcases hmem with rfl | rfl | rfl
    · simp [comparedLiteral?, equalityOperators, literal?, hquoted]
    · simp [comparedLiteral?, equalityOperators, literal?, hquoted]
    · simp [comparedLiteral?, equalityOperators, literal?, hquoted]

/-- Take an equality operator that stands alone and the literal after it. -/
def comparisonAt? (before : Option Char) (cs : List Char) :
    Option ((String × List Char) × List Char) :=
  if before.any operatorCharacters.contains then none else comparedLiteral? cs

/-- A comparison is taken where its operator stands in front of a literal. -/
theorem comparison_at_eq_some_iff :
    comparisonAt? before cs = some ((operator, text), rest) ↔
      ∃ tail, Compares before operator tail ∧ '\'' ∉ text ∧
        cs = tail ++ '\'' :: (text ++ '\'' :: rest) := by
  rw [comparisonAt?, Option.ite_none_left_eq_some, compared_literal_eq_some_iff,
    Bool.not_eq_true]
  constructor
  · rintro ⟨halone, hknown, gap, hgap, htext, rfl⟩
    exact ⟨operator.toList ++ gap, ⟨hknown, halone, gap, rfl, hgap⟩, htext, by simp⟩
  · rintro ⟨tail, ⟨hknown, halone, gap, rfl, hgap⟩, htext, rfl⟩
    exact ⟨halone, hknown, gap, hgap, htext, by simp⟩

/-- No comparison is taken exactly where none stands. -/
theorem comparison_at_eq_none_iff :
    comparisonAt? before cs = none ↔ ¬ Opens Compares before cs := by
  simp only [Option.eq_none_iff_forall_ne_some, Prod.forall, ne_eq, comparison_at_eq_some_iff]
  constructor
  · rintro h ⟨operator, tail, text, rest, hcompares, htext, hsplit⟩
    exact h operator text rest ⟨tail, hcompares, htext, hsplit⟩
  · rintro h operator text rest ⟨tail, hcompares, htext, hsplit⟩
    exact h ⟨operator, tail, text, rest, hcompares, htext, hsplit⟩

/-- Where no comparison begins a text, the search looks behind its first character. -/
theorem equality_with_literal_behind {c : Char} (h : comparisonAt? before (c :: cs) = none) :
    equalityWithLiteral before (c :: cs) =
      (comparisonAt? (some c) cs).map fun found => ((c.utf8Size, found.1), found.2) := by
  have hbehind : comparedBehind? (c :: cs) =
      (comparisonAt? (some c) cs).map fun found => ((c.utf8Size, found.1), found.2) := by
    show (if operatorCharacters.contains c then none else _) =
      (if operatorCharacters.contains c then none else comparedLiteral? cs).map _
    split <;> rfl
  rw [equality_with_literal_eq, hbehind]
  cases before with
  | none =>
      have hhere : comparedLiteral? (c :: cs) = none := h
      rw [hhere]
      rfl
  | some d => rfl

/-- A comparison that was found: where its operator stands, and its operator and literal. -/
def Reading.ofEquality (found : Occurrence (Nat × String × List Char)) : Reading String :=
  ⟨found.offset + found.value.1, found.value.2.1, found.value.2.2⟩

/-- The comparisons that are found from an offset on, also one that stands right there. -/
def comparisons (before : Option Char) (offset : Nat) (cs : List Char) : List (Reading String) :=
  match comparisonAt? before cs with
  | some ((operator, text), rest) =>
      ⟨offset, operator, text⟩ ::
        (occurrencesFrom equalityWithLiteral (some '\'') (offset + bytesUpTo rest cs) 0 rest).map
          .ofEquality
  | none => (occurrencesFrom equalityWithLiteral before offset 0 cs).map .ofEquality

theorem comparisons_of_some
    (h : comparisonAt? before cs = some ((operator, text), rest)) :
    comparisons before offset cs = ⟨offset, operator, text⟩ ::
      (occurrencesFrom equalityWithLiteral (some '\'') (offset + bytesUpTo rest cs) 0 rest).map
        .ofEquality := by
  rw [comparisons, h]

theorem comparisons_of_none (h : comparisonAt? before cs = none) :
    comparisons before offset cs =
      (occurrencesFrom equalityWithLiteral before offset 0 cs).map .ofEquality := by
  rw [comparisons, h]

/-- The search for comparisons goes from one character to the next, and behind what it reads it
takes another one only behind a further character. -/
theorem searches_comparisons :
    Searches Compares (fun behind => ¬ Opens Compares (some '\'') behind) comparisons where
  nil := by
    intro before offset
    have hnone : comparisonAt? before [] = none := by
      rw [comparisonAt?]
      split <;> rfl
    rw [comparisons_of_none hnone]
    rfl
  skip := by
    intro before offset c cs hopens
    have hhere := comparison_at_eq_none_iff.mpr hopens
    have hfound := equality_with_literal_behind hhere
    rw [comparisons_of_none hhere]
    cases hnext : comparisonAt? (some c) cs with
    | none =>
        rw [hnext] at hfound
        rw [comparisons_of_none hnext, occurrencesFrom, hfound]
        rfl
    | some found =>
        -- The character is taken together with the comparison behind it.
        obtain ⟨⟨operator, text⟩, rest⟩ := found
        obtain ⟨tail, -, -, rfl⟩ := comparison_at_eq_some_iff.mp hnext
        have htaken : c :: (tail ++ '\'' :: (text ++ '\'' :: rest)) =
            (c :: tail ++ '\'' :: (text ++ ['\''])) ++ rest := by simp
        have hlast : (c :: tail ++ '\'' :: (text ++ ['\''])).getLast?.or before = some '\'' :=
          last_behind_literal (c :: tail) text [] before
        have hbytes : bytesUpTo rest (tail ++ '\'' :: (text ++ '\'' :: rest)) =
            byteLength (tail ++ '\'' :: (text ++ ['\''])) :=
          bytes_up_to_of_split (by simp)
        rw [hnext, htaken] at hfound
        rw [comparisons_of_some hnext, htaken, occurrences_from_at (by simp) hfound, hlast, hbytes,
          List.cons_append, byte_length_cons, Nat.add_assoc]
        rfl
  found := by
    intro before offset operator cs text behind hcompares htext hclear
    have hhere : comparisonAt? before (cs ++ '\'' :: (text ++ '\'' :: behind)) =
        some ((operator, text), behind) :=
      comparison_at_eq_some_iff.mpr ⟨cs, hcompares, htext, rfl⟩
    have hbytes : bytesUpTo behind (cs ++ '\'' :: (text ++ '\'' :: behind)) =
        byteLength (cs ++ '\'' :: (text ++ ['\''])) :=
      bytes_up_to_of_split (by simp)
    rw [comparisons_of_some hhere, hbytes,
      comparisons_of_none (comparison_at_eq_none_iff.mpr hclear)]

end Equality

section Matching

/-- LIKE or ILIKE as a word of its own, with the blanks behind it. -/
structure Matches (before : Option Char) (_ : Unit) (cs : List Char) : Prop where
  begins : beginsWord before = true
  form : ∃ word gap, cs = word ++ gap ∧
    (Spells "LIKE".toList word ∨ Spells "ILIKE".toList word) ∧ gap ≠ [] ∧
      ∀ c ∈ gap, isBlank c = true

/-- LIKE and ILIKE are spelled with word characters. -/
theorem word_of_like {word : List Char}
    (h : Spells "LIKE".toList word ∨ Spells "ILIKE".toList word) :
    word ≠ [] ∧ ∀ c ∈ word, isWordCharacter c = true := by
  have hletters : LetterWord "LIKE" ∧ LetterWord "ILIKE" := by decide
  rcases h with h | h
  · exact ⟨h.ne_nil hletters.1.ne_nil, h.word_characters hletters.1.letters⟩
  · exact ⟨h.ne_nil hletters.2.ne_nil, h.word_characters hletters.2.letters⟩

theorem lawful_matches : Lead.Lawful Matches where
  quoteless := by
    rintro before _ cs ⟨-, word, gap, rfl, hlike, -, hgap⟩
    rw [List.mem_append, not_or]
    refine ⟨fun hquote => ?_, quote_not_mem_blanks hgap⟩
    exact absurd ((word_of_like hlike).2 _ hquote) (by decide)
  unique := by
    rintro before _ _ start start' cs cs' h ⟨hbegins, word, gap, rfl, hlike, -, hgap⟩
      ⟨hbegins', word', gap', rfl, hlike', -, hgap'⟩
    obtain ⟨hne, hword⟩ := word_of_like hlike
    obtain ⟨hne', hword'⟩ := word_of_like hlike'
    rw [beginsWord, Bool.not_eq_true'] at hbegins hbegins'
    obtain ⟨hstart, -⟩ := append_word_inj h (fun c hc => is_blank_of_word_character hc) hne hne'
      hword hword' hgap hgap' (last_of_or hbegins) (last_of_or hbegins')
    exact ⟨hstart, rfl⟩

/-- A text that does not end with a blank does not end with LIKE in front of a literal. -/
theorem not_ends_matches (h : cs.getLast?.any isBlank = false) :
    ¬ Ends Matches before cs := by
  rintro ⟨start, -, tail, rfl, -, word, gap, rfl, -, hne, hgap⟩
  rw [← List.append_assoc] at h
  obtain ⟨c, hc, hblank⟩ := exists_last_of_run (start ++ word) hne hgap
  rw [Option.mem_def.mp hc, Option.any_some, hblank] at h
  cases h

/-- LIKE is taken as it stands, and with an I in front of it. -/
theorem matching_like_eq_some_iff : matchingOperator? "LIKE" cs = some rest ↔
    ∃ word, cs = word ++ rest ∧ (Spells "LIKE".toList word ∨ Spells "ILIKE".toList word) := by
  rw [matchingOperator?, Option.or_eq_some_iff, any_case_eq_some_iff, any_case_eq_some_iff]
  constructor
  · rintro (⟨word, hword, rfl⟩ | ⟨-, word, hword, rfl⟩)
    · exact ⟨word, rfl, .inr hword⟩
    · exact ⟨word, rfl, .inl hword⟩
  · rintro ⟨word, rfl, hword | hword⟩
    · refine .inr ⟨?_, word, hword, rfl⟩
      cases hword with
      | @cons _ c _ _ hletter _ =>
          have hupper : c.toUpper = 'L' := by
            have hfirst : isLetter 'L' c = true := hletter
            simpa [isLetter] using hfirst
          rw [List.cons_append, anyCase?, if_neg]
          simp [isLetter, hupper]
    · exact .inl ⟨word, hword, rfl⟩

/-- LIKE is taken with a literal where it stands in front of one. -/
theorem matched_literal_eq_some_iff :
    matchedLiteral "LIKE" before cs = some (text, rest) ↔
      ∃ tail, Matches before () tail ∧ '\'' ∉ text ∧
        cs = tail ++ '\'' :: (text ++ '\'' :: rest) := by
  simp only [matchedLiteral, bind, Option.bind_eq_some_iff, guard_eq_some_iff,
    matching_like_eq_some_iff, blanks_eq_some_iff, quoted_text_eq_some_iff]
  constructor
  · rintro ⟨-, hbegins, _, ⟨word, rfl, hlike⟩, _, ⟨gap, rfl, hne, hgap, -⟩, rfl, htext⟩
    exact ⟨word ++ gap, ⟨hbegins, word, gap, rfl, hlike, hne, hgap⟩, htext, by simp⟩
  · rintro ⟨_, ⟨hbegins, word, gap, rfl, hlike, hne, hgap⟩, htext, rfl⟩
    refine ⟨(), hbegins, _, ⟨word, List.append_assoc .., hlike⟩, _,
      ⟨gap, rfl, hne, hgap, ?_⟩, by simp, htext⟩
    simp [isBlank]

/-- A LIKE that was found with its literal. -/
def Reading.ofMatch (found : Occurrence (List Char)) : Reading Unit :=
  ⟨found.offset, (), found.value⟩

/-- The search for LIKE takes each one that begins a text. -/
theorem searches_matches : Searches Matches (fun _ => True) fun before offset cs =>
    (occurrencesFrom (matchedLiteral "LIKE") before offset 0 cs).map .ofMatch where
  nil := rfl
  skip := by
    intro before offset c cs hopens
    have hnone : matchedLiteral "LIKE" before (c :: cs) = none := by
      rw [Option.eq_none_iff_forall_ne_some]
      rintro ⟨text, rest⟩ hsome
      obtain ⟨tail, hmatches, htext, hsplit⟩ := matched_literal_eq_some_iff.mp hsome
      exact hopens ⟨(), tail, text, rest, hmatches, htext, hsplit⟩
    rw [occurrencesFrom, hnone]
  found := by
    intro before offset u cs text behind hmatches htext _
    have hfound : matchedLiteral "LIKE" before ((cs ++ '\'' :: (text ++ ['\''])) ++ behind) =
        some (text, behind) :=
      matched_literal_eq_some_iff.mpr ⟨cs, hmatches, htext, by simp⟩
    have htaken : cs ++ '\'' :: (text ++ '\'' :: behind) =
        (cs ++ '\'' :: (text ++ ['\''])) ++ behind := by simp
    have hlast : (cs ++ '\'' :: (text ++ ['\''])).getLast?.or before = some '\'' :=
      last_behind_literal cs text [] before
    rw [htaken, occurrences_from_at (by simp) hfound, hlast]
    rfl

end Matching

section Remarks

variable {β : Type} {remarks : List Remark} {remark : Reading β → Remark}
  {P : Reading β → Prop} {readings : List (Reading β)}

/-- Remarks are made about readings with a property, one about each, in the order in which these
stand in the query. -/
def OneForEach (remarks : List Remark) (remark : Reading β → Remark) (P : Reading β → Prop) :
    Prop :=
  ∃ readings : List (Reading β), readings.Pairwise (·.position < ·.position) ∧
    (∀ reading, reading ∈ readings ↔ P reading) ∧ remarks = readings.map remark

/-- Of the remarks made about readings, each one is about a reading with the property, and each
reading with the property has one. -/
theorem OneForEach.mem_iff {r : Remark} (h : OneForEach remarks remark P) :
    r ∈ remarks ↔ ∃ reading, P reading ∧ remark reading = r := by
  obtain ⟨readings, -, hmem, rfl⟩ := h
  simp only [List.mem_map, hmem]

/-- Remarks about the readings that are kept are made about those among all readings. -/
theorem one_for_each_kept (remark : Reading β → Remark) (keep : Reading β → Bool)
    (hsorted : readings.Pairwise (·.position < ·.position))
    (hmem : ∀ reading, reading ∈ readings ↔ P reading) :
    OneForEach (readings.filterMap fun reading =>
        if keep reading = true then some (remark reading) else none)
      remark fun reading => P reading ∧ keep reading = true := by
  refine ⟨readings.filter keep, hsorted.filter _, fun reading => ?_, ?_⟩
  · rw [List.mem_filter, hmem]
  · rw [← List.filterMap_eq_map, List.filterMap_filter]
    rfl

/-- The remark on a comparison with a wildcard. -/
def comparisonRemark (reading : Reading String) : Remark :=
  (Remark.warning ("'%' is a wildcard only with LIKE/ILIKE; '" ++ reading.word
    ++ "' compares it literally")).placed reading.position

/-- The remark on a LIKE without wildcards. -/
def matchRemark (reading : Reading Unit) : Remark :=
  (Remark.warning "LIKE pattern has no % or _ wildcard; use '=' for an exact match").placed
    reading.position

/-- The check of wildcards makes one remark about each equality operator outside of literals that
stands in front of a literal with a percent sign. -/
def ReportsComparisons (query : List Char) : Prop :=
  OneForEach (wildcardWithEquals query) comparisonRemark fun reading =>
    Stands Compares none 0 query reading ∧ '%' ∈ reading.text

/-- The check of patterns makes one remark about each LIKE outside of literals that stands in front
of a literal without wildcards. -/
def ReportsMatches (query : List Char) : Prop :=
  OneForEach (likeWithoutWildcard query) matchRemark fun reading =>
    Stands Matches none 0 query reading ∧ '%' ∉ reading.text ∧ '_' ∉ reading.text

/-- The comparisons of a query are those that the check of wildcards looks at. -/
theorem comparisons_eq (query : List Char) :
    comparisons none 0 query = (occurrences equalityWithLiteral query).map .ofEquality := by
  cases hfirst : comparisonAt? none query with
  | none => exact comparisons_of_none hfirst
  | some found =>
      obtain ⟨⟨operator, text⟩, rest⟩ := found
      obtain ⟨tail, -, -, rfl⟩ := comparison_at_eq_some_iff.mp hfirst
      have hbytes : bytesUpTo rest (tail ++ '\'' :: (text ++ '\'' :: rest)) =
          byteLength (tail ++ '\'' :: (text ++ ['\''])) :=
        bytes_up_to_of_split (by simp)
      have hlast : (tail ++ '\'' :: (text ++ ['\''])).getLast?.or none = some '\'' :=
        last_behind_literal tail text [] none
      have htaken : tail ++ '\'' :: (text ++ '\'' :: rest) =
          (tail ++ '\'' :: (text ++ ['\''])) ++ rest := by simp
      have hfound : equalityWithLiteral none ((tail ++ '\'' :: (text ++ ['\''])) ++ rest) =
          some ((0, operator, text), rest) := by
        rw [← htaken, equality_with_literal_eq]
        have hcompared : comparedLiteral? (tail ++ '\'' :: (text ++ '\'' :: rest)) =
            some ((operator, text), rest) := hfirst
        rw [hcompared]
        rfl
      rw [comparisons_of_some hfirst, hbytes, htaken, occurrences,
        occurrences_from_at (by simp) hfound, hlast]
      rfl

theorem wildcard_with_equals_eq_filter_map (query : List Char) :
    wildcardWithEquals query = (comparisons none 0 query).filterMap fun reading =>
      if reading.text.contains '%' = true then some (comparisonRemark reading) else none := by
  rw [comparisons_eq, List.filterMap_map]
  rfl

/-- A text without wildcards is one without percent signs and underscores. -/
theorem no_wildcard_iff : (!text.any fun c => c == '%' || c == '_') = true ↔
    '%' ∉ text ∧ '_' ∉ text := by
  simp only [Bool.not_eq_true', List.any_eq_false, Bool.or_eq_true, beq_iff_eq, not_or]
  exact ⟨fun h => ⟨fun hmem => (h _ hmem).1 rfl, fun hmem => (h _ hmem).2 rfl⟩,
    fun h c hc => ⟨fun heq => h.1 (heq ▸ hc), fun heq => h.2 (heq ▸ hc)⟩⟩

theorem like_without_wildcard_eq_filter_map (query : List Char) :
    likeWithoutWildcard query =
      ((occurrences (matchedLiteral "LIKE") query).map Reading.ofMatch).filterMap fun reading =>
        if (!reading.text.any fun c => c == '%' || c == '_') = true then some (matchRemark reading)
        else none := by
  rw [List.filterMap_map, likeWithoutWildcard]
  refine List.filterMap_congr fun found _ => ?_
  show _ = if (!found.value.any fun c => c == '%' || c == '_') = true then _ else none
  cases found.value.any fun c => c == '%' || c == '_' <;> rfl

/-- The checks of what stands in front of literals, on queries with closed literals: as long as
their searches keep in step with the literals, they report what stands outside of literals. -/
theorem literal_checks_read_outside (query : List Char) (heven : Even (query.count '\'')) :
    (InStep Compares (fun behind => ¬ Opens Compares (some '\'') behind) none query →
      ReportsComparisons query) ∧
    (InStep Matches (fun _ => True) none query → ReportsMatches query) := by
  constructor
  · intro hstep
    obtain ⟨hsorted, hmem⟩ := searches_comparisons.reads 0 lawful_compares hstep heven
    have hkept := one_for_each_kept comparisonRemark (·.text.contains '%') hsorted hmem
    rw [← wildcard_with_equals_eq_filter_map] at hkept
    simpa only [ReportsComparisons, List.contains_iff_mem] using hkept
  · intro hstep
    obtain ⟨hsorted, hmem⟩ := searches_matches.reads 0 lawful_matches hstep heven
    have hkept := one_for_each_kept matchRemark
      (!·.text.any fun c => c == '%' || c == '_') hsorted hmem
    rw [← occurrences, ← like_without_wildcard_eq_filter_map] at hkept
    simpa only [ReportsMatches, no_wildcard_iff] using hkept

theorem literal_checks_read_outside_three_literals :
    let query := "a LIKE 'x' AND b <> 'y%=' AND c ILIKE 'z'".toList
    Even (query.count '\'') ∧
      InStep Compares (fun behind => ¬ Opens Compares (some '\'') behind) none query ∧
      InStep Matches (fun _ => True) none query ∧
      ReportsComparisons query ∧ ReportsMatches query := by
  intro query
  have heven : Even (query.count '\'') := by decide +kernel
  have hquery : query = "a LIKE ".toList ++ '\'' :: ("x".toList ++ '\'' :: (" AND b <> ".toList ++
      '\'' :: ("y%=".toList ++ '\'' :: (" AND c ILIKE ".toList ++
        '\'' :: ("z".toList ++ '\'' :: []))))) := by decide +kernel
  have hcompares : InStep Compares (fun behind => ¬ Opens Compares (some '\'') behind) none
      query := by
    rw [hquery, in_step_iff lawful_compares (by decide) (by decide),
      in_step_iff lawful_compares (by decide) (by decide),
      in_step_iff lawful_compares (by decide) (by decide)]
    have hread : Ends Compares (some '\'') " AND b <> ".toList :=
      ⟨" AND b ".toList, "<>", "<> ".toList, by decide, by decide, by decide, " ".toList, by decide,
        List.all_eq_true.mp (by decide)⟩
    exact ⟨fun _ _ => not_ends_compares (by decide),
      fun _ => comparison_at_eq_none_iff.mp (by decide +kernel), fun hends => absurd hread hends,
      fun _ => comparison_at_eq_none_iff.mp (by decide +kernel), fun _ h => absurd h (by decide),
      fun _ => comparison_at_eq_none_iff.mp (by decide +kernel), in_step_of_quoteless (by decide)⟩
  have hmatches : InStep Matches (fun _ => True) none query := by
    rw [hquery, in_step_iff lawful_matches (by decide) (by decide),
      in_step_iff lawful_matches (by decide) (by decide),
      in_step_iff lawful_matches (by decide) (by decide)]
    exact ⟨fun _ _ => not_ends_matches (by decide), fun _ => trivial,
      fun _ _ => not_ends_matches (by decide), fun _ => trivial, fun _ h => absurd h (by decide),
      fun _ => trivial, in_step_of_quoteless (by decide)⟩
  obtain ⟨hfirst, hsecond⟩ := literal_checks_read_outside query heven
  exact ⟨heven, hcompares, hmatches, hfirst hcompares, hsecond hmatches⟩

/-- Where a literal ends with an operator or with LIKE, the searches take its closing quote for an
opening one: an operator behind it is lost, and a remark is made about what stands inside of it. -/
theorem literal_checks_misread :
    (let query := "a ILIKE 'x=' AND b = '%y%'".toList
     Even (query.count '\'') ∧ wildcardWithEquals query = [] ∧ ¬ ReportsComparisons query) ∧
    (let query := "a ILIKE 'x=' AND c % 2 <> 'z'".toList
     Even (query.count '\'') ∧
      wildcardWithEquals query = [comparisonRemark ⟨10, "=", " AND c % 2 <> ".toList⟩] ∧
      ¬ ReportsComparisons query) ∧
    (let query := "a = 'LIKE ' AND b LIKE 'x'".toList
     Even (query.count '\'') ∧
      likeWithoutWildcard query = [matchRemark ⟨5, (), " AND b LIKE ".toList⟩] ∧
      ¬ ReportsMatches query) := by
  refine ⟨⟨by decide +kernel, by decide +kernel, fun hreports => ?lost⟩,
    ⟨by decide +kernel, by decide +kernel, fun hreports => ?comparison⟩,
    ⟨by decide +kernel, by decide +kernel, fun hreports => ?matched⟩⟩
  case lost =>
    have hstands : Stands Compares none 0 "a ILIKE 'x=' AND b = '%y%'".toList
        ⟨19, "=", "%y%".toList⟩ :=
      ⟨"a ILIKE 'x=' AND b ".toList, "= ".toList, [], by decide +kernel, by decide +kernel,
        by decide, ⟨by decide, by decide, " ".toList, by decide, List.all_eq_true.mp (by decide)⟩,
        by decide +kernel⟩
    have hremark := hreports.mem_iff.mpr ⟨_, ⟨hstands, by decide⟩, rfl⟩
    exact absurd hremark (by decide +kernel)
  case comparison =>
    have hremark : comparisonRemark ⟨10, "=", " AND c % 2 <> ".toList⟩ ∈
        wildcardWithEquals "a ILIKE 'x=' AND c % 2 <> 'z'".toList := by decide +kernel
    obtain ⟨reading, ⟨hstands, -⟩, hsame⟩ := hreports.mem_iff.mp hremark
    have hposition : reading.position = 10 := Option.some.inj (congrArg Remark.position hsame)
    have hsplit : "a ILIKE 'x=' AND c % 2 <> 'z'".toList =
        "a ILIKE 'x".toList ++ "=' AND c % 2 <> 'z'".toList := by decide +kernel
    rw [hsplit] at hstands
    exact absurd (hstands.even (by rw [hposition]; decide +kernel)) (by decide +kernel)
  case matched =>
    have hremark : matchRemark ⟨5, (), " AND b LIKE ".toList⟩ ∈
        likeWithoutWildcard "a = 'LIKE ' AND b LIKE 'x'".toList := by decide +kernel
    obtain ⟨reading, ⟨hstands, -⟩, hsame⟩ := hreports.mem_iff.mp hremark
    have hposition : reading.position = 5 := Option.some.inj (congrArg Remark.position hsame)
    have hsplit : "a = 'LIKE ' AND b LIKE 'x'".toList =
        "a = '".toList ++ "LIKE ' AND b LIKE 'x'".toList := by decide +kernel
    rw [hsplit] at hstands
    exact absurd (hstands.even (by rw [hposition]; decide +kernel)) (by decide +kernel)

end Remarks

end Ariel.Validation
