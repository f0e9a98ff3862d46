import Ariel.Proofs.Validation.Keyword
import Ariel.Proofs.Validation.Outside

/-!
# What a query begins with

A query has to begin with SELECT. The check looks for the word anywhere outside of literals, and for
its letters alone at the beginning. `judges_beginning_iff` says when the two tell the same: unless
the query begins with a longer word and SELECT stands further on.
-/

namespace Ariel.Validation

open Ariel.Text

variable {query cs rest : List Char}

/-- The remark on a query without SELECT. -/
def missingSelect : Remark := .error "Query is missing SELECT keyword"

/-- The remark on a query that does not begin with SELECT. -/
def lateSelect : Remark := .error "Query should start with SELECT"

/-- A query begins with a keyword as a whole word, its leading blanks apart. -/
def BeginsWith (keyword : String) (query : List Char) : Prop :=
  ∃ word rest, dropBlanks (mask query) = word ++ rest ∧ capitals word = keyword.toList ∧
    endsWord rest = true

/-- A query begins with a longer word that only begins with the letters of a keyword. -/
def BeginsLonger (keyword : String) (query : List Char) : Prop :=
  ∃ word rest, dropBlanks (mask query) = word ++ rest ∧ capitals word = keyword.toList ∧
    endsWord rest = false

/-- The first place where a keyword stands as a whole word outside of literals. -/
structure FirstWordAt (keyword : String) (query : List Char) (offset : Nat) : Prop where
  here : WordAt keyword query offset
  first : ∀ other, WordAt keyword query other → offset ≤ other

/-- What the check of the beginning is to tell of a query: nothing where it begins with SELECT, that
SELECT is missing where it stands nowhere, and else the first place where it stands. -/
structure JudgesBeginning (query : List Char) : Prop where
  silent : remarksOf .leadingSelect query = [] ↔ BeginsWith "SELECT" query
  missing : remarksOf .leadingSelect query = [missingSelect] ↔
    ∀ offset, ¬ WordAt "SELECT" query offset
  late : (∃ offset, WordAt "SELECT" query offset) → ¬ BeginsWith "SELECT" query →
    ∃ offset, FirstWordAt "SELECT" query offset ∧
      remarksOf .leadingSelect query = [lateSelect.placed offset]

theorem letter_word_select : LetterWord "SELECT" := by decide

section Words

variable {keyword : String} {offset : Nat}

/-- The letters of a keyword at the beginning are the keyword, or a longer word. -/
theorem begins_with_or_longer_iff : (keyword? keyword (dropBlanks (mask query))).isSome = true ↔
    BeginsWith keyword query ∨ BeginsLonger keyword query := by
  rw [Option.isSome_iff_exists]
  constructor
  · rintro ⟨rest, hread⟩
    obtain ⟨word, hsplit, hword⟩ := keyword_eq_some_iff.mp hread
    cases hends : endsWord rest with
    | true => exact .inl ⟨word, rest, hsplit, hword, hends⟩
    | false => exact .inr ⟨word, rest, hsplit, hword, hends⟩
  · rintro (⟨word, rest, hsplit, hword, -⟩ | ⟨word, rest, hsplit, hword, -⟩)
    · exact ⟨rest, keyword_eq_some_iff.mpr ⟨word, hsplit, hword⟩⟩
    · exact ⟨rest, keyword_eq_some_iff.mpr ⟨word, hsplit, hword⟩⟩

/-- A query does not begin with a keyword and with a longer word. -/
theorem not_begins_longer (h : BeginsWith keyword query) : ¬ BeginsLonger keyword query := by
  rintro ⟨word', rest', hsplit', hword', hlonger⟩
  obtain ⟨word, rest, hsplit, hword, hends⟩ := h
  have hlength : word.length = word'.length := by
    rw [← length_capitals word, ← length_capitals word', hword, hword']
  obtain ⟨-, rfl⟩ := List.append_inj (hsplit.symm.trans hsplit') hlength
  rw [hends] at hlonger
  cases hlonger

/-- The keyword at the beginning of a query stands outside of literals. -/
theorem exists_word_at_of_begins_with (hkeyword : LetterWord keyword)
    (h : BeginsWith keyword query) : ∃ offset, WordAt keyword query offset := by
  obtain ⟨word, rest, hsplit, hword, hends⟩ := h
  obtain ⟨gap, hmask, hgap⟩ := drop_blanks_spec (mask query)
  rw [hsplit] at hmask
  have hbegins : beginsWord ([] ++ gap).getLast? = true :=
    begins_word_behind_blanks hgap (.inl rfl)
  exact ⟨_, (word_at_iff_stands_in hkeyword).mpr
    ⟨rest, ⟨gap, word, hmask, rfl, hbegins, hword⟩, hends⟩⟩

/-- A keyword is not found in a mask exactly when it stands nowhere outside of literals. -/
theorem first_occurrence_eq_none_iff (hkeyword : LetterWord keyword) :
    firstOccurrence? (wholeWord keyword) (mask query) = none ↔
      ∀ offset, ¬ WordAt keyword query offset := by
  rw [firstOccurrence?, List.head?_eq_none_iff, occurrences_eq_nil_iff]
  constructor
  · intro h offset hword
    obtain ⟨front, tail, hsplit, -, hmatch⟩ := (word_at_iff hkeyword).mp hword
    exact h front tail () hsplit hmatch
  · intro h front tail u hsplit hmatch
    exact h _ ((word_at_iff hkeyword).mpr ⟨front, tail, hsplit, rfl, hmatch⟩)

/-- The keyword that is found first is the first one that stands outside of literals. -/
theorem first_word_at_of_first_occurrence (hkeyword : LetterWord keyword)
    {found : Occurrence Unit}
    (h : firstOccurrence? (wholeWord keyword) (mask query) = some found) :
    FirstWordAt keyword query found.offset := by
  obtain ⟨⟨front, tail, hsplit, hoffset, hmatch⟩, hfirst⟩ := first_occurrence_eq_some h
  refine ⟨(word_at_iff hkeyword).mpr ⟨front, tail, hsplit, hoffset, hmatch⟩, fun other hother => ?_⟩
  obtain ⟨front', tail', hsplit', rfl, hmatch'⟩ := (word_at_iff hkeyword).mp hother
  exact hfirst front' tail' () hsplit' hmatch'

end Words

/-- Where SELECT is not found, the check of the beginning remarks that it is missing. -/
theorem leading_select_of_none (hfilled : query.all isBlank = false)
    (hfirst : firstOccurrence? (wholeWord "SELECT") (mask query) = none) :
    remarksOf .leadingSelect query = [missingSelect] := by
  have hmask : (mask query).all isBlank = false := by rw [all_blank_mask, hfilled]
  show leadingSelect (mask query) = _
  rw [leadingSelect, hmask, hfirst]
  rfl

/-- Where SELECT is found, the check of the beginning asks for its letters there. -/
theorem leading_select_of_some {select : Occurrence Unit} (hfilled : query.all isBlank = false)
    (hfirst : firstOccurrence? (wholeWord "SELECT") (mask query) = some select) :
    remarksOf .leadingSelect query =
      if (keyword? "SELECT" (dropBlanks (mask query))).isSome then []
      else [lateSelect.placed select.offset] := by
  have hmask : (mask query).all isBlank = false := by rw [all_blank_mask, hfilled]
  show leadingSelect (mask query) = _
  rw [leadingSelect, hmask, hfirst]
  rfl

/-- What the check of the beginning remarks on a query that is not blank. -/
theorem leading_select_cases (hfilled : query.all isBlank = false) :
    ((∀ offset, ¬ WordAt "SELECT" query offset) ∧
      remarksOf .leadingSelect query = [missingSelect]) ∨
    ∃ offset, FirstWordAt "SELECT" query offset ∧
      (((BeginsWith "SELECT" query ∨ BeginsLonger "SELECT" query) ∧
          remarksOf .leadingSelect query = []) ∨
        (¬ (BeginsWith "SELECT" query ∨ BeginsLonger "SELECT" query) ∧
          remarksOf .leadingSelect query = [lateSelect.placed offset])) := by
  cases hfirst : firstOccurrence? (wholeWord "SELECT") (mask query) with
  | none =>
      exact .inl ⟨(first_occurrence_eq_none_iff letter_word_select).mp hfirst,
        leading_select_of_none hfilled hfirst⟩
  | some select =>
      refine .inr ⟨select.offset, first_word_at_of_first_occurrence letter_word_select hfirst, ?_⟩
      rw [← begins_with_or_longer_iff, leading_select_of_some hfilled hfirst]
      by_cases hletters : (keyword? "SELECT" (dropBlanks (mask query))).isSome = true
      · exact .inl ⟨hletters, if_pos hletters⟩
      · exact .inr ⟨hletters, if_neg hletters⟩

/-- The check of the beginning tells what it is to tell of every query that is not blank, unless the
query begins with a longer word than SELECT and the word itself stands further on. -/
theorem judges_beginning_iff (hfilled : query.all isBlank = false) :
    JudgesBeginning query ↔
      ¬ (BeginsLonger "SELECT" query ∧ ∃ offset, WordAt "SELECT" query offset) := by
  rcases leading_select_cases hfilled with ⟨hnone, hremarks⟩ | ⟨offset, hfirst, hcases⟩
  · -- SELECT stands nowhere, and so not at the beginning either.
    have hbegins : ¬ BeginsWith "SELECT" query := fun h =>
      (exists_word_at_of_begins_with letter_word_select h).elim hnone
    refine iff_of_true ⟨?_, iff_of_true hremarks hnone, fun h => absurd h ?_⟩ fun h =>
      h.2.elim hnone
    · rw [hremarks]
      exact iff_of_false (List.cons_ne_nil _ _) hbegins
    · exact fun h => h.elim hnone
  · have hsome : ¬ ∀ offset, ¬ WordAt "SELECT" query offset := fun h => h offset hfirst.here
    constructor
    · rintro hjudges ⟨hlonger, -⟩
      rcases hcases with ⟨-, hremarks⟩ | ⟨hneither, -⟩
      · exact not_begins_longer (hjudges.silent.mp hremarks) hlonger
      · exact hneither (.inr hlonger)
    · intro hclear
      have hlonger : ¬ BeginsLonger "SELECT" query := fun h => hclear ⟨h, offset, hfirst.here⟩
      rcases hcases with ⟨hletters, hremarks⟩ | ⟨hneither, hremarks⟩
      · have hbegins := hletters.resolve_right hlonger
        refine ⟨iff_of_true hremarks hbegins, ?_, fun _ h => absurd hbegins h⟩
        rw [hremarks]
        exact iff_of_false (List.cons_ne_nil _ _).symm hsome
      · have hbegins : ¬ BeginsWith "SELECT" query := fun h => hneither (.inl h)
        refine ⟨?_, ?_, fun _ _ => ⟨offset, hfirst, hremarks⟩⟩
        · rw [hremarks]
          exact iff_of_false (List.cons_ne_nil _ _) hbegins
        · rw [hremarks]
          refine iff_of_false (fun hsame => ?_) hsome
          cases congrArg (·.map Remark.position) hsame

/-- SELECT in a literal and at the front of a longer word is passed over, and the word behind them
is reported. -/
theorem judges_beginning_late_word :
    let query := "WITH 'select' SELECTED (select 1)".toList
    query.all isBlank = false ∧ JudgesBeginning query ∧
      remarksOf .leadingSelect query = [lateSelect.placed 24] := by
  intro query
  have hfilled : query.all isBlank = false := by decide
  have hletters : ¬ (keyword? "SELECT" (dropBlanks (mask query))).isSome = true := by decide +kernel
  refine ⟨hfilled, (judges_beginning_iff hfilled).mpr fun h => ?_, by decide +kernel⟩
  exact hletters (begins_with_or_longer_iff.mpr (.inr h.1))

/-- A longer word at the beginning hides that SELECT comes late. -/
theorem not_judges_beginning_of_longer_word :
    let query := "SELECTED SELECT * FROM events".toList
    query.all isBlank = false ∧ remarksOf .leadingSelect query = [] ∧ ¬ JudgesBeginning query := by
  intro query
  have hremarks : remarksOf .leadingSelect query = [] := by decide +kernel
  refine ⟨by decide, hremarks, fun hjudges => ?_⟩
  have hlonger : BeginsLonger "SELECT" query :=
    ⟨"SELECT".toList, "ED SELECT * FROM events".toList, by decide +kernel, by decide, by decide⟩
  exact not_begins_longer (hjudges.silent.mp hremarks) hlonger

end Ariel.Validation
