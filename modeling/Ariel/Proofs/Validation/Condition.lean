import Ariel.Proofs.Text.Phrase
import Ariel.Proofs.Text.Scan
import Ariel.Proofs.Validation.Keyword
import Ariel.Proofs.Validation.Pattern

/-!
# Keywords without a condition

The check of conditions reports a keyword with no condition behind it. It does not ask for the end
of the keyword's word in front of the next clause, so that an identifier that runs from a keyword
into the beginning of a clause is taken for both. `reports_conditions_iff` says that nothing else
goes wrong: where no such identifier stands, whole words are reported, in order, and an empty WHERE
at the end of a query is among them.
-/

namespace Ariel.Validation

open Ariel.Text

variable {keyword : String} {query front tail word cs rest : List Char} {before : Option Char}
  {offset : Nat} {clause : List Char → Option (List Char)}

/-- The keywords behind which a condition has to stand. -/
def conditionKeywords : List String := ["WHERE", "HAVING", "AND", "OR"]

/-- Take the beginning of a clause that leaves a keyword without its condition. -/
def clauseBehind? (keyword : String) : List Char → Option (List Char) :=
  if keyword = "HAVING" then laterClause? else followingClause?

/-- A word outside of literals runs from one of the keywords into the beginning of a clause. -/
def Glued (query : List Char) (offset : Nat) : Prop :=
  ∃ keyword ∈ conditionKeywords, ∃ rest, BeginsAt keyword query offset rest ∧
    (clauseBehind? keyword (mask rest)).isSome = true

/-- The remark on a WHERE without conditions. -/
def emptyWhere : Remark := .warning "WHERE clause has no conditions"

/-- What the check of conditions is to tell of a query: it reports keywords that stand as whole
words outside of literals, from left to right, and every WHERE with nothing behind it. -/
structure ReportsConditions (query : List Char) : Prop where
  words : ∀ remark ∈ remarksOf .emptyConditions query, ∃ keyword ∈ conditionKeywords,
    ∃ offset, remark.position = some offset ∧ WordAt keyword query offset
  sorted : (remarksOf .emptyConditions query).Pairwise fun remark later =>
    remark.position.getD 0 ≤ later.position.getD 0
  closing : ∀ offset rest, BeginsAt "WHERE" query offset rest → (∀ c ∈ rest, isBlank c = true) →
    emptyWhere.placed offset ∈ remarksOf .emptyConditions query

section Pattern

/-- A keyword is without a condition where nothing stands between it and what is behind it. -/
theorem empty_clause_eq_some_iff {u : Unit} :
    emptyClause keyword clause before cs = some (u, rest) ↔ beginsWord before = true ∧
      ∃ word tail, cs = word ++ tail ∧ capitals word = keyword.toList ∧
        nothingBefore? clause tail = some rest := by
  simp only [emptyClause, bind, Option.bind_eq_some_iff, Prod.exists, word_start_eq_some_iff, pure,
    Option.some.injEq, Prod.mk.injEq]
  constructor
  · rintro ⟨-, tail, ⟨hbegins, word, rfl, hword⟩, _, hnothing, -, rfl⟩
    exact ⟨hbegins, word, tail, rfl, hword, hnothing⟩
  · rintro ⟨hbegins, word, tail, rfl, hword, hnothing⟩
    exact ⟨(), tail, ⟨hbegins, word, rfl, hword⟩, rest, hnothing, trivial, rfl⟩

/-- Where a connective stands, it is found. -/
theorem connective_eq_some_iff {connective : String} :
    connective? cs = some (connective, rest) ↔
      connective ∈ ["AND", "OR"] ∧ keyword? connective cs = some rest := by
  constructor
  · intro h
    obtain ⟨keyword, hmem, hfound⟩ := List.exists_of_findSome?_eq_some h
    obtain ⟨tail, hkeyword, heq⟩ := Option.map_eq_some_iff.mp hfound
    cases heq
    exact ⟨hmem, hkeyword⟩
  · rintro ⟨hmem, hkeyword⟩
    rcases List.mem_pair.mp hmem with rfl | rfl
    · simp [connective?, hkeyword]
    · -- Where OR stands there is no AND, which begins with another letter.
      have hand : keyword? "AND" cs = none := by
        refine Option.eq_none_iff_forall_ne_some.mpr fun rest' hand => ?_
        obtain ⟨word, rfl, hword⟩ := keyword_eq_some_iff.mp hkeyword
        obtain ⟨word', hsplit, hword'⟩ := keyword_eq_some_iff.mp hand
        have hhead := head_of_keyword (by decide) hword' rest'
        rw [← hsplit, head_of_keyword (by decide) hword] at hhead
        cases hhead
      simp [connective?, hand, hkeyword]

/-- A connective without a condition is a keyword without one. -/
theorem trailing_connective_eq_some_iff {connective : String} :
    trailingConnective before cs = some (connective, rest) ↔ connective ∈ ["AND", "OR"] ∧
      emptyClause connective followingClause? before cs = some ((), rest) := by
  simp only [trailingConnective, emptyClause, wordStart, bind, Option.bind_eq_some_iff,
    guard_eq_some_iff, Prod.exists, connective_eq_some_iff, pure, Option.some.injEq, Prod.mk.injEq]
  constructor
  · rintro ⟨-, hbegins, _, tail, ⟨hmem, hkeyword⟩, left, hnothing, rfl, rfl⟩
    exact ⟨hmem, (), tail, ⟨(), hbegins, tail, hkeyword, trivial, rfl⟩, left, hnothing, trivial,
      rfl⟩
  · rintro ⟨hmem, -, _, ⟨-, hbegins, tail, hkeyword, -, rfl⟩, left, hnothing, -, rfl⟩
    exact ⟨(), hbegins, connective, tail, ⟨hmem, hkeyword⟩, left, hnothing, rfl, rfl⟩

/-- Behind a keyword without a condition stand blanks up to the end, or blanks and a clause. -/
theorem nothing_before_cases (h : nothingBefore? clause cs = some rest) :
    ((∀ c ∈ cs, isBlank c = true) ∧ rest = []) ∨
      ∃ gap text, cs = gap ++ text ∧ (∀ c ∈ gap, isBlank c = true) ∧ clause text = some rest := by
  obtain ⟨gap, hsplit, hgap⟩ := drop_blanks_spec cs
  rw [nothingBefore?] at h
  split at h
  next hnil =>
    rw [hnil, List.append_nil] at hsplit
    exact .inl ⟨hsplit ▸ hgap, (Option.some.inj h).symm⟩
  next c text hcons => exact .inr ⟨gap, c :: text, hcons ▸ hsplit, hgap, h⟩

/-- Where nothing stands before a clause, a word ends, or the clause stands right there. -/
theorem ends_word_of_nothing_before (h : nothingBefore? clause cs = some rest) :
    endsWord cs = true ∨ (clause cs).isSome = true := by
  rcases nothing_before_cases h with ⟨hblank, -⟩ | ⟨gap, text, rfl, hgap, hclause⟩
  · cases cs with
    | nil => exact .inl rfl
    | cons c cs =>
        rw [← List.append_nil (c :: cs)]
        exact .inl (ends_word_of_blanks (by simp) hblank)
  · cases gap with
    | nil => exact .inr (Option.isSome_iff_exists.mpr ⟨rest, hclause⟩)
    | cons c gap => exact .inl (ends_word_of_blanks (by simp) hgap)

end Pattern

section Row

variable {first second : String} {names names' : List String}
  {other : List Char → Option (List Char)}

/-- The words of the clauses that can stand behind HAVING. -/
def laterWords : List String := ["ORDER", "BY", "LIMIT", "LAST", "START"]

/-- The words of the clauses that leave a keyword without its condition. -/
def wordsBehind (keyword : String) : List String :=
  if keyword = "HAVING" then laterWords else "GROUP" :: "BY" :: "HAVING" :: laterWords

/-- A reader takes a row of words, at least one, that are among the given ones. -/
def TakesWords (names : List String) (clause : List Char → Option (List Char)) : Prop :=
  ∀ {cs rest}, clause cs = some rest → ∃ word words, Words (word :: words) cs rest ∧
    ∀ later ∈ word :: words, ∃ name ∈ names, capitals later = name.toList

/-- The keywords of conditions are written in letters. -/
theorem letter_word_of_condition_keywords : ∀ keyword ∈ conditionKeywords, LetterWord keyword := by
  decide

/-- The words of the clauses behind them are, too. -/
theorem letter_word_behind : ∀ name ∈ wordsBehind keyword, LetterWord name := by
  unfold wordsBehind
  split <;> decide

/-- A row of words that are among some is one of words that are among more. -/
theorem TakesWords.mono (h : TakesWords names clause) (hsub : names ⊆ names') :
    TakesWords names' clause := by
  intro cs rest hfound
  obtain ⟨word, words, hrow, hwords⟩ := h hfound
  refine ⟨word, words, hrow, fun later hlater => ?_⟩
  obtain ⟨name, hname, hcapitals⟩ := hwords later hlater
  exact ⟨name, hsub hname, hcapitals⟩

/-- One reader or another takes words when both do. -/
theorem takes_words_or (h : TakesWords names clause) (hother : TakesWords names other) :
    TakesWords names fun cs => (clause cs).or (other cs) := by
  intro cs rest hfound
  rcases Option.or_eq_some_iff.mp hfound with hfound | ⟨-, hfound⟩
  · exact h hfound
  · exact hother hfound

/-- A keyword and a gap begin a row of words. -/
theorem words_of_keyword {words : List (List Char)} {gap text : List Char}
    (hkeyword : LetterWord keyword) (hword : capitals word = keyword.toList)
    (hgap : ∀ c ∈ gap, c.isAlpha = false) (h : Words words text rest) :
    Words (word :: words) (word ++ (gap ++ text)) rest := by
  obtain ⟨hne, hletters⟩ := is_alpha_of_keyword hkeyword hword
  exact .cons hne (fun c hc => is_word_character_of_alpha (hletters c hc)) hgap h

/-- A phrase is a row of two words. -/
theorem takes_words_phrase (hfirst : LetterWord first) (hsecond : LetterWord second)
    (hmem : first ∈ names) (hmem' : second ∈ names) : TakesWords names (phrase? first second) := by
  intro cs rest hfound
  obtain ⟨-, word, gap, word', rfl, hword, -, hgap, hword', -⟩ := phrase_eq_some_iff.mp hfound
  refine ⟨word, [word'], ?_, ?_⟩
  · have hlast : Words [word'] (word' ++ ([] ++ rest)) rest :=
      words_of_keyword hsecond hword' (by simp) .nil
    exact words_of_keyword hfirst hword (fun c hc => is_alpha_of_blank (hgap c hc)) hlast
  · simp only [List.mem_cons, List.not_mem_nil, or_false, forall_eq_or_imp, forall_eq]
    exact ⟨⟨first, hmem, hword⟩, second, hmem', hword'⟩

/-- A keyword as a whole word is a row of one word. -/
theorem takes_words_word_end (hkeyword : LetterWord keyword) (hmem : keyword ∈ names) :
    TakesWords names (wordEnd? keyword) := by
  intro cs rest hfound
  simp only [wordEnd?, bind, Option.bind_eq_some_iff, keyword_eq_some_iff, guard_eq_some_iff, pure,
    Option.some.injEq] at hfound
  obtain ⟨_, ⟨word, rfl, hword⟩, -, -, rfl⟩ := hfound
  have hgap : ∀ c ∈ ([] : List Char), c.isAlpha = false := by simp
  refine ⟨word, [], words_of_keyword hkeyword hword hgap .nil, ?_⟩
  simpa using ⟨keyword, hmem, hword⟩

/-- LAST and a digit are a row of one word. -/
theorem takes_words_last_amount (hmem : "LAST" ∈ names) : TakesWords names lastAmount? := by
  intro cs rest hfound
  have hlast : lastAmount none cs = some ((), rest) := by
    simp [lastAmount, hfound, beginsWord, guard, bind, pure]
  obtain ⟨-, word, gap, digit, rfl, hword, -, hgap, hdigit⟩ := last_amount_eq_some_iff.mp hlast
  refine ⟨word, [], ?_, by simpa using ⟨"LAST", hmem, hword⟩⟩
  -- The digit belongs to the gap behind LAST.
  have hsplit : gap ++ digit :: rest = (gap ++ [digit]) ++ rest := by simp
  rw [hsplit]
  have hkeyword : LetterWord "LAST" := by decide
  refine words_of_keyword hkeyword hword (fun c hc => ?_) .nil
  rcases List.mem_append.mp hc with hc | hc
  · exact is_alpha_of_blank (hgap c hc)
  · rw [List.mem_singleton.mp hc]
    exact is_alpha_of_decimal_digit hdigit

/-- The clauses that can stand behind HAVING are rows of their words. -/
theorem takes_words_later : TakesWords laterWords laterClause? :=
  takes_words_or (takes_words_phrase (by decide) (by decide) (by decide) (by decide)) <|
    takes_words_or (takes_words_word_end (by decide) (by decide)) <|
      takes_words_or (takes_words_last_amount (by decide))
        (takes_words_word_end (by decide) (by decide))

/-- What is taken as a clause behind a keyword is a row of the words of such clauses. -/
theorem takes_words_clause_behind (keyword : String) :
    TakesWords (wordsBehind keyword) (clauseBehind? keyword) := by
  unfold wordsBehind clauseBehind?
  split
  · exact takes_words_later
  · exact takes_words_or (takes_words_phrase (by decide) (by decide) (by decide) (by decide)) <|
      takes_words_or (takes_words_word_end (by decide) (by decide))
        (takes_words_later.mono (by decide))

/-- A clause begins with the first letter of a word of clauses. -/
theorem head_of_clause (h : (clauseBehind? keyword cs).isSome = true) :
    ∃ name ∈ wordsBehind keyword, cs.head?.map Char.toUpper = name.toList.head? := by
  obtain ⟨rest, hrest⟩ := Option.isSome_iff_exists.mp h
  obtain ⟨word, words, hrow, hwords⟩ := takes_words_clause_behind keyword hrest
  obtain ⟨name, hname, hword⟩ := hwords word List.mem_cons_self
  refine ⟨name, hname, ?_⟩
  cases hrow with
  | cons => exact head_of_keyword (letter_word_behind name hname) hword _

/-- A clause begins with a letter. -/
theorem exists_letter_of_clause (h : (clauseBehind? keyword cs).isSome = true) :
    ∃ c more, cs = c :: more ∧ c.isAlpha = true := by
  obtain ⟨name, hname, hhead⟩ := head_of_clause h
  have hletters := letter_word_behind name hname
  obtain ⟨letter, letters, hspelled⟩ := List.exists_cons_of_ne_nil hletters.ne_nil
  rw [hspelled] at hhead
  cases cs with
  | nil => cases hhead
  | cons c more =>
      refine ⟨c, more, rfl, ?_⟩
      rw [← is_alpha_to_upper, Option.some.inj hhead]
      exact hletters.letters letter (by rw [hspelled]; exact List.mem_cons_self)

/-- A clause right behind a keyword leaves nothing before it. -/
theorem nothing_before_of_clause (h : (clauseBehind? keyword cs).isSome = true) :
    ∃ rest, nothingBefore? (clauseBehind? keyword) cs = some rest := by
  obtain ⟨c, more, rfl, halpha⟩ := exists_letter_of_clause h
  obtain ⟨rest, hrest⟩ := Option.isSome_iff_exists.mp h
  have hdrop : dropBlanks (c :: more) = c :: more :=
    drop_blanks_of_head (by simpa using is_blank_of_alpha halpha)
  exact ⟨rest, by rw [nothingBefore?, hdrop]; exact hrest⟩

/-- A keyword without a condition and the clause behind it are a row of words. -/
theorem words_of_empty_clause {u : Unit} (hkeyword : LetterWord keyword)
    (h : emptyClause keyword (clauseBehind? keyword) before cs = some (u, rest)) :
    beginsWord before = true ∧ ∃ word words, word.head?.any Char.isAlpha = true ∧
      Words (word :: words) cs rest ∧
      ∀ later ∈ words, ∃ name ∈ wordsBehind keyword, capitals later = name.toList := by
  obtain ⟨hbegins, word, tail, rfl, hword, hnothing⟩ := empty_clause_eq_some_iff.mp h
  have hletter : word.head?.any Char.isAlpha = true := by
    obtain ⟨hne, halpha⟩ := is_alpha_of_keyword hkeyword hword
    obtain ⟨c, more, rfl⟩ := List.exists_cons_of_ne_nil hne
    exact halpha c List.mem_cons_self
  refine ⟨hbegins, word, ?_⟩
  rcases nothing_before_cases hnothing with ⟨hblank, rfl⟩ | ⟨gap, text, rfl, hgap, hclause⟩
  · refine ⟨[], hletter, ?_, by simp⟩
    have hend : Words [] [] [] := .nil
    have hrow := words_of_keyword hkeyword hword (fun c hc => is_alpha_of_blank (hblank c hc)) hend
    rwa [List.append_nil] at hrow
  · obtain ⟨first, more, hrow, hwords⟩ := takes_words_clause_behind keyword hclause
    exact ⟨first :: more, hletter,
      words_of_keyword hkeyword hword (fun c hc => is_alpha_of_blank (hgap c hc)) hrow, hwords⟩

/-- No word of a clause is taken for a keyword without a condition. -/
theorem empty_clause_of_clause_word {name : String} (hkeyword : keyword ∈ conditionKeywords)
    (hname : name ∈ wordsBehind keyword) (hword : capitals word = name.toList) :
    emptyClause keyword (clauseBehind? keyword) before (word ++ rest) = none := by
  refine Option.eq_none_iff_forall_ne_some.mpr fun found hfound => ?_
  obtain ⟨-, word', tail, hsplit, hword', hnothing⟩ := empty_clause_eq_some_iff.mp hfound
  have hhead := head_of_keyword (letter_word_behind _ hname) hword rest
  rw [hsplit, head_of_keyword (letter_word_of_condition_keywords _ hkeyword) hword'] at hhead
  -- Only OR and ORDER begin with the same letter, and DER begins no clause.
  have hletters : ∀ keyword ∈ conditionKeywords, ∀ name ∈ wordsBehind keyword,
      keyword.toList.head? = name.toList.head? → keyword = "OR" ∧ name = "ORDER" := by decide
  obtain ⟨rfl, rfl⟩ := hletters keyword hkeyword name hname hhead
  have hcapitals := congrArg capitals hsplit
  rw [capitals_append, capitals_append, hword, hword'] at hcapitals
  have htail : capitals tail = 'D' :: 'E' :: 'R' :: capitals rest := by simpa using hcapitals.symm
  have hne : tail ≠ [] := by
    rintro rfl
    cases htail
  obtain ⟨c, more, rfl⟩ := List.exists_cons_of_ne_nil hne
  have hc : c.toUpper = 'D' := (List.cons.inj htail).1
  rcases ends_word_of_nothing_before hnothing with hends | hclause
  · have halpha : c.isAlpha = true := by rw [← is_alpha_to_upper, hc]; rfl
    simp [endsWord, is_word_character_of_alpha halpha] at hends
  · obtain ⟨name, hname, hfirst⟩ := head_of_clause hclause
    rw [List.head?_cons, Option.map_some, hc] at hfirst
    have hnone : ∀ name ∈ wordsBehind "OR", some 'D' ≠ name.toList.head? := by decide
    exact hnone name hname hfirst

/-- Keywords without a condition are rows of words. -/
theorem rows_empty_clause (hkeyword : keyword ∈ conditionKeywords) :
    Rows (emptyClause keyword (clauseBehind? keyword)) := by
  intro before cs u rest h
  obtain ⟨hbegins, word, words, hletter, hrow, hwords⟩ :=
    words_of_empty_clause (letter_word_of_condition_keywords keyword hkeyword) h
  refine ⟨word, words, hbegins, hletter, hrow, fun later hlater before text => ?_⟩
  obtain ⟨name, hname, hcapitals⟩ := hwords later hlater
  exact empty_clause_of_clause_word hkeyword hname hcapitals

/-- Both connectives are keywords with the same clauses behind them. -/
theorem behind_connective : ∀ connective ∈ ["AND", "OR"], connective ∈ conditionKeywords ∧
    clauseBehind? connective = followingClause? ∧ wordsBehind connective = wordsBehind "AND" := by
  intro connective hmem
  rcases List.mem_pair.mp hmem with rfl | rfl <;> exact ⟨by decide, rfl, rfl⟩

/-- Connectives without a condition are rows of words. -/
theorem rows_trailing_connective : Rows trailingConnective := by
  intro before cs connective rest h
  obtain ⟨hmem, hempty⟩ := trailing_connective_eq_some_iff.mp h
  obtain ⟨hkeyword, hclause, hsame⟩ := behind_connective connective hmem
  rw [← hclause] at hempty
  obtain ⟨hbegins, word, words, hletter, hrow, hwords⟩ :=
    words_of_empty_clause (letter_word_of_condition_keywords connective hkeyword) hempty
  refine ⟨word, words, hbegins, hletter, hrow, fun later hlater before text => ?_⟩
  obtain ⟨name, hname, hcapitals⟩ := hwords later hlater
  refine Option.eq_none_iff_forall_ne_some.mpr fun (other, left) hfound => ?_
  obtain ⟨hother, hfound⟩ := trailing_connective_eq_some_iff.mp hfound
  obtain ⟨hkeyword', hclause', hsame'⟩ := behind_connective other hother
  have hname' : name ∈ wordsBehind other := by rwa [hsame', ← hsame]
  rw [← hclause', empty_clause_of_clause_word hkeyword' hname' hcapitals] at hfound
  cases hfound

end Row

section Report

variable {text : List Char} {remark : Remark}

/-- A remark is made about a keyword that ends there, or that a clause follows at once. -/
def AboutKeyword (text : List Char) (remark : Remark) : Prop :=
  ∃ keyword ∈ conditionKeywords, ∃ offset tail, remark.position = some offset ∧
    StandsIn keyword text offset tail ∧
    (endsWord tail = true ∨ (clauseBehind? keyword tail).isSome = true)

/-- A remark on a keyword without a condition is made at that keyword. -/
theorem about_keyword_of_empty_clause {remark : Remark} {found : Occurrence Unit}
    (hkeyword : keyword ∈ conditionKeywords)
    (h : found ∈ occurrences (emptyClause keyword (clauseBehind? keyword)) text) :
    AboutKeyword text (remark.placed found.offset) := by
  obtain ⟨front, tail, rfl, hoffset, -, rest, hmatch⟩ := matches_of_occurrence h
  obtain ⟨hbegins, word, behind, rfl, hword, hnothing⟩ := empty_clause_eq_some_iff.mp hmatch
  exact ⟨keyword, hkeyword, found.offset, behind, rfl, ⟨front, word, rfl, hoffset, hbegins, hword⟩,
    ends_word_of_nothing_before hnothing⟩

/-- A remark on a dangling connective is made at the connective. -/
theorem about_keyword_of_trailing {remark : Remark} {found : Occurrence String}
    (h : found ∈ occurrences trailingConnective text) :
    AboutKeyword text (remark.placed found.offset) := by
  obtain ⟨front, tail, rfl, hoffset, -, rest, hmatch⟩ := matches_of_occurrence h
  obtain ⟨hmem, hempty⟩ := trailing_connective_eq_some_iff.mp hmatch
  obtain ⟨hkeyword, hclause, -⟩ := behind_connective found.value hmem
  obtain ⟨hbegins, word, behind, rfl, hword, hnothing⟩ := empty_clause_eq_some_iff.mp hempty
  rw [← hclause] at hnothing
  exact ⟨_, hkeyword, found.offset, behind, rfl, ⟨front, word, rfl, hoffset, hbegins, hword⟩,
    ends_word_of_nothing_before hnothing⟩

/-- A remark on two connectives in a row is made at the first of them. -/
theorem about_keyword_of_doubled {remark : Remark} {found : Occurrence (String × String)}
    (h : found ∈ occurrences doubledConnective text) :
    AboutKeyword text (remark.placed found.offset) := by
  obtain ⟨front, tail, rfl, hoffset, -, rest, hmatch⟩ := matches_of_occurrence h
  simp only [doubledConnective, bind, Option.bind_eq_some_iff, Prod.exists, guard_eq_some_iff,
    connective_eq_some_iff, keyword_eq_some_iff, blanks_eq_some_iff] at hmatch
  obtain ⟨-, hbegins, first, _, ⟨hmem, word, rfl, hword⟩, _, ⟨gap, rfl, hne, hgap, -⟩, -⟩ := hmatch
  exact ⟨first, (behind_connective first hmem).1, found.offset, _, rfl,
    ⟨front, word, rfl, hoffset, hbegins, hword⟩, .inl (ends_word_of_blanks hne hgap)⟩

/-- The word that begins a condition list stands in front of what is behind it. -/
theorem suffix_of_opening {u : Unit}
    (h : firstOf [wordStart "WHERE", wordStart "HAVING"] before cs = some (u, rest)) :
    ∃ word, cs = word ++ rest := by
  obtain ⟨p, hmem, hp⟩ := exists_of_first_of_eq_some h
  rcases List.mem_pair.mp hmem with rfl | rfl
  · obtain ⟨-, word, hsplit, -⟩ := word_start_eq_some_iff.mp hp
    exact ⟨word, hsplit⟩
  · obtain ⟨-, word, hsplit, -⟩ := word_start_eq_some_iff.mp hp
    exact ⟨word, hsplit⟩

/-- A remark on a connective at the beginning of conditions is made at the connective. -/
theorem about_keyword_of_leading {remark : Remark} {found : Occurrence (Nat × String)}
    (h : found ∈ occurrences leadingConnective text) :
    AboutKeyword text (remark.placed (found.offset + found.value.1)) := by
  obtain ⟨front, tail, rfl, hoffset, -, rest, hmatch⟩ := matches_of_occurrence h
  obtain ⟨offset, distance, connective⟩ := found
  simp only [leadingConnective, bind, Option.bind_eq_some_iff, Prod.exists, guard_eq_some_iff,
    connective_eq_some_iff, keyword_eq_some_iff, blanks_eq_some_iff, pure, Option.some.injEq,
    Prod.mk.injEq] at hmatch
  obtain ⟨_, _, hfirst, _, ⟨gap, rfl, hne, hgap, -⟩, connective, left, ⟨hmem, word, rfl, hword⟩, -,
    hends, ⟨rfl, rfl⟩, rfl⟩ := hmatch
  obtain ⟨opening, rfl⟩ := suffix_of_opening hfirst
  refine ⟨connective, (behind_connective connective hmem).1, _, left, rfl,
    ⟨front ++ (opening ++ gap), word, by simp, ?_, ?_, hword⟩, .inl hends⟩
  · rw [bytes_up_to_of_split (List.append_assoc ..).symm, byte_length_append, hoffset]
  · rw [← List.append_assoc]
    exact begins_word_behind_blanks hgap (.inr hne)

/-- Every remark of the check is made at a keyword. -/
theorem about_keyword_of_mem (h : remark ∈ emptyConditions text) : AboutKeyword text remark := by
  have hmem := List.mem_mergeSort.mp h
  simp only [List.mem_append, List.mem_map] at hmem
  rcases hmem with (((⟨found, hfound, rfl⟩ | ⟨found, hfound, rfl⟩) | ⟨found, hfound, rfl⟩) |
    ⟨found, hfound, rfl⟩) | ⟨found, hfound, rfl⟩
  · have hwhere : "WHERE" ∈ conditionKeywords := by decide
    exact about_keyword_of_empty_clause hwhere hfound
  · have hhaving : "HAVING" ∈ conditionKeywords := by decide
    exact about_keyword_of_empty_clause hhaving hfound
  · exact about_keyword_of_doubled hfound
  · exact about_keyword_of_leading hfound
  · exact about_keyword_of_trailing hfound

/-- A keyword without a condition is found wherever it stands. -/
theorem mem_occurrences_empty_clause (hkeyword : keyword ∈ conditionKeywords)
    (hstands : StandsIn keyword text offset tail)
    (hnothing : nothingBefore? (clauseBehind? keyword) tail = some rest) :
    ⟨offset, ()⟩ ∈ occurrences (emptyClause keyword (clauseBehind? keyword)) text := by
  obtain ⟨front, word, rfl, rfl, hbegins, hword⟩ := hstands
  have hmatch : emptyClause keyword (clauseBehind? keyword) front.getLast? (word ++ tail) =
      some ((), rest) :=
    empty_clause_eq_some_iff.mpr ⟨hbegins, word, tail, rfl, hword, hnothing⟩
  exact Rows.mem_occurrences (rows_empty_clause hkeyword) hmatch

/-- A connective without a condition is found wherever it stands. -/
theorem mem_occurrences_trailing (hmem : keyword ∈ ["AND", "OR"])
    (hstands : StandsIn keyword text offset tail)
    (hnothing : nothingBefore? (clauseBehind? keyword) tail = some rest) :
    ⟨offset, keyword⟩ ∈ occurrences trailingConnective text := by
  obtain ⟨front, word, rfl, rfl, hbegins, hword⟩ := hstands
  rw [(behind_connective keyword hmem).2.1] at hnothing
  have hmatch : trailingConnective front.getLast? (word ++ tail) = some (keyword, rest) :=
    trailing_connective_eq_some_iff.mpr
      ⟨hmem, empty_clause_eq_some_iff.mpr ⟨hbegins, word, tail, rfl, hword, hnothing⟩⟩
  exact Rows.mem_occurrences rows_trailing_connective hmatch

/-- Each WHERE without a condition is reported. -/
theorem empty_where_mem (hstands : StandsIn "WHERE" text offset tail)
    (hnothing : nothingBefore? (clauseBehind? "WHERE") tail = some rest) :
    emptyWhere.placed offset ∈ emptyConditions text := by
  have hfound := mem_occurrences_empty_clause (by decide) hstands hnothing
  simp only [emptyConditions, Remark.sortByPosition, List.mem_mergeSort, List.mem_append,
    List.mem_map]
  exact .inl (.inl (.inl (.inl ⟨_, hfound, rfl⟩)))

/-- Each keyword without a condition is reported. -/
theorem exists_remark_of_nothing_before (hkeyword : keyword ∈ conditionKeywords)
    (hstands : StandsIn keyword text offset tail)
    (hnothing : nothingBefore? (clauseBehind? keyword) tail = some rest) :
    ∃ remark ∈ emptyConditions text, remark.position = some offset := by
  have hcases : keyword = "WHERE" ∨ keyword = "HAVING" ∨ keyword ∈ ["AND", "OR"] := by
    simpa [conditionKeywords] using hkeyword
  rcases hcases with rfl | rfl | hmem
  · exact ⟨_, empty_where_mem hstands hnothing, rfl⟩
  · have hfound := mem_occurrences_empty_clause (by decide) hstands hnothing
    simp only [emptyConditions, Remark.sortByPosition, List.mem_mergeSort, List.mem_append,
      List.mem_map]
    exact ⟨_, .inl (.inl (.inl (.inr ⟨_, hfound, rfl⟩))), rfl⟩
  · have hfound := mem_occurrences_trailing hmem hstands hnothing
    simp only [emptyConditions, Remark.sortByPosition, List.mem_mergeSort, List.mem_append,
      List.mem_map]
    exact ⟨_, .inr ⟨_, hfound, rfl⟩, rfl⟩

/-- Sorted remarks stand in the order of their positions. -/
theorem pairwise_sort_by_position (remarks : List Remark) :
    (Remark.sortByPosition remarks).Pairwise fun remark later =>
      remark.position.getD 0 ≤ later.position.getD 0 := by
  have hsorted := @List.pairwise_mergeSort Remark
    (fun remark later => remark.position.getD 0 ≤ later.position.getD 0)
    (fun _ _ _ hab hbc => by simpa using Nat.le_trans (by simpa using hab) (by simpa using hbc))
    (fun a b => by simpa using Nat.le_total _ _) remarks
  simpa [Remark.sortByPosition] using hsorted

end Report

section Whole

/-- Where no word runs from a keyword into a clause, what is reported is a whole word. -/
theorem word_at_of_about_keyword {remark : Remark} (hclear : ¬ ∃ offset, Glued query offset)
    (h : AboutKeyword (mask query) remark) : ∃ keyword ∈ conditionKeywords, ∃ offset,
      remark.position = some offset ∧ WordAt keyword query offset := by
  obtain ⟨keyword, hkeyword, offset, tail, hposition, hstands, hends⟩ := h
  have hletters := letter_word_of_condition_keywords keyword hkeyword
  refine ⟨keyword, hkeyword, offset, hposition, ?_⟩
  rcases hends with hends | hclause
  · exact (word_at_iff_stands_in hletters).mpr ⟨tail, hstands, hends⟩
  · obtain ⟨rest, hbegins, rfl⟩ := begins_at_of_mask hletters hstands
    exact absurd ⟨offset, keyword, hkeyword, rest, hbegins, hclause⟩ hclear

/-- Blanks up to the end of a query leave nothing behind a keyword. -/
theorem nothing_before_mask_of_blank (h : ∀ c ∈ rest, isBlank c = true) :
    nothingBefore? clause (mask rest) = some [] := by
  have hdrop : dropBlanks rest = [] := List.dropWhile_eq_nil_iff.mpr h
  rw [mask_of_no_quote (quote_not_mem_blanks h), nothingBefore?, hdrop]

/-- A word that runs from a keyword into a clause is reported, and is no whole word. -/
theorem not_reports_conditions_of_glued (h : Glued query offset) : ¬ ReportsConditions query := by
  intro hreports
  obtain ⟨keyword, hkeyword, rest, hbegins, hclause⟩ := h
  have hletters := letter_word_of_condition_keywords keyword hkeyword
  have hstands := mask_of_begins_at hletters hbegins
  obtain ⟨left, hnothing⟩ := nothing_before_of_clause hclause
  obtain ⟨remark, hremark, hposition⟩ := exists_remark_of_nothing_before hkeyword hstands hnothing
  obtain ⟨keyword', hkeyword', offset', hposition', hword⟩ := hreports.words remark hremark
  obtain rfl : offset' = offset := Option.some.inj (hposition'.symm.trans hposition)
  have hletters' := letter_word_of_condition_keywords keyword' hkeyword'
  obtain ⟨tail, hstands', hends⟩ := (word_at_iff_stands_in hletters').mp hword
  -- The keywords differ in their first letters, so the same one stands here, and goes on.
  have hheads : ∀ keyword ∈ conditionKeywords, ∀ keyword' ∈ conditionKeywords,
      keyword.toList.head? = keyword'.toList.head? → keyword = keyword' := by decide
  obtain rfl := hheads keyword hkeyword keyword' hkeyword'
    (hstands.head_eq hstands' hletters hletters')
  obtain rfl := hstands.rest_eq hstands'
  obtain ⟨c, more, hmask, halpha⟩ := exists_letter_of_clause hclause
  rw [hmask] at hends
  simp [endsWord, is_word_character_of_alpha halpha] at hends

/-- The check of conditions tells what it is to tell exactly of the queries in which no word outside
of literals runs from WHERE, HAVING, AND or OR into the beginning of a clause. -/
theorem reports_conditions_iff :
    ReportsConditions query ↔ ¬ ∃ offset, Glued query offset := by
  constructor
  · rintro hreports ⟨offset, hglued⟩
    exact not_reports_conditions_of_glued hglued hreports
  · intro hclear
    refine ⟨fun remark hremark => ?_, pairwise_sort_by_position _, ?_⟩
    · exact word_at_of_about_keyword hclear (about_keyword_of_mem hremark)
    · intro offset rest hbegins hblank
      exact empty_where_mem (mask_of_begins_at (by decide) hbegins)
        (nothing_before_mask_of_blank hblank)

/-- An identifier that begins with OR and goes on like LIMIT is taken for a dangling connective. -/
theorem not_reports_conditions_of_identifier :
    let query := "SELECT * FROM events WHERE a = orlimit".toList
    remarksOf .emptyConditions query =
      [(Remark.warning "Condition list ends with a dangling 'OR'").placed 31] ∧
    ¬ ReportsConditions query := by
  intro query
  have hbegins : BeginsAt "OR" query 31 "limit".toList :=
    ⟨"SELECT * FROM events WHERE a = ".toList, "or".toList, by decide, by decide, by decide,
      by decide, by decide⟩
  have hglued : Glued query 31 := ⟨"OR", by decide, _, hbegins, by decide⟩
  exact ⟨by decide +kernel, not_reports_conditions_of_glued hglued⟩

end Whole

end Ariel.Validation
