import Ariel.Proofs.Validation.Fragment
import Ariel.Query.Assembly

/-!
# The layout of assembled queries

The mask of an assembled query is a row of clauses with spaces between them. `ClauseMask` says how
the clause at each place of the order looks; only at its beginning does a clause open. Hence a place
where a clause opens anywhere in the query is the beginning of one of its clauses, and the keyword
found there tells which (`Layout.exists_clause`).
-/

namespace Ariel.Query

open Ariel.Text Ariel.Validation

/-- A text in which no clause opens, whatever is separated from it behind. -/
def Unobtrusive (text : List Char) : Prop :=
  ∀ after, Separated after → Quiet text after

/-- The mask of a clause that stands at a place of the order of clauses. -/
inductive ClauseMask : Nat → List Char → Prop where
  | select {body : List Char} : Unobtrusive body → ClauseMask 0 ("SELECT ".toList ++ body)
  | source (table : Table) : ClauseMask 1 ("FROM ".toList ++ table.name.toList)
  | conditions {body : List Char} : Unobtrusive body → ClauseMask 2 ("WHERE ".toList ++ body)
  | groups {body : List Char} : Unobtrusive body → ClauseMask 3 ("GROUP BY ".toList ++ body)
  | groupConditions {body : List Char} :
      Unobtrusive body → ClauseMask 4 ("HAVING ".toList ++ body)
  | order {body : List Char} : Unobtrusive body → ClauseMask 5 ("ORDER BY ".toList ++ body)
  | limit (limit : RowLimit) :
      ClauseMask 6 ("LIMIT ".toList ++ (decimal limit.rows.toNat).toList)
  | last {amount : UInt32} (unit : TimeUnit) : amount ≠ 0 →
      ClauseMask 7
        ("LAST ".toList ++ ((decimal amount.toNat).toList ++ (' ' :: unit.keyword.toList)))
  | start {body : List Char} : Unobtrusive body → ClauseMask 7 ("START ".toList ++ body)

/-- The keywords with which clauses open, each with the place of the clause. -/
def rankedOpenings : List (String × Nat) :=
  [("SELECT", 0), ("FROM", 1), ("WHERE", 2), ("GROUP", 3), ("HAVING", 4), ("ORDER", 5),
    ("LIMIT", 6), ("LAST", 7), ("START", 7)]

/-- The place of the clause that a keyword opens. -/
def placeOf? (keyword : String) : Option Nat :=
  rankedOpenings.lookup keyword

/-- Clauses behind each other, with a space before each. -/
def row : List (Nat × List Char) → List Char
  | [] => []
  | (_, clause) :: clauses => ' ' :: (clause ++ row clauses)

/-- A text that is a row of clauses in their order, of which the first two cannot be missing and the
fifth needs the fourth. -/
structure Layout (text : List Char) (clauses : List (Nat × List Char)) : Prop where
  row_eq : ' ' :: text = row clauses
  masks : ∀ clause ∈ clauses, ClauseMask clause.1 clause.2
  sorted : clauses.Pairwise fun earlier later => earlier.1 < later.1
  select : ∃ clause later, clauses = (0, clause) :: later
  source : ∃ clause, (1, clause) ∈ clauses
  groups : ∀ clause, (4, clause) ∈ clauses → ∃ groups, (3, groups) ∈ clauses

section Clause

variable {rank : Nat} {clause after word rest : List Char}

/-- A text that is found to be quiet keeps what stands behind it unobtrusive. -/
theorem unobtrusive_behind (constant : String) (h : quietFrom none constant.toList = true)
    {body : List Char} (hbody : Unobtrusive body) : Unobtrusive (constant.toList ++ body) :=
  fun after hafter => (quiet_of_constant h).append (hbody after hafter)

/-- The digits of a number open no clause. -/
theorem quiet_decimal (n : Nat) : Quiet (decimal n).toList after := by
  refine quiet_of_no_letter fun c hc => Bool.eq_false_iff.mpr fun halpha => ?_
  have hdigit := is_digit_of_decimal hc
  rw [is_digit_iff] at hdigit
  rw [is_alpha_iff] at halpha
  omega

/-- A clause opens at its beginning and nowhere else. -/
theorem ClauseMask.unobtrusive_tail (h : ClauseMask rank clause) :
    ∃ c tail, clause = c :: tail ∧ c.isAlpha = true ∧ Unobtrusive tail := by
  cases h with
  | @select body hbody =>
      exact ⟨'S', "ELECT ".toList ++ body, rfl, by decide,
        unobtrusive_behind "ELECT " (by decide) hbody⟩
  | source table =>
      refine ⟨'F', "ROM ".toList ++ table.name.toList, rfl, by decide, fun after _ => ?_⟩
      cases table with
      | events => exact quiet_of_constant (by decide)
      | flows => exact quiet_of_constant (by decide)
  | @conditions body hbody =>
      exact ⟨'W', "HERE ".toList ++ body, rfl, by decide,
        unobtrusive_behind "HERE " (by decide) hbody⟩
  | @groups body hbody =>
      exact ⟨'G', "ROUP BY ".toList ++ body, rfl, by decide,
        unobtrusive_behind "ROUP BY " (by decide) hbody⟩
  | @groupConditions body hbody =>
      exact ⟨'H', "AVING ".toList ++ body, rfl, by decide,
        unobtrusive_behind "AVING " (by decide) hbody⟩
  | @order body hbody =>
      exact ⟨'O', "RDER BY ".toList ++ body, rfl, by decide,
        unobtrusive_behind "RDER BY " (by decide) hbody⟩
  | limit limit =>
      exact ⟨'L', "IMIT ".toList ++ _, rfl, by decide,
        unobtrusive_behind "IMIT " (by decide) fun _ _ => quiet_decimal _⟩
  | @last amount unit _ =>
      have hunit : Unobtrusive (' ' :: unit.keyword.toList) := fun _ _ => by
        cases unit with
        | minutes => exact quiet_of_constant (by decide)
        | hours => exact quiet_of_constant (by decide)
        | days => exact quiet_of_constant (by decide)
      have hamount : Unobtrusive ((decimal amount.toNat).toList ++ ' ' :: unit.keyword.toList) :=
        fun after hafter => (quiet_decimal _).append (hunit after hafter)
      exact ⟨'L', "AST ".toList ++ _, rfl, by decide,
        unobtrusive_behind "AST " (by decide) hamount⟩
  | @start body hbody =>
      exact ⟨'S', "TART ".toList ++ body, rfl, by decide,
        unobtrusive_behind "TART " (by decide) hbody⟩

/-- The second clause names its table. -/
theorem ClauseMask.source_eq (h : ClauseMask 1 clause) :
    ∃ table : Table, clause = "FROM ".toList ++ table.name.toList := by
  cases h with
  | source table => exact ⟨table, rfl⟩

/-- The seventh clause holds its limit. -/
theorem ClauseMask.limit_eq (h : ClauseMask 6 clause) :
    ∃ limit : RowLimit, clause = "LIMIT ".toList ++ (decimal limit.rows.toNat).toList := by
  cases h with
  | limit limit => exact ⟨limit, rfl⟩

/-- The last clause holds an amount that is not zero and a unit, when it begins with LAST. -/
theorem ClauseMask.last_eq {body : List Char} (h : ClauseMask 7 clause)
    (hlast : clause = "LAST".toList ++ body) :
    ∃ (amount : UInt32) (unit : TimeUnit), amount ≠ 0 ∧ clause =
      "LAST ".toList ++ ((decimal amount.toNat).toList ++ (' ' :: unit.keyword.toList)) := by
  cases h with
  | @last amount unit hamount => exact ⟨amount, unit, hamount, rfl⟩
  | start _ => exact absurd (List.cons.inj hlast).1 (by decide)

/-- A clause begins with a keyword for its place, and a space behind it. -/
theorem ClauseMask.exists_keyword (h : ClauseMask rank clause) :
    ∃ keyword body, clause = keyword.toList ++ ' ' :: body ∧ placeOf? keyword = some rank := by
  cases h with
  | @select body _ => exact ⟨"SELECT", body, rfl, rfl⟩
  | source table => exact ⟨"FROM", _, rfl, rfl⟩
  | @conditions body _ => exact ⟨"WHERE", body, rfl, rfl⟩
  | @groups body _ => exact ⟨"GROUP", "BY ".toList ++ body, rfl, rfl⟩
  | @groupConditions body _ => exact ⟨"HAVING", body, rfl, rfl⟩
  | @order body _ => exact ⟨"ORDER", "BY ".toList ++ body, rfl, rfl⟩
  | limit limit => exact ⟨"LIMIT", _, rfl, rfl⟩
  | last unit _ => exact ⟨"LAST", _, rfl, rfl⟩
  | @start body _ => exact ⟨"START", body, rfl, rfl⟩

/-- Two words at the beginning of one text are the same when both end there. -/
theorem word_eq_of_append {word' rest' : List Char} (h : word ++ rest = word' ++ rest')
    (hword : ∀ c ∈ word, isWordCharacter c = true) (hword' : ∀ c ∈ word', isWordCharacter c = true)
    (hends : endsWord rest = true) (hends' : endsWord rest' = true) : word = word' := by
  have htake : ∀ {word rest : List Char}, (∀ c ∈ word, isWordCharacter c = true) →
      endsWord rest = true → (word ++ rest).takeWhile isWordCharacter = word := by
    intro word rest hword hends
    exact take_while_append hword (is_word_character_of_ends_word hends)
  rw [← htake hword hends, h, htake hword' hends']

/-- A keyword with a place is made of capital letters. -/
theorem is_alpha_of_place {keyword : String} (h : placeOf? keyword = some rank) :
    (∀ c ∈ keyword.toList, c.isAlpha = true) ∧ capitals keyword.toList = keyword.toList := by
  have hall : ∀ pair ∈ rankedOpenings, pair.1.toList.all Char.isAlpha = true ∧
      capitals pair.1.toList = pair.1.toList := by decide
  have hmem : (keyword, rank) ∈ rankedOpenings := by
    obtain ⟨before, after, hsplit, -⟩ := List.lookup_eq_some_iff.mp h
    rw [hsplit]
    simp
  exact ⟨List.all_eq_true.mp (hall _ hmem).1, (hall _ hmem).2⟩

/-- The word with which a text begins is the keyword of the clause with which it begins. -/
theorem ClauseMask.keyword_eq {keyword : String} (h : ClauseMask rank clause)
    (hsplit : clause ++ after = word ++ rest) (hword : capitals word = keyword.toList)
    (hopening : keyword.toList ∈ openings) (hends : endsWord rest = true) :
    placeOf? keyword = some rank ∧ ∃ body, clause = keyword.toList ++ ' ' :: body := by
  obtain ⟨keyword', body, rfl, hplace⟩ := h.exists_keyword
  obtain ⟨hletters, hcapitals⟩ := is_alpha_of_place hplace
  have hsame : word = keyword'.toList := by
    have hbehind : word ++ rest = keyword'.toList ++ ' ' :: (body ++ after) := by
      rw [← hsplit]
      simp
    refine word_eq_of_append hbehind ?_ ?_ hends rfl
    · intro c hc
      rw [← hword] at hopening
      exact is_word_character_of_alpha ((is_alpha_of_opening hopening).2 c hc)
    · intro c hc
      exact is_word_character_of_alpha (hletters c hc)
  have hequal : keyword' = keyword := by
    rw [hsame, hcapitals] at hword
    exact String.toList_inj.mp hword
  exact ⟨hequal ▸ hplace, body, by rw [hequal]⟩

end Clause

section Row

variable {clauses : List (Nat × List Char)} {front tail : List Char}

/-- Rows one after the other are a row. -/
theorem row_append (earlier later : List (Nat × List Char)) :
    row (earlier ++ later) = row earlier ++ row later := by
  induction earlier with
  | nil => rfl
  | cons first earlier ih =>
      simp only [List.cons_append, row, ih, List.append_assoc]

/-- The clauses behind a text are separated from it. -/
theorem separated_row (h : ∀ clause ∈ clauses, ClauseMask clause.1 clause.2) :
    Separated (row clauses) := by
  cases clauses with
  | nil => exact ⟨rfl, by simp [row, dropBlanks]⟩
  | cons first clauses =>
      obtain ⟨rank, clause⟩ := first
      obtain ⟨c, body, rfl, hletter, -⟩ := (h _ List.mem_cons_self).unobtrusive_tail
      have hdrop : dropBlanks (row ((rank, c :: body) :: clauses)) =
          c :: (body ++ row clauses) := by
        have hspace : ∀ d ∈ [' '], isBlank d = true := by simp [isBlank]
        have hhead : ∀ d ∈ (c :: (body ++ row clauses)).head?, isBlank d = false := by
          simpa using is_blank_of_alpha hletter
        show dropBlanks ([' '] ++ (c :: (body ++ row clauses))) = _
        rw [drop_blanks_append hspace, drop_blanks_of_head hhead]
      exact separated_of_head rfl hdrop (is_decimal_digit_of_alpha hletter)

/-- Where a clause opens in a row, one of its clauses begins. -/
theorem exists_place_of_row (hmasks : ∀ clause ∈ clauses, ClauseMask clause.1 clause.2)
    (hsplit : row clauses = front ++ tail) (hbegins : beginsWord front.getLast? = true)
    (hopens : OpensClause tail) :
    ∃ earlier rank clause later, clauses = earlier ++ (rank, clause) :: later ∧
      front = row earlier ++ [' '] ∧ tail = clause ++ row later := by
  induction clauses generalizing front with
  | nil =>
      obtain ⟨c, rest, rfl, -⟩ := hopens.exists_head
      exact absurd (List.append_eq_nil_iff.mp hsplit.symm).2 (by simp)
  | cons first clauses ih =>
      obtain ⟨rank, clause⟩ := first
      have hlater : ∀ clause ∈ clauses, ClauseMask clause.1 clause.2 :=
        fun clause hclause => hmasks clause (List.mem_cons_of_mem _ hclause)
      obtain ⟨c, body, rfl, -, hquiet⟩ := (hmasks _ List.mem_cons_self).unobtrusive_tail
      obtain ⟨d, rest, rfl, hletter⟩ := hopens.exists_head
      cases front with
      | nil =>
          -- A clause does not open with the space before it.
          obtain ⟨rfl, -⟩ := List.cons.inj hsplit
          exact absurd hletter (by decide)
      | cons e front =>
          obtain ⟨rfl, hbehind⟩ := List.cons.inj hsplit
          cases front with
          | nil => exact ⟨[], rank, c :: body, clauses, rfl, rfl, hbehind.symm⟩
          | cons e front =>
              obtain ⟨rfl, htext⟩ := List.cons.inj hbehind
              -- The place lies behind the first clause, or inside of it.
              rcases List.append_eq_append_iff.mp htext with
                ⟨more, rfl, hrow⟩ | ⟨more, hbody, hrest⟩
              · have hlast : beginsWord ((' ' :: c :: body) ++ more).getLast? = true := hbegins
                obtain ⟨earlier, rank', clause', later, rfl, rfl, htail⟩ :=
                  ih hlater hrow (begins_word_append hlast)
                refine ⟨(rank, c :: body) :: earlier, rank', clause', later, rfl, ?_, htail⟩
                simp [row]
              · have hlast : beginsWord ([' ', c] ++ front).getLast? = true := hbegins
                cases more with
                | nil =>
                    cases clauses with
                    | nil => cases hrest
                    | cons second clauses =>
                        obtain ⟨rfl, -⟩ := List.cons.inj hrest
                        exact absurd hletter (by decide)
                | cons e more =>
                    -- Inside of a clause no other one opens.
                    rw [hrest] at hopens
                    exact absurd hopens (hquiet _ (separated_row hlater) front (e :: more) hbody
                      (by simp) (begins_word_append hlast))

end Row

section Place

variable {text front tail rest : List Char} {clauses : List (Nat × List Char)} {keyword : String}
  {before : Option Char} {u : Unit}

/-- A keyword that opens a clause stands as a whole word at the beginning of a text. -/
structure KeywordAt (before : Option Char) (tail : List Char) (keyword : String) : Prop where
  opening : keyword.toList ∈ openings
  begins : beginsWord before = true
  opens : OpensClause tail
  word : ∃ word rest, tail = word ++ rest ∧ capitals word = keyword.toList ∧ endsWord rest = true

/-- A keyword found as a whole word opens a clause. -/
theorem keyword_at_of_whole_word (h : wholeWord keyword before tail = some (u, rest))
    (hk : keyword ∈ clauseWords) : KeywordAt before tail keyword := by
  obtain ⟨hbegins, hends, word, rfl, hword⟩ := whole_word_eq_some_iff.mp h
  have hmem : String.ofList (capitals word) ∈ clauseWords := by
    rwa [hword, String.ofList_toList]
  exact ⟨hword ▸ mem_openings_of_keyword hmem, hbegins, .keyword hmem hends, word, rest, rfl, hword,
    hends⟩

/-- The first keyword of a phrase opens a clause. -/
theorem keyword_at_of_whole_phrase {second : String}
    (h : wholePhrase keyword second before tail = some (u, rest)) (hk : keyword ∈ clauseWords) :
    KeywordAt before tail keyword := by
  obtain ⟨hbegins, hphrase⟩ := whole_phrase_eq_some_iff.mp h
  obtain ⟨-, word, gap, word', rfl, hword, hne, hgap, -⟩ := phrase_eq_some_iff.mp hphrase
  have hmem : String.ofList (capitals word) ∈ clauseWords := by
    rwa [hword, String.ofList_toList]
  have hends : endsWord (gap ++ (word' ++ rest)) = true := ends_word_of_blanks hne hgap
  exact ⟨hword ▸ mem_openings_of_keyword hmem, hbegins, .keyword hmem hends, word, _, rfl, hword,
    hends⟩

/-- LAST before blanks and a digit opens a clause. -/
theorem keyword_at_of_last {word gap : List Char} {digit : Char}
    (hbegins : beginsWord before = true) (hword : capitals word = "LAST".toList) (hne : gap ≠ [])
    (hgap : ∀ c ∈ gap, isBlank c = true) (hdigit : isDecimalDigit digit = true) :
    KeywordAt before (word ++ (gap ++ digit :: rest)) "LAST" :=
  ⟨List.mem_map_of_mem (by simp), hbegins, .last hword hne hgap hdigit, word, _, rfl, hword,
    ends_word_of_blanks hne hgap⟩

theorem keyword_at_of_last_amount (h : lastAmount before tail = some (u, rest)) :
    KeywordAt before tail "LAST" := by
  obtain ⟨hbegins, word, gap, digit, rfl, hword, hne, hgap, hdigit⟩ := last_amount_eq_some_iff.mp h
  exact keyword_at_of_last hbegins hword hne hgap hdigit

theorem keyword_at_of_last_clause {found : LastClause}
    (h : lastClause before tail = some (found, rest)) : KeywordAt before tail "LAST" := by
  obtain ⟨hbegins, word, gap, between, hparts⟩ := last_clause_eq_some_iff.mp h
  obtain ⟨digit, more, hamount⟩ := List.exists_cons_of_ne_nil hparts.amount_ne_nil
  have hdigit : isDecimalDigit digit = true := hparts.amount_digits digit (by rw [hamount]; simp)
  rw [hparts.split, hamount]
  exact keyword_at_of_last hbegins hparts.keyword hparts.gap_ne_nil hparts.gap_blank hdigit

/-- Where a keyword opens a clause in a layout, the clause at the place of that keyword begins. -/
theorem Layout.exists_clause (h : Layout text clauses) (hsplit : text = front ++ tail)
    (hkeyword : KeywordAt front.getLast? tail keyword) {rank : Nat}
    (hrank : placeOf? keyword = some rank) :
    ∃ earlier clause later, clauses = earlier ++ (rank, clause) :: later ∧
      byteLength front = byteLength (row earlier) ∧ tail = clause ++ row later ∧
      ClauseMask rank clause ∧ ∃ body, clause = keyword.toList ++ ' ' :: body := by
  have hrow : row clauses = (' ' :: front) ++ tail := by
    rw [← h.row_eq, hsplit]
    rfl
  -- The space put in front of the text ends a word just as the beginning of a text does.
  have hbegins : beginsWord (' ' :: front).getLast? = true := by
    rcases List.eq_nil_or_concat' front with rfl | ⟨init, c, rfl⟩
    · rfl
    · have hlast := hkeyword.begins
      rw [List.getLast?_concat] at hlast
      rwa [← List.cons_append, List.getLast?_concat]
  obtain ⟨earlier, place, clause, later, rfl, hfront, rfl⟩ :=
    exists_place_of_row h.masks hrow hbegins hkeyword.opens
  obtain ⟨word, rest, hword, hcapitals, hends⟩ := hkeyword.word
  have hmask : ClauseMask place clause := h.masks (place, clause) (by simp)
  obtain ⟨hplace, hclause⟩ := hmask.keyword_eq hword hcapitals hkeyword.opening hends
  obtain rfl : place = rank := Option.some.inj (hplace.symm.trans hrank)
  refine ⟨earlier, clause, later, rfl, ?_, rfl, hmask, hclause⟩
  have hlength := congrArg byteLength hfront
  have hspace : ' '.utf8Size = 1 := rfl
  rw [byte_length_append, byte_length_cons, byte_length_cons, byte_length_nil] at hlength
  omega

/-- A clause of a layout stands somewhere in the text, behind the end of a word. -/
theorem Layout.exists_split {earlier later : List (Nat × List Char)} {rank : Nat}
    {clause : List Char} (h : Layout text (earlier ++ (rank, clause) :: later)) :
    ∃ front, text = front ++ (clause ++ row later) ∧ beginsWord front.getLast? = true := by
  have hrow := h.row_eq
  rw [row_append] at hrow
  cases hfront : row earlier with
  | nil =>
      rw [hfront] at hrow
      exact ⟨[], (List.cons.inj hrow).2, rfl⟩
  | cons c front =>
      rw [hfront] at hrow
      refine ⟨front ++ [' '], ?_, by rw [List.getLast?_concat]; rfl⟩
      rw [(List.cons.inj hrow).2, List.append_assoc]
      rfl

end Place

end Ariel.Query
