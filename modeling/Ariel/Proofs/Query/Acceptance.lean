import Ariel.Proofs.Query.Layout
import Ariel.Proofs.Validation.Limit
import Ariel.Proofs.Validation.Severity

/-!
# What the checks say of laid out queries

The checks of keywords look for the places where clauses open. In a layout these are the beginnings
of its clauses, and each check is content with what it finds there.
-/

namespace Ariel.Query

open Ariel.Text Ariel.Validation

variable {text after : List Char} {clauses : List (Nat × List Char)} {before : Option Char}

/-- What follows a clause in a row begins with a blank, when there is anything. -/
theorem is_blank_of_head_row {c : Char} (h : c ∈ (row clauses).head?) : isBlank c = true := by
  cases clauses with
  | nil => cases h
  | cons first clauses =>
      obtain rfl : ' ' = c := Option.some.inj h
      decide

/-- A clause in a row is followed by the end of its last word. -/
theorem ends_word_row (clauses : List (Nat × List Char)) : endsWord (row clauses) = true := by
  cases clauses <;> rfl

/-- A layout begins with SELECT. -/
theorem Layout.exists_select (h : Layout text clauses) :
    ∃ rest, text = "SELECT ".toList ++ rest := by
  obtain ⟨clause, later, rfl⟩ := h.select
  have hmask : ClauseMask 0 clause := h.masks (0, clause) (by simp)
  cases hmask with
  | @select body _ =>
      refine ⟨body ++ row later, ?_⟩
      rw [(List.cons.inj h.row_eq).2, List.append_assoc]

theorem leading_select_eq_nil (h : Layout text clauses) : leadingSelect text = [] := by
  obtain ⟨rest, rfl⟩ := h.exists_select
  have hword : wholeWord "SELECT" none ("SELECT ".toList ++ rest) = some ((), ' ' :: rest) :=
    whole_word_eq_some_iff.mpr ⟨rfl, rfl, "SELECT".toList, rfl, by decide⟩
  have hstart : (keyword? "SELECT" (dropBlanks ("SELECT ".toList ++ rest))).isSome = true := rfl
  unfold leadingSelect
  cases hfirst : firstOccurrence? (wholeWord "SELECT") ("SELECT ".toList ++ rest) with
  | none =>
      have hmatch : MatchesAt (wholeWord "SELECT") [] ("SELECT ".toList ++ rest) () :=
        ⟨by simp, _, hword⟩
      exact absurd hmatch (not_matches_of_first_occurrence_eq_none hfirst rfl)
  | some select =>
      simp only [hstart, if_true]
      split <;> rfl

section Source

/-- The keyword FROM and the table of a layout are taken together. -/
theorem from_table_eq (table : Table) (hbegins : beginsWord before = true)
    (hafter : endsWord after = true) :
    fromTable before ("FROM ".toList ++ (table.name.toList ++ after)) =
      some (some (5, table.name.toList), after) := by
  have hstop : ∀ c ∈ after.head?, continuesName c = false := by
    intro c hc
    refine Bool.eq_false_iff.mpr fun hcontinues => ?_
    have hword := is_word_character_of_continues_name hcontinues
    simp [is_word_character_of_ends_word hafter c hc] at hword
  have hname : name? (table.name.toList ++ after) = some (table.name.toList, after) := by
    refine name_eq_some_iff.mpr ⟨rfl, ?_, List.all_eq_true.mp ?_, hstop⟩
    · cases table <;> decide
    · cases table <;> decide
  exact from_table_eq_some_iff.mpr ⟨hbegins, "FROM".toList, [' '], rfl, by decide, by simp,
    by simp [isBlank], rfl, hname⟩

theorem from_clause_eq_nil (h : Layout text clauses) : fromClause text = [] := by
  unfold fromClause
  split
  · rfl
  · cases hfirst : firstOccurrence? fromTable text with
    | none =>
        -- The clause of the table is there, so FROM and its table occur.
        obtain ⟨clause, hmem⟩ := h.source
        obtain ⟨earlier, later, rfl⟩ := List.append_of_mem hmem
        obtain ⟨front, hsplit, hbegins⟩ := h.exists_split
        have hmask : ClauseMask 1 clause := h.masks (1, clause) hmem
        cases hmask with
        | source table =>
            rw [List.append_assoc] at hsplit
            have hmatch : MatchesAt fromTable front
                ("FROM ".toList ++ (table.name.toList ++ row later))
                (some (5, table.name.toList)) :=
              ⟨by simp, _, from_table_eq table hbegins (ends_word_row later)⟩
            exact absurd hmatch (not_matches_of_first_occurrence_eq_none hfirst hsplit)
    | some found =>
        obtain ⟨⟨front, tail, hsplit, -, -, rest, hmatch⟩, -⟩ := first_occurrence_eq_some hfirst
        obtain ⟨after, hword⟩ := whole_word_of_from_table hmatch
        have hkeyword := keyword_at_of_whole_word hword (by decide)
        have hplace : placeOf? "FROM" = some 1 := rfl
        obtain ⟨earlier, clause, later, rfl, -, rfl, hmask, -⟩ :=
          h.exists_clause hsplit hkeyword hplace
        obtain ⟨table, rfl⟩ := hmask.source_eq
        rw [List.append_assoc, from_table_eq table hkeyword.begins (ends_word_row later)] at hmatch
        obtain ⟨offset, value⟩ := found
        obtain rfl : some (5, table.name.toList) = value :=
          congrArg Prod.fst (Option.some.inj hmatch)
        cases table <;> rfl

end Source

section Time

/-- The keyword LAST is taken together with the amount and the unit of a layout. -/
theorem last_clause_eq (n : Nat) (unit : TimeUnit) (hbegins : beginsWord before = true)
    (hafter : endsWord after = true) :
    ∃ amountOffset unitOffset, lastClause before
        ("LAST ".toList ++ ((decimal n).toList ++ (' ' :: (unit.keyword.toList ++ after)))) =
      some (⟨amountOffset, (decimal n).toList, unitOffset, unit.keyword.toList⟩, after) := by
  have hletters : unit.keyword.toList ≠ [] ∧ unit.keyword.toList.all Char.isAlpha = true := by
    cases unit <;> decide
  have hspace : ∀ c ∈ [' '], isBlank c = true := by simp [isBlank]
  refine ⟨byteLength ("LAST".toList ++ [' ']),
    byteLength ("LAST".toList ++ ([' '] ++ ((decimal n).toList ++ [' ']))), ?_⟩
  refine last_clause_eq_some_iff.mpr ⟨hbegins, "LAST".toList, [' '], [' '], ?_⟩
  exact {
    split := by simp
    keyword := by decide
    gap_ne_nil := by simp
    gap_blank := hspace
    amount_ne_nil := decimal_ne_nil n
    amount_digits := fun c hc => is_decimal_digit_of_digit (is_digit_of_decimal hc)
    between_ne_nil := by simp
    between_blank := hspace
    unit_ne_nil := hletters.1
    unit_letters := List.all_eq_true.mp hletters.2
    ends := hafter
    amountOffset := rfl
    unitOffset := rfl }

/-- Where LAST opens a clause of a layout, it has an amount that is not zero and a known unit. -/
theorem Layout.last_clause (h : Layout text clauses) {found : Occurrence LastClause}
    (hfound : found ∈ occurrences lastClause text) :
    (∃ c ∈ found.value.amount, c ≠ '0') ∧
      ∃ unit : TimeUnit, found.value.unit = unit.keyword.toList := by
  obtain ⟨front, tail, hsplit, -, -, rest, hmatch⟩ := matches_of_occurrence hfound
  have hkeyword := keyword_at_of_last_clause hmatch
  have hplace : placeOf? "LAST" = some 7 := rfl
  obtain ⟨earlier, clause, later, rfl, -, rfl, hmask, body, hbody⟩ :=
    h.exists_clause hsplit hkeyword hplace
  obtain ⟨amount, unit, hamount, hclause⟩ := hmask.last_eq hbody
  obtain ⟨amountOffset, unitOffset, hlast⟩ :=
    last_clause_eq amount.toNat unit hkeyword.begins (ends_word_row later)
  have htail : clause ++ row later = "LAST ".toList ++ ((decimal amount.toNat).toList ++
      (' ' :: (unit.keyword.toList ++ row later))) := by
    rw [hclause]
    simp
  rw [htail, hlast] at hmatch
  obtain ⟨hvalue, -⟩ := Prod.mk.inj (Option.some.inj hmatch)
  rw [← hvalue]
  refine ⟨?_, unit, rfl⟩
  -- A number whose digits are all zeros has the value zero.
  by_contra hzeros
  push Not at hzeros
  have hzero := digits_value_of_zeros hzeros
  rw [digits_value_decimal] at hzero
  exact hamount (UInt32.toNat_inj.mp hzero)

/-- The check of time clauses finds no error in a layout. -/
theorem time_clause_no_error (h : Layout text clauses) : NoError (timeClause text) := by
  have hrelative : ∀ found ∈ occurrences lastClause text,
      zeroAmount found ++ timeUnit found = [] := by
    intro found hfound
    obtain ⟨⟨c, hc, hne⟩, unit, hunit⟩ := h.last_clause hfound
    have hall : found.value.amount.all (· == '0') = false :=
      List.all_eq_false.mpr ⟨c, hc, by simpa using hne⟩
    have hcapitals : String.ofList (capitals found.value.unit) ∈ ["MINUTES", "HOURS", "DAYS"] := by
      rw [hunit]
      cases unit <;> decide
    simp only [zeroAmount, timeUnit, hall, List.contains_iff_mem.mpr hcapitals]
    rfl
  refine no_error_ite no_error_nil (NoError.append ?_ ?_)
  · rw [List.flatMap_eq_nil_iff.mpr hrelative]
    exact no_error_nil
  · exact no_error_ite (no_error_one Severity.noConfusion) no_error_nil

end Time

section Limit

/-- The keyword LIMIT is taken together with the number of a layout. -/
theorem limit_clause_eq (n : Nat) (hbegins : beginsWord before = true)
    (hafter : ∀ c ∈ after.head?, isBlank c = true) :
    limitClause before ("LIMIT ".toList ++ ((decimal n).toList ++ after)) =
      some (some (6, (decimal n).toList), after) :=
  limit_clause_eq_some_iff.mpr ⟨hbegins, "LIMIT".toList, [' '], rfl, by decide, by simp,
    by simp [isBlank], rfl, decimal_ne_nil n,
    fun _ hc => is_blank_of_digit (is_digit_of_decimal hc), hafter⟩

/-- The number of a row limit is a good limit. -/
theorem good_limit_decimal (limit : RowLimit) : GoodLimit (decimal limit.rows.toNat).toList := by
  have hbound : limit.rows.toNat < 2 ^ 32 := limit.rows.toNat_lt
  have hpos : limit.rows.toNat ≠ 0 := fun hzero => limit.positive (UInt32.toNat_inj.mp hzero)
  refine ⟨_, [], (List.append_nil _).symm, ⟨_, .inl rfl, decimal_ne_nil _,
    fun _ => is_digit_of_decimal, ?_, ?_⟩, by simp⟩
  · rw [digits_value_decimal]
    omega
  · rw [digits_value_decimal]
    omega

/-- The check of limits has nothing to say of a layout. -/
theorem limit_value_eq_nil (h : Layout text clauses) : limitValue text = [] := by
  refine limit_value_eq_nil_iff.mpr fun found hfound => ?_
  obtain ⟨front, tail, hsplit, -, -, rest, hmatch⟩ := matches_of_occurrence hfound
  obtain ⟨after, hword⟩ := whole_word_of_limit_clause hmatch
  have hkeyword := keyword_at_of_whole_word hword (by decide)
  have hplace : placeOf? "LIMIT" = some 6 := rfl
  obtain ⟨earlier, clause, later, rfl, -, rfl, hmask, -⟩ := h.exists_clause hsplit hkeyword hplace
  obtain ⟨limit, rfl⟩ := hmask.limit_eq
  rw [List.append_assoc, limit_clause_eq _ hkeyword.begins fun _ => is_blank_of_head_row] at hmatch
  obtain ⟨hvalue, -⟩ := Prod.mk.inj (Option.some.inj hmatch)
  exact ⟨6, _, hvalue.symm, good_limit_decimal limit⟩

end Limit

section Order

/-- Clauses that are found one behind the other are not misplaced. -/
theorem misplaced_eq_nil {found : List (String × Nat)}
    (h : found.Pairwise fun earlier later => earlier.2 ≤ later.2) : misplaced found = [] := by
  induction found with
  | nil => rfl
  | cons first found ih =>
      obtain ⟨earlier, offset⟩ := first
      obtain ⟨hfirst, hfound⟩ := List.pairwise_cons.mp h
      rw [misplaced, ih hfound, List.append_nil]
      refine List.filterMap_eq_nil_iff.mpr fun later hlater => if_neg ?_
      exact Nat.not_lt.mpr (hfirst later hlater)

/-- The keywords that are looked for at a place of the order open the clause at that place. -/
theorem keyword_at_of_clauses_in_order {i : Nat} {tail rest : List Char} {u : Unit}
    (hi : i < clausesInOrder.length) (h : clausesInOrder[i].2 before tail = some (u, rest)) :
    ∃ keyword, KeywordAt before tail keyword ∧ placeOf? keyword = some i := by
  match i, hi with
  | 0, _ => exact ⟨"SELECT", keyword_at_of_whole_word h (by decide), rfl⟩
  | 1, _ => exact ⟨"FROM", keyword_at_of_whole_word h (by decide), rfl⟩
  | 2, _ => exact ⟨"WHERE", keyword_at_of_whole_word h (by decide), rfl⟩
  | 3, _ => exact ⟨"GROUP", keyword_at_of_whole_phrase h (by decide), rfl⟩
  | 4, _ => exact ⟨"HAVING", keyword_at_of_whole_word h (by decide), rfl⟩
  | 5, _ => exact ⟨"ORDER", keyword_at_of_whole_phrase h (by decide), rfl⟩
  | 6, _ => exact ⟨"LIMIT", keyword_at_of_whole_word h (by decide), rfl⟩
  | 7, _ =>
      obtain ⟨p, hmem, hp⟩ := exists_of_first_of_eq_some h
      simp only [List.mem_cons, List.not_mem_nil, or_false] at hmem
      rcases hmem with rfl | rfl
      · exact ⟨"LAST", keyword_at_of_last_amount hp, rfl⟩
      · exact ⟨"START", keyword_at_of_whole_word hp (by decide), rfl⟩

/-- The first occurrence of the keywords for a place is the beginning of the clause there. -/
theorem Layout.first_place (h : Layout text clauses) {i : Nat} (hi : i < clausesInOrder.length)
    {found : Occurrence Unit} (hfound : firstOccurrence? clausesInOrder[i].2 text = some found) :
    ∃ earlier clause later, clauses = earlier ++ (i, clause) :: later ∧
      found.offset = byteLength (row earlier) := by
  obtain ⟨⟨front, tail, hsplit, hoffset, -, rest, hmatch⟩, -⟩ := first_occurrence_eq_some hfound
  obtain ⟨keyword, hkeyword, hplace⟩ := keyword_at_of_clauses_in_order hi hmatch
  obtain ⟨earlier, clause, later, hclauses, hlength, -⟩ := h.exists_clause hsplit hkeyword hplace
  exact ⟨earlier, clause, later, hclauses, by rw [← hoffset, hlength]⟩

/-- What stands before a clause takes no more bytes than what stands before a later one. -/
theorem byte_length_row_le {earlier earlier' later later' : List (Nat × List Char)} {i j : Nat}
    {clause clause' : List Char}
    (hsorted : clauses.Pairwise fun first second => first.1 < second.1)
    (hsplit : clauses = earlier ++ (i, clause) :: later)
    (hsplit' : clauses = earlier' ++ (j, clause') :: later') (hij : i < j) :
    byteLength (row earlier) ≤ byteLength (row earlier') := by
  rw [hsplit] at hsplit'
  rcases List.append_eq_append_iff.mp hsplit' with ⟨more, rfl, -⟩ | ⟨more, rfl, hbehind⟩
  · rw [row_append, byte_length_append]
    omega
  · cases more with
    | nil =>
        obtain ⟨hpair, -⟩ := List.cons.inj hbehind
        obtain ⟨rfl, -⟩ := Prod.mk.inj hpair
        exact absurd hij (Nat.lt_irrefl _)
    | cons second more =>
        -- Otherwise the later place would come first in the order.
        obtain ⟨rfl, -⟩ := List.cons.inj hbehind
        rw [hsplit, List.append_assoc] at hsorted
        have hbehind := (List.pairwise_append.mp hsorted).2.1
        have hlt : j < i := (List.pairwise_cons.mp hbehind).1 (i, clause) (by simp)
        omega

/-- The check of the order has nothing to say of a layout. -/
theorem clause_order_eq_nil (h : Layout text clauses) : clauseOrder text = [] := by
  refine misplaced_eq_nil (List.pairwise_filterMap.mpr (List.pairwise_iff_getElem.mpr ?_))
  intro i j hi hj hij first hfirst second hsecond
  obtain ⟨found, hfound, rfl⟩ := Option.map_eq_some_iff.mp hfirst
  obtain ⟨found', hfound', rfl⟩ := Option.map_eq_some_iff.mp hsecond
  obtain ⟨earlier, clause, later, hsplit, hoffset⟩ := h.first_place hi hfound
  obtain ⟨earlier', clause', later', hsplit', hoffset'⟩ := h.first_place hj hfound'
  show found.offset ≤ found'.offset
  rw [hoffset, hoffset']
  exact byte_length_row_le h.sorted hsplit hsplit' hij

end Order

section Groups

/-- The keywords GROUP and BY of a layout are a phrase. -/
theorem group_by_eq (body : List Char) (hbegins : beginsWord before = true) :
    wholePhrase "GROUP" "BY" before ("GROUP BY ".toList ++ body) = some ((), ' ' :: body) := by
  refine whole_phrase_eq_some_iff.mpr ⟨hbegins, phrase_eq_some_iff.mpr ⟨rfl, "GROUP".toList, [' '],
    "BY".toList, rfl, by decide, by simp, by simp [isBlank], by decide, fun c hc => ?_⟩⟩
  obtain rfl : 'B' = c := Option.some.inj hc
  decide

/-- Where there are group conditions in a layout, there are groups. -/
theorem Layout.exists_group_by (h : Layout text clauses) {found : Occurrence Unit}
    (hfound : firstOccurrence? (wholeWord "HAVING") text = some found) :
    ∃ grouping, firstOccurrence? (wholePhrase "GROUP" "BY") text = some grouping := by
  obtain ⟨earlier, clause, later, hsplit, -⟩ := h.first_place (i := 4) (by decide) hfound
  have hmem : (4, clause) ∈ clauses := by
    rw [hsplit]
    simp
  obtain ⟨groups, hgroups⟩ := h.groups clause hmem
  have hmask : ClauseMask 3 groups := h.masks (3, groups) hgroups
  obtain ⟨before, after, rfl⟩ := List.append_of_mem hgroups
  obtain ⟨front, htext, hbegins⟩ := h.exists_split
  cases hfirst : firstOccurrence? (wholePhrase "GROUP" "BY") text with
  | some grouping => exact ⟨grouping, rfl⟩
  | none =>
      cases hmask with
      | @groups body _ =>
          rw [List.append_assoc] at htext
          have hmatch : MatchesAt (wholePhrase "GROUP" "BY") front
              ("GROUP BY ".toList ++ (body ++ row after)) () :=
            ⟨by simp, _, group_by_eq _ hbegins⟩
          exact absurd hmatch (not_matches_of_first_occurrence_eq_none hfirst htext)

/-- The check of groups finds no error in a layout. -/
theorem aggregation_usage_no_error (h : Layout text clauses) :
    NoError (aggregationUsage text) := by
  refine NoError.append ?_ ?_
  · split
    · exact no_error_nil
    · exact no_error_ite no_error_nil (no_error_one Severity.noConfusion)
  · split
    next => exact no_error_nil
    next found hfound =>
      obtain ⟨grouping, hgrouping⟩ := h.exists_group_by hfound
      rw [hgrouping]
      exact no_error_nil

end Groups

/-- A text with a layout has something to say. -/
theorem empty_query_eq_nil {query : List Char} (h : Layout (mask query) clauses) :
    emptyQuery query = [] := by
  obtain ⟨rest, hmask⟩ := h.exists_select
  have hhead : query.head? = some 'S' := by
    rw [← head_mask query]
    show (mask query).head? = some 'S'
    rw [hmask]
    rfl
  cases query with
  | nil => cases hhead
  | cons c query =>
      obtain rfl : c = 'S' := Option.some.inj hhead
      rfl

/-- No check finds an error in a closed text whose mask has a layout. -/
theorem Layout.no_error {query : List Char} (h : Layout (mask query) clauses)
    (hclosed : Closed query) (check : Check) : NoError (remarksOf check query) := by
  have hnil : ∀ {remarks : List Remark}, remarks = [] → NoError remarks := by
    rintro remarks rfl
    exact no_error_nil
  cases check with
  | emptyQuery => exact hnil (empty_query_eq_nil h)
  | leadingSelect => exact hnil (leading_select_eq_nil h)
  | fromClause => exact hnil (from_clause_eq_nil h)
  | balancedQuotes =>
      exact hnil (balanced_quotes_eq_nil_iff.mpr ⟨hclosed.singleQuotes, hclosed.doubleQuotes⟩)
  | balancedParentheses => exact hnil (balanced_iff.mp hclosed.balanced).2
  | comparisonOperators =>
      exact hnil (comparison_operators_eq_nil_iff.mpr hclosed.comparisons)
  | timeClause => exact time_clause_no_error h
  | clauseOrder => exact hnil (clause_order_eq_nil h)
  | limitValue => exact hnil (limit_value_eq_nil h)
  | aggregationUsage => exact aggregation_usage_no_error h
  | wildcardWithEquals | likeWithoutWildcard | matchAllPatterns | emptyConditions
  | whitespaceAndTerminator | commonTypos | unknownFunctions | doubleQuotedLiterals =>
      exact no_error_of_lenient rfl query

end Ariel.Query
