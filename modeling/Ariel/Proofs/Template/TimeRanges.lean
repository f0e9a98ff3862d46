import Ariel.Proofs.Template.Recognised
import Ariel.Proofs.Template.Swapping
import Ariel.Proofs.Validation.Fragment

/-!
# Time ranges behind a swap

A swap writes its clause at the places where a query has time clauses, or at the end where it has
none. `time_ranges_with_window` counts the time ranges that the validation recognises in the result:
the clauses that are written outside of literals, and those of the query with a semicolon at each
place. Where the time clauses of the query can be recognised themselves, these are as many as the
query has (`time_ranges_of_recognisable`).
-/

namespace Ariel.Template

open Ariel.Query Ariel.Text Ariel.Validation

variable {inside : Bool} {before : Option Char} {front taken rest tail new out cs : List Char}
  {query clause : String} {w : Window} {u : Unit}

/-- How a time clause stands in a query: outside of its literals, in front of the end of a word, and
spelled without a long s. -/
structure Standing where
  outside : Bool
  ends : Bool
  plain : Bool
  deriving DecidableEq, Repr

/-- The time clauses of a query that closes its literals: outside of these, an even number of quotes
follows. -/
def place : Pattern Standing := fun before cs =>
  (timeClause before cs).map fun found =>
    (⟨cs.count '\'' % 2 == 0, endsWord found.2, !(upTo found.2 cs).contains 'ſ'⟩, found.2)

/-- The places at which a swap puts its clause. -/
def places (query : String) : List Standing := reports place none query.toList

/-- Outside of literals, a word ends behind every time clause. -/
def Detached (query : String) : Prop :=
  ∀ found ∈ places query, found.outside = true → found.ends = true

/-- Every time clause stands outside of literals and is spelled without a long s. -/
def Recognisable (query : String) : Prop :=
  ∀ found ∈ places query, found.outside = true ∧ found.plain = true

/-- The number of clauses that a swap writes outside of literals. -/
def clausesWritten (query : String) : Nat :=
  if (places query).isEmpty then 1 else (places query).countP (·.outside)

/-- A query with a semicolon in the place of every time clause. -/
def struck (query : String) : String :=
  String.ofList (replaceAll timeClause [';'] query.toList)

section Masked

/-- Inside of a literal, what is masked ends with a quote and blanks, or it is blank. -/
theorem walled_of_inside (h : endsInside inside front = true) : Walled (maskFrom inside front) := by
  induction front using List.reverseRecOn with
  | nil => exact ⟨[], [], rfl, by simp, .inl rfl⟩
  | append_singleton front c ih =>
      rw [mask_from_append]
      by_cases hquote : c = '\''
      · rw [maskFrom, if_pos hquote]
        exact walled_of_last List.getLast?_concat (by rw [hquote]; decide)
      · rw [ends_inside_append, endsInside, if_neg hquote] at h
        have hfront : endsInside inside front = true := h
        obtain ⟨init, gap, hsplit, hgap, hinit⟩ := ih hfront
        rw [hfront, maskFrom, if_neg hquote, if_pos rfl, hsplit]
        refine ⟨init, gap ++ (List.replicate c.utf8Size ' ' ++ []), by simp [maskFrom], ?_, hinit⟩
        simp only [List.append_nil, List.mem_append]
        rintro d (hd | hd)
        · exact hgap d hd
        · rw [List.eq_of_mem_replicate hd]
          decide

/-- Inside of a literal, a mask begins with no word character. -/
theorem head_mask_inside (cs : List Char) :
    ∀ c ∈ (maskFrom true cs).head?, isWordCharacter c = false := by
  cases cs with
  | nil => simp [maskFrom]
  | cons c cs =>
      unfold maskFrom
      split
      next hquote =>
        rw [hquote]
        simp only [List.head?_cons, Option.mem_some_iff, forall_eq']
        decide
      next =>
        obtain ⟨n, hn⟩ := Nat.exists_eq_succ_of_ne_zero (Nat.ne_of_gt c.utf8Size_pos)
        rw [if_pos rfl, hn, List.replicate_succ]
        simp only [List.cons_append, List.head?_cons, Option.mem_some_iff, forall_eq']
        decide

/-- Inside of a literal, a text that shows no letters makes no difference. -/
theorem reports_inside (hinside : endsInside inside front = true) (heven : Even (new.count '\''))
    (hnew : ∀ c ∈ maskFrom true new, c.isAlpha = false) :
    reports timeRange none (maskFrom inside (front ++ (new ++ tail))) =
      reports timeRange none (maskFrom inside front) ++
        reports timeRange none (maskFrom true tail) := by
  rw [mask_from_append, mask_from_append, hinside, ends_inside_of_even_count heven,
    reports_append (seam_of_walled (walled_of_inside hinside)), reports_behind_plain hnew,
    reports_of_head (head_mask_inside tail)]

/-- Outside of literals, a semicolon parts the time ranges. -/
theorem reports_semicolon (hinside : endsInside inside front = false) :
    reports timeRange none (maskFrom inside (front ++ ([';'] ++ tail))) =
      reports timeRange none (maskFrom inside front) ++ reports timeRange none (mask tail) := by
  have hmask : maskFrom false ([';'] ++ tail) = ';' :: mask tail := mask_cons (by decide) tail
  have hbehind : ∀ before, reports timeRange before (';' :: mask tail) =
      reports timeRange none (mask tail) := by
    intro before
    have hplain : ∀ c ∈ [';'], c.isAlpha = false := List.forall_mem_singleton.mpr rfl
    have hskip : reports timeRange before ([';'] ++ mask tail) = _ := reports_behind_plain hplain
    have hbegins : beginsWord (some ';') = beginsWord none := by decide
    exact hskip.trans (reports_congr hbegins)
  rw [mask_from_append, hinside, hmask, reports_append (seam_of_wall (by decide)), hbehind]

/-- Outside of literals, a recognised text adds one time range. -/
theorem length_reports_outside {word behind : List Char} (hinside : endsInside inside front = false)
    (hbegins : beginsWord (front.getLast?.or before) = true) (heven : Even (new.count '\''))
    (h : Recognised (mask new) (mask tail) word behind) :
    (reports timeRange none (maskFrom inside (front ++ (new ++ tail)))).length =
      (reports timeRange none (maskFrom inside front)).length +
        ((reports timeRange none (mask tail)).length + 1) := by
  have hfront : beginsWord (maskFrom inside front).getLast? = true := by
    rw [last_mask hinside]
    cases hlast : front.getLast? with
    | none => rfl
    | some c => rwa [hlast, Option.some_or] at hbegins
  have hmask : maskFrom false (new ++ tail) = mask new ++ mask tail := mask_append heven
  rw [mask_from_append, hinside, hmask, h.length_reports hfront]

end Masked

section Counted

/-- What a search finds first, with a time clause. -/
structure First (before : Option Char) (front taken rest : List Char) : Prop where
  ne_nil : taken ≠ []
  free : Free timeClause before front (taken ++ rest)
  found : timeClause (front.getLast?.or before) (taken ++ rest) = some ((), rest)

/-- The first time clause of a text. -/
theorem First.text (h : First before front taken rest) : ClauseText taken ∧
    beginsWord (front.getLast?.or before) = true ∧
    (RelativeRange taken → endsWord rest = true) := by
  obtain ⟨hbegins, taken', hsplit, htext, hends⟩ := clause_text_of_time_clause h.found
  obtain rfl := List.append_cancel_right hsplit
  exact ⟨htext, hbegins, hends⟩

/-- With a text in place of each of its time clauses, a query that closes its literals has as many
time ranges as time clauses outside of literals, besides those that it has with semicolons there. -/
def Counts (inside : Bool) (before : Option Char) (cs out : List Char) : Prop :=
  (reports timeRange none (maskFrom inside out)).length =
    (reports place before cs).countP (·.outside) +
      (reports timeRange none (maskFrom inside (replaceFrom timeClause [';'] before 0 cs))).length

/-- A place is outside of literals where these are closed behind it. -/
theorem outside_eq (h : endsInside inside cs = false) : (cs.count '\'' % 2 == 0) = !inside := by
  rw [ends_inside_eq] at h
  cases inside <;> simp at h ⊢ <;> omega

/-- There are places where there are time clauses. -/
theorem free_place (h : Free timeClause before front tail) : Free place before front tail := by
  intro start rest hsplit hne
  rw [place, h start rest hsplit hne]
  rfl

/-- The places of a text are the first one and those behind it. -/
theorem First.reports_place (h : First before front taken rest)
    (hclosed : endsInside inside (front ++ (taken ++ rest)) = false) :
    reports place before (front ++ (taken ++ rest)) =
      ⟨!endsInside inside front, endsWord rest, !taken.contains 'ſ'⟩ ::
        reports place (taken.getLast?.or (front.getLast?.or before)) rest := by
  have hfound : place (front.getLast?.or before) (taken ++ rest) =
      some (⟨!endsInside inside front, endsWord rest, !taken.contains 'ſ'⟩, rest) := by
    rw [ends_inside_append] at hclosed
    have htaken : upTo rest (taken ++ rest) = taken := by simp [upTo]
    rw [place, h.found, Option.map_some, outside_eq hclosed, htaken]
  rw [reports_behind (free_place h.free), reports_at h.ne_nil hfound]

/-- A text without time clauses. -/
theorem counts_free (h : Free timeClause before cs []) : Counts inside before cs cs := by
  rw [Counts, reports_free (free_place h), replace_from_free _ h, List.countP_nil, Nat.zero_add]

/-- Outside of literals, a recognised text in place of the first time clause is one time range. -/
theorem First.counts_outside {word behind : List Char} (h : First before front taken rest)
    (hclosed : endsInside inside (front ++ (taken ++ rest)) = false)
    (hinside : endsInside inside front = false) (heven : Even (new.count '\''))
    (hnew : Recognised (mask new) (mask out) word behind)
    (hrest : Counts false (taken.getLast?.or (front.getLast?.or before)) rest out) :
    Counts inside before (front ++ (taken ++ rest)) (front ++ (new ++ out)) := by
  obtain ⟨-, hbegins, -⟩ := h.text
  rw [Counts, h.reports_place hclosed, hinside, length_reports_outside hinside hbegins heven hnew,
    replace_from_behind _ h.free, replace_from_at _ h.ne_nil h.found, reports_semicolon hinside,
    List.countP_cons_of_pos rfl, List.length_append]
  have hcounts : (reports timeRange none (mask out)).length = _ := hrest
  rw [hcounts, mask]
  omega

/-- Inside of a literal, a text that shows no letters in place of the first time clause is no time
range. -/
theorem First.counts_inside (h : First before front taken rest)
    (hclosed : endsInside inside (front ++ (taken ++ rest)) = false)
    (hinside : endsInside inside front = true) (heven : Even (new.count '\''))
    (hnew : ∀ c ∈ maskFrom true new, c.isAlpha = false)
    (hrest : Counts true (taken.getLast?.or (front.getLast?.or before)) rest out) :
    Counts inside before (front ++ (taken ++ rest)) (front ++ (new ++ out)) := by
  have hmark : ∀ c ∈ maskFrom true [';'], c.isAlpha = false := List.forall_mem_singleton.mpr rfl
  rw [Counts, h.reports_place hclosed, hinside, reports_inside hinside heven hnew,
    replace_from_behind _ h.free, replace_from_at _ h.ne_nil h.found,
    reports_inside hinside (by decide) hmark, List.countP_cons_of_neg (by simp),
    List.length_append, List.length_append]
  have hcounts : (reports timeRange none (maskFrom true out)).length = _ := hrest
  rw [hcounts]
  omega

end Counted

section Swapped

/-- Behind the first time clause of a text that closes its literals, they are closed as well. -/
theorem First.closed_behind (h : First before front taken rest)
    (hclosed : endsInside inside (front ++ (taken ++ rest)) = false) :
    endsInside (endsInside inside front) rest = false := by
  rwa [ends_inside_append, ends_inside_append, ends_inside_of_even_count h.text.1.even] at hclosed

/-- A swap leaves the end of a word where it is. -/
theorem ends_word_replace_from (replacement : List Char) (h : endsWord cs = true) :
    endsWord (replaceFrom timeClause replacement before 0 cs) = true := by
  cases cs with
  | nil => rfl
  | cons c cs =>
      have hnone : timeClause before (c :: cs) = none := by
        refine Option.eq_none_iff_forall_ne_some.mpr fun (u, rest) hfound => ?_
        obtain ⟨-, keyword, hkeyword, word, more, hsplit, hword, -⟩ := time_clause_begins hfound
        have hletters := letter_word_of_keyword keyword hkeyword
        obtain ⟨d, word, rfl⟩ := List.exists_cons_of_ne_nil (hword.ne_nil hletters.ne_nil)
        obtain ⟨rfl, -⟩ := List.cons.inj hsplit
        have hc := hword.word_characters hletters.letters c List.mem_cons_self
        simp [endsWord, hc] at h
      rw [replaceFrom, hnone]
      exact h

/-- A swap in a text that closes its literals. -/
theorem counts_replaced (hclause : w.clause? = some clause) (before : Option Char)
    (cs : List Char) (hclosed : endsInside inside cs = false)
    (hends : (∃ start stop, w = .absolute start stop) ∨
      ∀ found ∈ reports place before cs, found.outside = true → found.ends = true) :
    Counts inside before cs (replaceFrom timeClause clause.toList before 0 cs) := by
  have heven := (clause_text_of_clause hclause).even
  induction before, cs using search_induction time_clause_covers generalizing inside with
  | free before cs hfree =>
      rw [replace_from_free _ hfree]
      exact counts_free hfree
  | first before front taken rest u hne hfree hfound ih =>
      have hfirst : First before front taken rest := ⟨hne, hfree, hfound⟩
      rw [hfirst.reports_place hclosed] at hends
      rw [replace_from_behind _ hfree, replace_from_at _ hne hfound]
      have hbehind := ih (hfirst.closed_behind hclosed) (hends.imp_right fun h found hmem =>
        h found (List.mem_cons_of_mem _ hmem))
      cases hinside : endsInside inside front with
      | true =>
          rw [hinside] at hbehind
          exact hfirst.counts_inside hclosed hinside heven (no_letter_inside hclause) hbehind
      | false =>
          rw [hinside] at hbehind hends
          have hword : (∃ start stop, w = .absolute start stop) ∨
              endsWord (mask (replaceFrom timeClause clause.toList
                (taken.getLast?.or (front.getLast?.or before)) 0 rest)) = true := by
            refine hends.imp_right fun h => ?_
            rw [ends_word_mask]
            exact ends_word_replace_from _ (h _ List.mem_cons_self rfl)
          obtain ⟨word, behind, hnew⟩ := clause_recognised hclause hword
          exact hfirst.counts_outside hclosed hinside heven hnew hbehind

/-- A text that closes its literals, with recognisable time clauses. -/
theorem counts_unchanged (before : Option Char) (cs : List Char)
    (hclosed : endsInside inside cs = false)
    (h : ∀ found ∈ reports place before cs, found.outside = true ∧ found.plain = true) :
    Counts inside before cs cs := by
  induction before, cs using search_induction time_clause_covers generalizing inside with
  | free before cs hfree => exact counts_free hfree
  | first before front taken rest u hne hfree hfound ih =>
      have hfirst : First before front taken rest := ⟨hne, hfree, hfound⟩
      rw [hfirst.reports_place hclosed] at h
      obtain ⟨houtside, hplain⟩ := h _ List.mem_cons_self
      have hinside : endsInside inside front = false := by simpa using houtside
      have hbehind := ih (hfirst.closed_behind hclosed) fun found hmem =>
        h found (List.mem_cons_of_mem _ hmem)
      rw [hinside] at hbehind
      obtain ⟨htext, -, hends⟩ := hfirst.text
      obtain ⟨word, behind, hnew⟩ := htext.recognised (by simpa using hplain) fun hrange => by
        rw [ends_word_mask]
        exact hends hrange
      exact hfirst.counts_outside hclosed hinside htext.even hnew hbehind

end Swapped

section Query

/-- Time ranges are counted in the mask of a query. -/
theorem time_ranges_eq (query : String) :
    timeRanges query = (reports timeRange none (mask query.toList)).length := by
  rw [timeRanges, occurrences, reports, List.length_map]

/-- A query that is valid closes its literals. -/
theorem even_quotes_of_no_error
    (h : ∀ finding ∈ (validate query).findings, finding.severity ≠ .error) :
    Even (query.toList.count '\'') := by
  by_contra hodd
  have hne : unmatchedQuote '\'' "single" query.toList ≠ [] := fun hnil =>
    hodd (unmatched_quote_eq_nil_iff.mp hnil)
  obtain ⟨remark, hremark⟩ := List.exists_mem_of_ne_nil _ hne
  have herror : remark.severity = .error := by
    simp only [unmatchedQuote] at hremark
    split at hremark
    · cases hremark
    · split at hremark
      · cases hremark
      · rw [List.mem_singleton.mp hremark]
        rfl
  have hmem : remark ∈ remarksOf .balancedQuotes query.toList := List.mem_append_left _ hremark
  refine h (Finding.ofRemark query.toList .balancedQuotes remark) ?_ herror
  exact List.mem_flatMap.mpr ⟨.balancedQuotes, by decide, List.mem_map_of_mem hmem⟩

/-- Blanks at the end of a text that closes its literals make no difference. -/
theorem reports_trailing_blanks {gap : List Char} (hclosed : Even (front.count '\''))
    (hgap : ∀ c ∈ gap, isBlank c = true) :
    reports timeRange none (mask (front ++ gap)) = reports timeRange none (mask front) := by
  rw [mask_append hclosed, mask_of_no_quote (quote_not_mem_blanks hgap),
    reports_append (seam_of_blanks hgap),
    reports_of_plain fun c hc => is_alpha_of_blank (hgap c hc), List.append_nil]

/-- A clause on a line of its own at the end of a query is one time range more. -/
theorem length_reports_new_line (hclause : w.clause? = some clause)
    (hclosed : Even (cs.count '\'')) :
    (reports timeRange none (mask (dropLastBlanks cs ++ '\n' :: clause.toList))).length =
      (reports timeRange none (mask cs)).length + 1 := by
  obtain ⟨gap, hsplit, hgap⟩ := drop_last_blanks_spec cs
  have hbody : Even ((dropLastBlanks cs).count '\'') := by
    rw [hsplit, List.count_append, List.count_eq_zero_of_not_mem (quote_not_mem_blanks hgap),
      Nat.add_zero] at hclosed
    exact hclosed
  have hline : Even ((dropLastBlanks cs ++ ['\n']).count '\'') := by
    rw [List.count_append]
    exact hbody.add (by decide)
  have hnew : ∀ c ∈ ['\n'], isBlank c = true := List.forall_mem_singleton.mpr rfl
  have hbegins : beginsWord ((dropLastBlanks cs ++ ['\n']).getLast?.or none) = true := by
    rw [List.getLast?_concat]
    decide
  have hone : ∃ word behind, Recognised (mask clause.toList) (mask []) word behind :=
    clause_recognised hclause (.inr rfl)
  obtain ⟨word, behind, hrecognised⟩ := hone
  have hcount := length_reports_outside (ends_inside_of_even hline) hbegins
    (clause_text_of_clause hclause).even hrecognised
  have hmask : mask (dropLastBlanks cs ++ '\n' :: clause.toList) =
      maskFrom false (dropLastBlanks cs ++ ['\n'] ++ (clause.toList ++ [])) := by
    rw [List.append_nil, List.append_assoc]
    rfl
  have hfront : maskFrom false (dropLastBlanks cs ++ ['\n']) = mask (dropLastBlanks cs ++ ['\n']) :=
    rfl
  rw [hmask, hcount, hfront, reports_trailing_blanks hbody hnew]
  conv_rhs => rw [hsplit, reports_trailing_blanks hbody hgap]
  rfl

/-- Without a time clause, a swap writes one on a line of its own. -/
theorem swapped_free (h : Free timeClause none cs []) (clause : List Char) :
    swapped clause cs = dropLastBlanks cs ++ '\n' :: clause := by
  rw [swapped, occurs_eq, reports_free h]
  rfl

/-- With a time clause, a swap writes the new one in the place of each. -/
theorem First.swapped (h : First none front taken rest) (clause : List Char) :
    swapped clause (front ++ (taken ++ rest)) =
      replaceFrom timeClause clause none 0 (front ++ (taken ++ rest)) := by
  rw [Template.swapped, occurs_eq, reports_behind h.free, reports_at h.ne_nil h.found]
  rfl

/-- What the validation recognises behind a swap: the clauses that are written, and what is left of
the query when its time clauses are struck out. -/
theorem time_ranges_with_window (hclosed : Even (query.toList.count '\''))
    (hclause : w.clause? = some clause)
    (hends : (∃ start stop, w = .absolute start stop) ∨ Detached query) :
    timeRanges (withWindow query w) = clausesWritten query + timeRanges (struck query) := by
  have hinside := ends_inside_of_even hclosed
  have hstruck : timeRanges (struck query) = (reports timeRange none
      (mask (replaceFrom timeClause [';'] none 0 query.toList))).length := by
    rw [time_ranges_eq, struck, String.toList_ofList, replaceAll]
  rw [time_ranges_eq, to_list_with_window hclause, hstruck, clausesWritten, places]
  rcases free_or_exists_first time_clause_covers none query.toList with
    hfree | ⟨front, taken, rest, u, hsplit, hne, hfree, hfound⟩
  · rw [swapped_free hfree, length_reports_new_line hclause hclosed, replace_from_free _ hfree,
      reports_free (free_place hfree), Nat.add_comm]
    rfl
  · have hfirst : First none front taken rest := ⟨hne, hfree, hfound⟩
    have hcounts := counts_replaced hclause none query.toList hinside hends
    have hsome : (reports place none query.toList).isEmpty = false := by
      rw [hsplit] at hinside ⊢
      rw [hfirst.reports_place hinside]
      rfl
    rw [hsome, if_neg (by decide)]
    rw [hsplit] at hcounts ⊢
    rw [hfirst.swapped]
    exact hcounts

/-- With recognisable time clauses, the validation recognises these and what is left of the query
when they are struck out. -/
theorem time_ranges_of_recognisable (hclosed : Even (query.toList.count '\''))
    (h : Recognisable query) :
    timeRanges query = (places query).countP (·.outside) + timeRanges (struck query) := by
  have hcounts := counts_unchanged none query.toList (ends_inside_of_even hclosed) h
  rw [time_ranges_eq, time_ranges_eq, struck, String.toList_ofList]
  exact hcounts

/-- In a query without time clauses none is struck out. -/
theorem struck_of_no_place (hclosed : Even (query.toList.count '\'')) (h : places query = []) :
    struck query = query := by
  rcases free_or_exists_first time_clause_covers none query.toList with
    hfree | ⟨front, taken, rest, u, hsplit, hne, hfree, hfound⟩
  · rw [struck, replaceAll, replace_from_free _ hfree, String.ofList_toList]
  · have hfirst : First none front taken rest := ⟨hne, hfree, hfound⟩
    have hinside := ends_inside_of_even hclosed
    rw [hsplit] at hinside
    rw [places, hsplit, hfirst.reports_place hinside] at h
    cases h

/-- Behind a swap in a valid query the validation recognises one time range exactly when those that
are written outside of literals and those that are left are one. When the time clauses of the query
are recognisable and it has one time range at most, this is so exactly when the swap finds time
clauses in the query where the validation recognises a time range. -/
theorem one_time_range_iff
    (hquery : ∀ finding ∈ (validate query).findings, finding.severity ≠ .error)
    (hwindow : w.check = .ok ()) (hbounds : w ≠ .unbounded)
    (hends : (∃ start stop, w = .absolute start stop) ∨ Detached query) :
    (timeRanges (withWindow query w) = 1 ↔
      clausesWritten query + timeRanges (struck query) = 1) ∧
    (Recognisable query → timeRanges query ≤ 1 →
      (timeRanges (withWindow query w) = 1 ↔ (places query = [] ↔ timeRanges query = 0))) := by
  have hclosed := even_quotes_of_no_error hquery
  obtain ⟨clause, hclause⟩ :=
    Option.isSome_iff_exists.mp ((Window.clause_is_some_iff w).mpr ⟨hbounds, hwindow⟩)
  have hcount := time_ranges_with_window hclosed hclause hends
  refine ⟨by rw [hcount], fun hrecognisable hone => ?_⟩
  have hbefore := time_ranges_of_recognisable hclosed hrecognisable
  rw [hcount, clausesWritten]
  by_cases hnone : places query = []
  · simp only [hnone, List.isEmpty_nil, if_true, struck_of_no_place hclosed hnone, true_iff]
    omega
  · rw [if_neg (by simpa using hnone), ← hbefore]
    simp only [hnone, false_iff]
    omega

/-- A query with LAST in a literal and as a time clause. -/
def lastOfLast : String := "SELECT * FROM events WHERE username = 'LAST' last 24 hours"

/-- The time clause is replaced, and the literal stays as it is. -/
theorem one_time_range_of_last :
    (∀ finding ∈ (validate lastOfLast).findings, finding.severity ≠ .error) ∧
    (Window.relative 7 .days).check = .ok () ∧ Window.relative 7 .days ≠ .unbounded ∧
    Detached lastOfLast ∧ Recognisable lastOfLast ∧ timeRanges lastOfLast ≤ 1 ∧
    timeRanges (withWindow lastOfLast (.relative 7 .days)) = 1 := by
  have hquery : ∀ finding ∈ (validate lastOfLast).findings, finding.severity ≠ .error := by
    decide +kernel
  have hwindow : (Window.relative 7 .days).check = .ok () := by decide
  have hbounds : Window.relative 7 .days ≠ .unbounded := by decide
  have hplaces : places lastOfLast = [⟨true, true, true⟩] := by decide +kernel
  have hdetached : Detached lastOfLast := by
    rw [Detached, hplaces]
    decide
  have hrecognisable : Recognisable lastOfLast := by
    rw [Recognisable, hplaces]
    decide
  have hone : timeRanges lastOfLast = 1 := by decide +kernel
  have hresult := (one_time_range_iff hquery hwindow hbounds (.inr hdetached)).2 hrecognisable
    hone.le
  refine ⟨hquery, hwindow, hbounds, hdetached, hrecognisable, hone.le, hresult.mpr ?_⟩
  rw [hplaces, hone]
  decide

/-- START in front of a function call is recognised, but not found, and so it is kept. -/
theorem not_one_time_range_of_call :
    ∃ query w, (∀ finding ∈ (validate query).findings, finding.severity ≠ .error) ∧
      timeRanges query ≤ 1 ∧ Window.check w = .ok () ∧ w ≠ .unbounded ∧
      timeRanges (withWindow query w) ≠ 1 :=
  ⟨"SELECT * FROM events START PARSEDATETIME('1 day ago')", .relative 7 .days, by decide +kernel⟩

end Query

end Ariel.Template
