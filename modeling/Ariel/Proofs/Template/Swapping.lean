import Ariel.Proofs.Query.Window.RoundTrip
import Ariel.Proofs.Template.Library
import Ariel.Proofs.Text.Report

/-!
# Filling in and swapping the time range

A library query is filled in first and gets another time range then. The swap looks at the whole
text, so that a time clause in a value is swapped as well. `with_window_render_iff` says when the
two can be done in either order: when filling brings no time clause.
-/

namespace Ariel.Template

open Ariel.Query Ariel.Text

variable {front back clause cs : List Char} {values : List (String × String)} {c : Char}
  {t : Template} {w : Window}

/-- The number of time clauses in a query. -/
def timeClauses (query : String) : Nat := (occurrences timeClause query.toList).length

/-- A mark that ends no hole parts a query, and there are neither quotes nor holes behind it. -/
structure Split (front back : List Char) (c : Char) : Prop where
  last : front.getLast? = some c
  mark : isMark c = true
  brace : c ≠ '\x7d'
  quiet : ∀ d ∈ back, isMark d = false
  ending : (front ++ back).getLast?.any (!isBlank ·) = true

section Splitting

/-- No quote stands behind the last mark. -/
theorem Split.quote_not_mem (h : Split front back c) : '\'' ∉ back :=
  fun hquote => absurd (h.quiet _ hquote) (by decide)

/-- No hole ends behind the last mark. -/
theorem Split.brace_not_mem (h : Split front back c) : '\x7d' ∉ back :=
  fun hbrace => absurd (h.quiet _ hbrace) (by decide)

/-- The last mark is a seam for time clauses. -/
theorem Split.seam (h : Split front back c) : Seam timeClause none front back :=
  seam_time_clause h.last h.mark h.quote_not_mem

/-- Filling in goes on in front of the mark only. -/
theorem Split.filled (h : Split front back c) : Split (filled values front) back c := by
  have hlast : (Template.filled values front).getLast? = some c := by
    obtain ⟨init, rfl⟩ := List.getLast?_eq_some_iff.mp h.last
    rw [filled_append_of_no_brace (by simpa using h.brace.symm), List.getLast?_concat]
  refine ⟨hlast, h.mark, h.brace, h.quiet, ?_⟩
  have hending := h.ending
  rwa [List.getLast?_append, h.last, ← hlast, ← List.getLast?_append] at hending

/-- A query whose time clauses stand behind its last mark is split there. -/
theorem Closing.split {query : List Char} (h : Closing query) :
    ∃ c, Split (body query) (ending query) c := by
  have hmark := h.mark
  cases hlast : (body query).getLast? with
  | none =>
      rw [hlast] at hmark
      cases hmark
  | some c =>
      rw [hlast, Option.any_some, Bool.and_eq_true, bne_iff_ne] at hmark
      refine ⟨c, hlast, hmark.1, hmark.2, fun d hd => ?_, ?_⟩
      · simpa using List.mem_rtakeWhile_imp hd
      · rw [body_append_ending]
        exact h.last

/-- The time clauses of a split query are those of its two parts. -/
theorem Split.length_occurrences (h : Split front back c) :
    (occurrences timeClause (front ++ back)).length =
      (occurrences timeClause front).length +
        (occurrencesFrom timeClause (some c) 0 0 back).length := by
  rw [occurrences, occurrences_from_append h.seam (Nat.zero_le _), List.length_append, h.last,
    Option.some_or, length_occurrences_from (0 + byteLength front) 0, occurrences]

end Splitting

/-- The characters of a query with its time clauses swapped. -/
def swapped (clause cs : List Char) : List Char :=
  if occurs timeClause cs then replaceAll timeClause clause cs
  else dropLastBlanks cs ++ '\n' :: clause

/-- The text behind a mark with its time clauses swapped. -/
def swappedBehind (c : Char) (clause back : List Char) : List Char :=
  if (occurrencesFrom timeClause (some c) 0 0 back).isEmpty then back ++ '\n' :: clause
  else replaceFrom timeClause clause (some c) 0 back

section Swapped

/-- A window with a clause swaps it for the time clauses of a query. -/
theorem to_list_with_window {query clause : String} (h : w.clause? = some clause) :
    (withWindow query w).toList = swapped clause.toList query.toList := by
  rw [withWindow, h, swapped]
  show (if occurs timeClause query.toList then _ else _ : String).toList = _
  split
  · rw [String.toList_ofList]
  · rw [String.toList_append, String.toList_append, String.toList_ofList, List.append_assoc]
    rfl

/-- Without time clauses up to the mark, the swap goes on behind it only. -/
theorem Split.swapped (h : Split front back c) (hfront : occurrences timeClause front = []) :
    swapped clause (front ++ back) = front ++ swappedBehind c clause back := by
  have hlength := h.length_occurrences
  rw [hfront, List.length_nil, Nat.zero_add] at hlength
  have hreplaced : replaceAll timeClause clause (front ++ back) =
      front ++ replaceFrom timeClause clause (some c) 0 back := by
    have hkept := replace_all_of_no_occurrence clause hfront
    rw [replaceAll] at hkept
    rw [replaceAll, replace_from_append h.seam (Nat.zero_le _), hkept, h.last, Option.some_or]
  have hdropped : dropLastBlanks (front ++ back) = front ++ back :=
    drop_last_blanks_of_last h.ending
  rw [Template.swapped, swappedBehind, hreplaced, hdropped, occurs]
  by_cases hnone : occurrences timeClause (front ++ back) = []
  · have hbehind : occurrencesFrom timeClause (some c) 0 0 back = [] :=
      List.length_eq_zero_iff.mp (by rw [← hlength, hnone, List.length_nil])
    rw [hnone, hbehind]
    simp
  · have hbehind : occurrencesFrom timeClause (some c) 0 0 back ≠ [] := by
      intro hnil
      rw [hnil, List.length_nil] at hlength
      exact hnone (List.length_eq_zero_iff.mp hlength)
    rw [if_pos (by simpa using hnone), if_neg (by simpa using hbehind)]

/-- With a time clause in front of the mark, the new one stands in the place of the first. -/
theorem Split.exists_swapped (h : Split front back c) (hfront : occurrences timeClause front ≠ []) :
    ∃ start taken rest, front = start ++ (taken ++ rest) ∧ taken ≠ [] ∧
      ∀ clause, ∃ more, Template.swapped clause (front ++ back) = start ++ (clause ++ more) := by
  obtain ⟨start, taken, rest, hsplit, hne, hreplaced⟩ :=
    exists_replace_all time_clause_covers hfront
  refine ⟨start, taken, rest, hsplit, hne, fun clause => ?_⟩
  obtain ⟨more, hmore⟩ := hreplaced clause
  have hoccurs : occurs timeClause (front ++ back) = true := by
    have hlength := h.length_occurrences
    have hpos : 0 < (occurrences timeClause front).length := List.length_pos_of_ne_nil hfront
    rw [occurs, Bool.not_eq_true', List.isEmpty_eq_false_iff]
    intro hnil
    rw [hnil, List.length_nil] at hlength
    omega
  rw [replaceAll] at hmore
  refine ⟨more ++ replaceFrom timeClause clause (front.getLast?.or none) 0 back, ?_⟩
  rw [Template.swapped, if_pos hoccurs, replaceAll, replace_from_append h.seam (Nat.zero_le _),
    hmore]
  simp only [List.append_assoc]

/-- No brace stands in the clause of a window. -/
theorem brace_not_mem_clause {clause : String} (h : w.clause? = some clause) :
    '\x7d' ∉ clause.toList :=
  fun hmem => absurd (Window.clause_chars h _ hmem) (by decide)

/-- Swapping behind the mark brings no hole. -/
theorem Split.brace_not_mem_swapped_behind (h : Split front back c) {clause : String}
    (hclause : w.clause? = some clause) : '\x7d' ∉ swappedBehind c clause.toList back := by
  have hnew := brace_not_mem_clause hclause
  rw [swappedBehind]
  split
  · simp [h.brace_not_mem, hnew]
  · intro hmem
    rcases mem_of_mem_replace_from hmem with hold | hbrace
    · exact h.brace_not_mem hold
    · exact hnew hbrace

/-- Without time clauses up to the mark, a swap and then filling in. -/
theorem Split.filled_swapped (h : Split front back c) (hfront : occurrences timeClause front = [])
    {clause : String} (hclause : w.clause? = some clause) :
    Template.filled values (Template.swapped clause.toList (front ++ back)) =
      Template.filled values front ++ swappedBehind c clause.toList back := by
  rw [h.swapped hfront, filled_append_of_no_brace (h.brace_not_mem_swapped_behind hclause)]

/-- Filling in that brings no time clause up to the mark can be done after the swap. -/
theorem Split.swapped_filled (h : Split front back c) (hfront : occurrences timeClause front = [])
    (hfilled : occurrences timeClause (Template.filled values front) = []) {clause : String}
    (hclause : w.clause? = some clause) :
    Template.swapped clause.toList (Template.filled values front ++ back) =
      Template.filled values (Template.swapped clause.toList (front ++ back)) := by
  rw [h.filled_swapped hfront hclause]
  exact h.filled.swapped hfilled

/-- Filling in that can be done after the swap to every window brings no time clause up to the
mark. -/
theorem Split.no_clause_filled (h : Split front back c)
    (hfront : occurrences timeClause front = [])
    (heither : ∀ (w : Window) (clause : String), w.clause? = some clause →
      Template.swapped clause.toList (Template.filled values front ++ back) =
        Template.filled values (Template.swapped clause.toList (front ++ back))) :
    occurrences timeClause (Template.filled values front) = [] := by
  by_contra hsome
  obtain ⟨start, taken, rest, hsplit, hne, hswapped⟩ := h.filled.exists_swapped hsome
  -- Every clause would begin as the time clause in a value does.
  have hhead : ∀ {w : Window} {clause : String}, w.clause? = some clause →
      clause.toList ≠ [] → clause.toList.head? = taken.head? := by
    intro w clause hclause hclause'
    have heq := heither w clause hclause
    obtain ⟨more, hmore⟩ := hswapped clause.toList
    rw [h.filled_swapped hfront hclause, hmore, hsplit, List.append_assoc,
      List.append_cancel_left_eq, List.append_assoc] at heq
    have hfirst := congrArg List.head? heq
    rwa [List.head?_append_of_ne_nil _ hclause', List.head?_append_of_ne_nil _ hne] at hfirst
  have hlast : (Window.relative 1 .days).clause? = some "LAST 1 DAYS" := by decide
  have hstart : (Window.absolute "2024-01-01 00:00" none).clause? =
      some "START '2024-01-01 00:00'" := by decide +kernel
  have hletter := (hhead hlast (by decide)).trans (hhead hstart (by decide)).symm
  exact absurd hletter (by decide)

end Swapped

section Library

/-- Filling a library query in and giving it another time range can be done in either order,
whatever the range is, exactly when the query that is filled in has no more time clauses than the
template. -/
theorem with_window_render_iff (ht : t ∈ library) (values : List (String × String)) :
    (∀ w : Window, withWindow (t.render values) w = fill (withWindow t.query w) values) ↔
      timeClauses (t.render values) = timeClauses t.query := by
  have hclosing := (shape_of_mem_library t ht).closing
  obtain ⟨c, hsplit⟩ := hclosing.split
  have hquery : t.query.toList = body t.query.toList ++ ending t.query.toList :=
    (body_append_ending _).symm
  have hnone : occurrences timeClause (body t.query.toList) = [] := by
    have htimeless := hclosing.timeless
    rwa [occurs, Bool.not_eq_false', List.isEmpty_iff] at htimeless
  generalize body t.query.toList = front at hsplit hquery hnone
  generalize ending t.query.toList = back at hsplit hquery
  have hrendered : (t.render values).toList = filled values front ++ back := by
    rw [render, to_list_fill, hquery, filled_append_of_no_brace hsplit.brace_not_mem]
  have hfilled : Split (filled values front) back c := hsplit.filled
  have hcount : timeClauses (t.render values) = timeClauses t.query ↔
      occurrences timeClause (filled values front) = [] := by
    rw [timeClauses, timeClauses, hrendered, hquery, hfilled.length_occurrences,
      hsplit.length_occurrences, hnone, Nat.add_right_cancel_iff, List.length_nil,
      List.length_eq_zero_iff]
  rw [hcount]
  constructor
  · intro h
    refine hsplit.no_clause_filled hnone fun w clause hclause => ?_
    have heq := congrArg String.toList (h w)
    rwa [to_list_with_window hclause, hrendered, to_list_fill, to_list_with_window hclause,
      hquery] at heq
  · intro hnone' w
    cases hclause : w.clause? with
    | none =>
        rw [withWindow, withWindow, hclause]
        rfl
    | some clause =>
        rw [← String.toList_inj, to_list_with_window hclause, hrendered, to_list_fill,
          to_list_with_window hclause, hquery, hsplit.swapped_filled hnone hnone' hclause]

/-- The characters of the template, with a plain name and with one that reads as a time clause. -/
theorem exists_chars_activity_by_username : ∃ cs, activityByUsername.query.toList = cs ∧
    (occurrences timeClause (filled [("username", "alice")] cs)).length =
      (occurrences timeClause cs).length ∧
    swapped "LAST 1 HOURS".toList (filled [("username", "LAST 24 HOURS")] cs) ≠
      filled [("username", "LAST 24 HOURS")] (swapped "LAST 1 HOURS".toList cs) :=
  ⟨_, show (lines _).toList = _ by
      repeat' first
        | with_reducible apply chars_lines
        | with_reducible apply chars_line
        | with_reducible exact String.toList_ofList,
    by decide +kernel⟩

/-- A plain name brings no time clause. -/
theorem with_window_render_plain_username :
    activityByUsername ∈ library ∧
    ∀ w : Window, withWindow (activityByUsername.render [("username", "alice")]) w =
      fill (withWindow activityByUsername.query w) [("username", "alice")] := by
  have hcount : timeClauses (activityByUsername.render [("username", "alice")]) =
      timeClauses activityByUsername.query := by
    obtain ⟨cs, hquery, hplain, -⟩ := exists_chars_activity_by_username
    rw [timeClauses, timeClauses, render, to_list_fill, hquery, hplain]
  exact ⟨mem_library_activity_by_username,
    (with_window_render_iff mem_library_activity_by_username _).mpr hcount⟩

/-- A name that reads as a time clause is swapped inside its literal, though it holds neither quotes
nor braces. -/
theorem with_window_render_ne :
    ∃ t ∈ library, ∃ values : List (String × String), ∃ w : Window,
      (∀ pair ∈ values, '\'' ∉ pair.2.toList ∧ '"' ∉ pair.2.toList ∧
        '\x7b' ∉ pair.2.toList ∧ '\x7d' ∉ pair.2.toList) ∧
      withWindow (t.render values) w ≠ fill (withWindow t.query w) values := by
  obtain ⟨cs, hquery, -, hspoiled⟩ := exists_chars_activity_by_username
  refine ⟨activityByUsername, mem_library_activity_by_username, [("username", "LAST 24 HOURS")],
    .relative 1 .hours, by decide, fun heq => hspoiled ?_⟩
  have hclause : (Window.relative 1 .hours).clause? = some "LAST 1 HOURS" := by decide
  have hchars := congrArg String.toList heq
  rwa [to_list_with_window hclause, to_list_fill, to_list_with_window hclause, render,
    to_list_fill, hquery] at hchars

end Library

end Ariel.Template
