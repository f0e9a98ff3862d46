import Ariel.Proofs.Query.Assembly
import Ariel.Proofs.Query.Draft
import Ariel.Proofs.Validation.Likeness

/-!
# Queries over several lines

A query with one clause a line differs from the same query on one line in the blanks between its
clauses, and each clause begins with a letter. So both are validated alike, which is
`validate_lines`.
-/

namespace Ariel.Validation

/-- The text with spaces in place of its line breaks. -/
def onOneLine (s : String) : String :=
  String.ofList (s.toList.map fun c => if c = '\n' then ' ' else c)

/-- The finding with its excerpt on one line. -/
def Finding.onOneLine (finding : Finding) : Finding :=
  { finding with excerpt := finding.excerpt.map Validation.onOneLine }

end Ariel.Validation

namespace Ariel.Query

open Ariel.Text Ariel.Validation

/-- Line breaks may stand in place of spaces. -/
def lineBreaks : Likeness where
  same := Eq
  wrapped c d := c = ' ' ∧ d = '\n'
  same_refl _ := rfl
  to_upper_eq h := congrArg Char.toUpper h
  blank_left h := by rw [h.1]; decide
  blank_right h := by rw [h.2]; decide
  size_eq h := by rw [h.1, h.2]; decide

section Likeness

variable {s t : String}

/-- Texts that are alike up to line breaks are the same on one line. -/
theorem on_one_line_eq (h : lineBreaks.Alike s.toList t.toList) : onOneLine s = onOneLine t := by
  refine congrArg String.ofList ?_
  rw [← List.forall₂_eq_eq_eq]
  refine List.rel_map ?_ h
  rintro c d (rfl | ⟨rfl, rfl⟩)
  · rfl
  · rfl

/-- Findings that are the same up to line breaks are the same on one line. -/
theorem finding_on_one_line_eq {finding other : Finding}
    (h : lineBreaks.SameFinding finding other) : finding.onOneLine = other.onOneLine := by
  obtain ⟨hcheck, hseverity, hmessage, hposition, hexcerpt⟩ := h
  rw [Likeness.Same, show lineBreaks.same = Eq from rfl, List.forall₂_eq_eq_eq,
    String.toList_inj] at hmessage
  have hexcerpt : finding.excerpt.map onOneLine = other.excerpt.map onOneLine := by
    rcases rel_cases hexcerpt with ⟨hnone, hnone'⟩ | ⟨s, t, hs, ht, halike⟩
    · rw [hnone, hnone']
    · rw [hs, ht, Option.map_some, Option.map_some, on_one_line_eq halike]
  simp only [Finding.onOneLine, hcheck, hseverity, hmessage, hposition, hexcerpt]

/-- What is put behind a text does not change its first letter. -/
theorem head_append (h : s.toList.head?.any Char.isAlpha = true) (t : String) :
    (s ++ t).toList.head?.any Char.isAlpha = true := by
  rw [String.toList_append]
  exact any_head_append h

/-- Clauses that begin with letters, joined by spaces and by line breaks. -/
theorem wraps_join {clauses : List String}
    (h : ∀ clause ∈ clauses, clause.toList.head?.any Char.isAlpha = true) :
    lineBreaks.Wraps (join " " clauses).toList (join "\n" clauses).toList := by
  induction clauses with
  | nil => exact .nil
  | cons first clauses ih =>
      rw [List.forall_mem_cons] at h
      cases clauses with
      | nil =>
          have hfirst := Likeness.Wraps.append (l := lineBreaks) .nil first.toList
          rwa [List.append_nil] at hfirst
      | cons second clauses =>
          have hhead : (join " " (second :: clauses)).toList.head?.any Char.isAlpha = true := by
            have hsecond := h.2 second List.mem_cons_self
            cases clauses with
            | nil => exact hsecond
            | cons third clauses =>
                rw [join, String.append_assoc]
                exact head_append hsecond _
          rw [join, join, String.append_assoc, String.append_assoc, String.toList_append,
            String.toList_append, String.toList_append, String.toList_append]
          have hbreak : lineBreaks.wrapped ' ' '\n' := ⟨rfl, rfl⟩
          exact (Likeness.Wraps.wrap hbreak hhead (ih h.2)).append first.toList

end Likeness

section Arranged

variable {clauses : List (Nat × String)}

/-- A written clause begins with a letter. -/
theorem Written.head {rank : Nat} {clause : List Char} (h : Written rank clause) :
    clause.head?.any Char.isAlpha = true := by
  obtain ⟨c, tail, hmask, hletter, -⟩ := h.masked.unobtrusive_tail
  have hhead : (mask clause).head? = clause.head? := head_mask clause
  rw [hmask] at hhead
  rw [← hhead]
  exact hletter

/-- Over several lines, too, no finding on arranged clauses is an error. -/
theorem Arranged.no_error_lines (h : Arranged clauses) :
    ∀ finding ∈ (validate (join "\n" (clauses.map Prod.snd))).findings,
      finding.severity ≠ .error := by
  have hletters : ∀ clause ∈ clauses.map Prod.snd,
      clause.toList.head?.any Char.isAlpha = true := by
    intro clause hclause
    obtain ⟨placed, hplaced, rfl⟩ := List.mem_map.mp hclause
    exact (h.written placed hplaced).head
  have hseverities :
      (validate (join " " (clauses.map Prod.snd))).findings.map Finding.severity =
        (validate (join "\n" (clauses.map Prod.snd))).findings.map Finding.severity := by
    rw [← List.forall₂_eq_eq_eq]
    exact List.rel_map (fun _ _ hsame => hsame.severity)
      (Likeness.findings_same Check.all (wraps_join hletters))
  intro finding hfinding
  have hmem : finding.severity ∈
      (validate (join " " (clauses.map Prod.snd))).findings.map Finding.severity := by
    rw [hseverities]
    exact List.mem_map_of_mem hfinding
  obtain ⟨other, hother, hsame⟩ := List.mem_map.mp hmem
  rw [← hsame]
  exact h.no_error other hother

end Arranged

namespace Draft

variable {draft : Draft} {query lines clause : String}

/-- A time clause begins with a letter. -/
theorem head_of_window {window : Window} (h : window.clause? = some clause) :
    clause.toList.head?.any Char.isAlpha = true := by
  cases Window.shows_of_clause h with
  | last => exact head_append (head_append (head_append (by decide) _) _) _
  | start => exact head_append (head_append (by decide) _) _
  | startStop => exact head_append (head_append (head_append (head_append (by decide) _) _) _) _

/-- Every clause begins with a letter. -/
theorem head_of_clause {table : Table} (h : clause ∈ draft.clausesFrom table) :
    clause.toList.head?.any Char.isAlpha = true := by
  simp only [clausesFrom, List.mem_append, List.mem_cons, List.not_mem_nil, or_false,
    Option.mem_toList] at h
  rcases h with ((((((rfl | rfl) | h) | h) | h) | h) | h) | h
  · exact head_append (by decide) _
  · exact head_append (by decide) _
  · obtain ⟨-, rfl⟩ := mem_list_clause_iff.mp h
    exact head_append (by decide) _
  · obtain ⟨-, rfl⟩ := mem_list_clause_iff.mp h
    exact head_append (by decide) _
  · obtain ⟨-, rfl⟩ := mem_list_clause_iff.mp h
    exact head_append (by decide) _
  · obtain ⟨sort, -, rfl⟩ := mem_order_clause h
    exact head_append (head_append (head_append (by decide) _) _) _
  · obtain ⟨limit, -, rfl⟩ := Option.map_eq_some_iff.mp h
    exact head_append (by decide) _
  · exact head_of_window h

/-- The formatted view of a query is validated like the query itself: the findings are the same, in
the same order, and their excerpts differ in line breaks only. -/
theorem validate_lines (h : draft.assemble = .ok query) (hlines : draft.assembleLines = .ok lines) :
    (validate lines).findings.map Finding.onOneLine =
      (validate query).findings.map Finding.onOneLine := by
  unfold assemble at h
  unfold assembleLines at hlines
  cases hclauses : draft.clauses with
  | error e =>
      rw [hclauses] at h
      cases h
  | ok clauses =>
      rw [hclauses] at h hlines
      obtain rfl := Except.ok.inj h
      obtain rfl := Except.ok.inj hlines
      obtain ⟨-, table, -, rfl⟩ := clauses_eq_ok_iff.mp hclauses
      have hletters : ∀ clause ∈ draft.clausesFrom table,
          clause.toList.head?.any Char.isAlpha = true := fun clause => head_of_clause
      have hwraps := wraps_join hletters
      have hfindings := Likeness.findings_same Check.all hwraps
      refine Eq.symm ?_
      rw [← List.forall₂_eq_eq_eq]
      refine List.rel_map ?_ hfindings
      exact fun _ _ => finding_on_one_line_eq

/-- A draft whose last clause is part of a literal without an end. -/
def openLiteral : Draft where
  table := some .events
  columns := ["foo(a)"]
  conditions := ["a = 'x"]
  groupBy := ["a"]

/-- The query is validated alike on one line and on four. -/
theorem validate_lines_open_literal : ∃ query lines,
    openLiteral.assemble = .ok query ∧ openLiteral.assembleLines = .ok lines ∧
      (validate lines).findings.length = 3 ∧
      (validate lines).findings.map Finding.onOneLine =
        (validate query).findings.map Finding.onOneLine := by
  have hquery : openLiteral.assemble =
      .ok (join " " (openLiteral.clausesFrom .events)) := rfl
  have hlines : openLiteral.assembleLines =
      .ok (join "\n" (openLiteral.clausesFrom .events)) := rfl
  refine ⟨_, _, hquery, hlines, ?_, validate_lines hquery hlines⟩
  decide +kernel

end Draft

end Ariel.Query
