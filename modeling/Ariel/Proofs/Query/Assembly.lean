import Ariel.Proofs.Query.Acceptance
import Ariel.Proofs.Query.Written
import Ariel.Validation.Report

/-!
# Assembled queries are valid

A query that is assembled from fragments has a layout: its clauses are written ones, in their order.
Hence no check finds an error in it, which is `validate_assemble`.
-/

namespace Ariel.Query

open Ariel.Text Ariel.Validation

section Row

variable {clauses : List (Nat × List Char)}

/-- Clauses joined by spaces are a row, a space in front of them. -/
theorem row_eq_join {clauses : List (Nat × String)} (hne : clauses ≠ []) :
    ' ' :: (join " " (clauses.map Prod.snd)).toList =
      row (clauses.map fun clause => (clause.1, clause.2.toList)) := by
  induction clauses with
  | nil => exact absurd rfl hne
  | cons first clauses ih =>
      obtain ⟨rank, clause⟩ := first
      cases clauses with
      | nil =>
          show ' ' :: clause.toList = ' ' :: (clause.toList ++ [])
          rw [List.append_nil]
      | cons second clauses =>
          have hrow := ih (by simp)
          simp only [List.map_cons, join, String.toList_append, row] at hrow ⊢
          rw [← hrow, List.append_assoc]
          rfl

/-- A row of clauses with closed literals is masked clause by clause. -/
theorem mask_row (h : ∀ clause ∈ clauses, Even (clause.2.count '\'')) :
    mask (row clauses) = row (clauses.map fun clause => (clause.1, mask clause.2)) := by
  induction clauses with
  | nil => rfl
  | cons first clauses ih =>
      obtain ⟨rank, clause⟩ := first
      have hfirst : Even (clause.count '\'') := h (rank, clause) (by simp)
      have hclauses := ih fun other hother => h other (List.mem_cons_of_mem _ hother)
      have hspace : mask (' ' :: (clause ++ row clauses)) = ' ' :: mask (clause ++ row clauses) :=
        rfl
      rw [row, hspace, mask_append hfirst, hclauses]
      rfl

end Row

/-- Written clauses in their order, of which the first two cannot be missing and the fifth needs the
fourth. -/
structure Arranged (clauses : List (Nat × String)) : Prop where
  written : ∀ clause ∈ clauses, Written clause.1 clause.2.toList
  sorted : clauses.Pairwise fun earlier later => earlier.1 < later.1
  select : ∃ clause later, clauses = (0, clause) :: later
  source : ∃ clause, (1, clause) ∈ clauses
  groups : ∀ clause, (4, clause) ∈ clauses → ∃ groups, (3, groups) ∈ clauses

namespace Arranged

variable {clauses : List (Nat × String)}

/-- The mask of arranged clauses has a layout. -/
theorem layout (h : Arranged clauses) :
    Layout (mask (join " " (clauses.map Prod.snd)).toList)
      (clauses.map fun clause => (clause.1, mask clause.2.toList)) where
  row_eq := by
    have heven : ∀ clause ∈ clauses.map fun clause => (clause.1, clause.2.toList),
        Even (clause.2.count '\'') := by
      intro clause hclause
      obtain ⟨placed, hplaced, rfl⟩ := List.mem_map.mp hclause
      exact (h.written placed hplaced).closed.singleQuotes
    have hne : clauses ≠ [] := by
      obtain ⟨clause, later, rfl⟩ := h.select
      exact List.cons_ne_nil _ _
    -- A space in front changes nothing for a mask.
    show mask (' ' :: (join " " (clauses.map Prod.snd)).toList) = _
    rw [row_eq_join hne, mask_row heven, List.map_map]
    rfl
  masks := by
    intro clause hclause
    obtain ⟨placed, hplaced, rfl⟩ := List.mem_map.mp hclause
    exact (h.written placed hplaced).masked
  sorted := List.pairwise_map.mpr h.sorted
  select := by
    obtain ⟨clause, later, rfl⟩ := h.select
    exact ⟨_, _, rfl⟩
  source := by
    obtain ⟨clause, hclause⟩ := h.source
    exact ⟨_, List.mem_map_of_mem hclause⟩
  groups := by
    intro clause hclause
    obtain ⟨⟨rank, having⟩, hplaced, hpair⟩ := List.mem_map.mp hclause
    obtain ⟨rfl, -⟩ := Prod.mk.inj hpair
    obtain ⟨groups, hgroups⟩ := h.groups having hplaced
    exact ⟨_, List.mem_map_of_mem hgroups⟩

/-- Arranged clauses are closed when they are joined. -/
theorem closed (h : Arranged clauses) : Closed (join " " (clauses.map Prod.snd)).toList := by
  refine closed_join (by decide) (by decide) fun clause hclause => ?_
  obtain ⟨placed, hplaced, rfl⟩ := List.mem_map.mp hclause
  exact (h.written placed hplaced).closed

/-- No finding on arranged clauses is an error. -/
theorem no_error (h : Arranged clauses) :
    ∀ finding ∈ (validate (join " " (clauses.map Prod.snd))).findings,
      finding.severity ≠ .error := by
  intro finding hfinding
  obtain ⟨check, -, hremarks⟩ := List.mem_flatMap.mp hfinding
  obtain ⟨remark, hremark, rfl⟩ := List.mem_map.mp hremarks
  exact h.layout.no_error h.closed check remark hremark

end Arranged

namespace Draft

variable {draft : Draft} {query clause : String} {rank : Nat}

/-- The entries that are inserted into a query as they stand. -/
def entries (draft : Draft) : List String :=
  draft.columns ++ draft.conditions ++ draft.groupBy ++ draft.having
    ++ (draft.orderBy.map OrderBy.columns).getD []

/-- The clauses of a draft, each with its place in the order. -/
def placedClauses (draft : Draft) (table : Table) : List (Nat × String) :=
  [(0, "SELECT " ++ join ", " draft.columns), (1, "FROM " ++ table.name)]
    ++ (listClause "WHERE " " AND " draft.conditions).map (2, ·)
    ++ (listClause "GROUP BY " ", " draft.groupBy).map (3, ·)
    ++ (listClause "HAVING " " AND " draft.having).map (4, ·)
    ++ (orderClause draft.orderBy).map (5, ·)
    ++ (draft.limit.map fun limit => "LIMIT " ++ decimal limit.rows.toNat).toList.map (6, ·)
    ++ draft.window.clause?.toList.map (7, ·)

/-- Apart from their places, these are the clauses of the draft. -/
theorem placed_clauses_map_snd (draft : Draft) (table : Table) :
    (draft.placedClauses table).map Prod.snd = draft.clausesFrom table := by
  simp [placedClauses, clausesFrom, Function.comp_def]

/-- A list clause is there when it has items. -/
theorem mem_list_clause_iff {keyword separator : String} {items : List String} :
    clause ∈ listClause keyword separator items ↔
      items ≠ [] ∧ clause = keyword ++ join separator items := by
  cases items <;> simp [listClause]

/-- The clause of the sort order is there when it has columns. -/
theorem mem_order_clause {order : Option OrderBy} (h : clause ∈ orderClause order) :
    ∃ sort ∈ order, clause =
      "ORDER BY " ++ join ", " sort.columns ++ " " ++ sort.direction.keyword := by
  cases order with
  | none => cases h
  | some sort =>
      obtain ⟨columns, direction⟩ := sort
      cases columns with
      | nil => cases h
      | cons column columns => exact ⟨_, rfl, List.mem_singleton.mp h⟩

/-- The clauses of a draft that is made of fragments are written ones. -/
theorem written_of_mem_placed (hentries : ∀ entry ∈ draft.entries, Fragment entry.toList)
    {table : Table} (h : (rank, clause) ∈ draft.placedClauses table) :
    Written rank clause.toList := by
  simp only [entries, List.mem_append] at hentries
  simp only [placedClauses, List.mem_append, List.mem_cons, List.mem_map, List.not_mem_nil,
    or_false, Prod.mk.injEq, Option.mem_toList] at h
  rcases h with ((((((⟨rfl, rfl⟩ | ⟨rfl, rfl⟩) | ⟨_, h, rfl, rfl⟩) | ⟨_, h, rfl, rfl⟩) |
    ⟨_, h, rfl, rfl⟩) | ⟨_, h, rfl, rfl⟩) | ⟨_, h, rfl, rfl⟩) | ⟨_, h, rfl, rfl⟩
  · exact written_list (by decide) separator_comma
      (fun entry hentry => hentries entry (by simp [hentry])) .select
  · exact written_source table
  · obtain ⟨-, rfl⟩ := mem_list_clause_iff.mp h
    exact written_list (by decide) separator_and
      (fun entry hentry => hentries entry (by simp [hentry])) .conditions
  · obtain ⟨-, rfl⟩ := mem_list_clause_iff.mp h
    exact written_list (by decide) separator_comma
      (fun entry hentry => hentries entry (by simp [hentry])) .groups
  · obtain ⟨-, rfl⟩ := mem_list_clause_iff.mp h
    exact written_list (by decide) separator_and
      (fun entry hentry => hentries entry (by simp [hentry])) .groupConditions
  · obtain ⟨sort, hsort, rfl⟩ := mem_order_clause h
    rw [Option.mem_def] at hsort
    exact written_order (fun entry hentry => hentries entry (by simp [hsort, hentry])) _
  · obtain ⟨limit, -, rfl⟩ := Option.map_eq_some_iff.mp h
    exact written_limit limit
  · exact written_window h

/-- The clauses of a draft stand in their order. -/
theorem sorted_placed_clauses (draft : Draft) (table : Table) :
    (draft.placedClauses table).Pairwise fun earlier later => earlier.1 < later.1 := by
  -- There is at most one clause at each place, so the places are some of all places in order.
  have hone : ∀ {rank : Nat} {clauses : List String}, clauses.length ≤ 1 →
      List.Sublist (clauses.map fun _ => rank) [rank] := by
    intro rank clauses hlength
    match clauses, hlength with
    | [], _ => exact List.nil_sublist _
    | [_], _ => exact List.Sublist.refl _
  have hlist : ∀ {keyword separator : String} {items : List String},
      (listClause keyword separator items).length ≤ 1 := by
    intro keyword separator items
    cases items <;> simp [listClause]
  have horder : (orderClause draft.orderBy).length ≤ 1 := by
    unfold orderClause
    split
    · simp
    · split <;> simp
  have hoption : ∀ {clause : Option String}, clause.toList.length ≤ 1 := by
    intro clause
    cases clause <;> simp
  have hplaces : List.Sublist ((draft.placedClauses table).map Prod.fst)
      ([0, 1] ++ [2] ++ [3] ++ [4] ++ [5] ++ [6] ++ [7]) := by
    simp only [placedClauses, List.map_append, List.map_map, Function.comp_def]
    exact ((((((List.Sublist.refl _).append (hone hlist)).append (hone hlist)).append
      (hone hlist)).append (hone horder)).append (hone hoption)).append (hone hoption)
  exact List.pairwise_map.mp (List.Pairwise.sublist hplaces (by decide))

/-- The fifth place is that of the group conditions, and the fourth that of the groups. -/
theorem mem_placed_having {table : Table} :
    (4, clause) ∈ draft.placedClauses table ↔
      clause ∈ listClause "HAVING " " AND " draft.having := by
  simp [placedClauses]

theorem mem_placed_groups {table : Table} :
    (3, clause) ∈ draft.placedClauses table ↔
      clause ∈ listClause "GROUP BY " ", " draft.groupBy := by
  simp [placedClauses]

/-- The clauses of a draft that is made of fragments are arranged. -/
theorem arranged_placed_clauses (hentries : ∀ entry ∈ draft.entries, Fragment entry.toList)
    (hgroups : draft.having ≠ [] → draft.groupBy ≠ []) (table : Table) :
    Arranged (draft.placedClauses table) where
  written _ hclause := written_of_mem_placed hentries hclause
  sorted := draft.sorted_placed_clauses table
  select := ⟨_, _, rfl⟩
  source := ⟨_, List.mem_cons_of_mem _ List.mem_cons_self⟩
  groups := by
    intro clause hclause
    obtain ⟨hhaving, -⟩ := mem_list_clause_iff.mp (mem_placed_having.mp hclause)
    exact ⟨_, mem_placed_groups.mpr (mem_list_clause_iff.mpr ⟨hgroups hhaving, rfl⟩)⟩

/-- An assembled query is made of the clauses of its draft, joined by spaces. -/
theorem exists_table_of_assemble (h : draft.assemble = .ok query) :
    ∃ table, query = join " " (draft.clausesFrom table) := by
  unfold assemble clauses at h
  split at h
  · cases h
  · cases h
  next table _ _ => exact ⟨table, (Except.ok.inj h).symm⟩

/-- What is assembled is valid: when every entry of a draft is a fragment and its group conditions
come with groups, no finding on its query is an error, whatever its table, its limit, its direction
and its time window are. -/
theorem validate_assemble (h : draft.assemble = .ok query)
    (hentries : ∀ entry ∈ draft.entries, Fragment entry.toList)
    (hgroups : draft.having ≠ [] → draft.groupBy ≠ []) :
    ∀ finding ∈ (validate query).findings, finding.severity ≠ .error := by
  obtain ⟨table, rfl⟩ := exists_table_of_assemble h
  rw [← placed_clauses_map_snd]
  exact (arranged_placed_clauses hentries hgroups table).no_error

/-- A draft with every clause; a keyword and an opening parenthesis stand in a literal. -/
def frequentSources : Draft where
  table := some .events
  columns := ["sourceip", "COUNT(*) AS \"last hits\""]
  conditions := ["username = 'from (x'", "NOT (magnitude <= 3 OR qid=5)"]
  groupBy := ["sourceip"]
  having := ["COUNT(*) > 10"]
  orderBy := some ⟨["COUNT(*)"], .descending⟩
  limit := RowLimit.ofWord? 10
  window := .absolute " 2024-01-01 00:00" (some "2024-01-02 00:00:00")

/-- The query with every clause is valid. -/
theorem validate_assemble_frequent_sources : ∃ query,
    frequentSources.assemble = .ok query ∧
      (∀ entry ∈ frequentSources.entries, Fragment entry.toList) ∧
      (frequentSources.having ≠ [] → frequentSources.groupBy ≠ []) ∧
      ∀ finding ∈ (validate query).findings, finding.severity ≠ .error := by
  have hquery : frequentSources.assemble =
      .ok (join " " (frequentSources.clausesFrom .events)) := rfl
  have hentries : ∀ entry ∈ frequentSources.entries, Fragment entry.toList := by decide +kernel
  have hgroups : frequentSources.having ≠ [] → frequentSources.groupBy ≠ [] := by decide
  exact ⟨_, hquery, hentries, hgroups, validate_assemble hquery hentries hgroups⟩

end Draft

end Ariel.Query
