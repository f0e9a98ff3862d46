import Mathlib.Data.List.Nodup
import Ariel.Proofs.Query.Draft
import Ariel.Proofs.Query.TimeRange
import Ariel.Proofs.Query.Window.RoundTrip

/-!
# Reading drafts back

A query with one clause a line still shows the draft that it was assembled from: the first letters
of a line say which clause it is, items are told apart by their commas or by the word AND, and the
time clause runs from its keyword to the end. `ofLines` reads a draft in this way, and
`of_lines_assemble` says that it gives back every `Legible` draft. So different drafts have
different queries (`assemble_lines_injective`).
-/

namespace Ariel.Query

open Ariel.Text

section Items

variable {items : List String} {mark c : Char} {cs : List Char}

/-- Read the items of a list, a comma and a space between each two. -/
def listItems (cs : List Char) : List String :=
  match cs.splitOn ',' with
  | [] => []
  | first :: others => (first :: others.map List.tail).map String.ofList

/-- Read the predicates of a conjunction, the word AND between each two. -/
def conjuncts (cs : List Char) : List String :=
  ((cs.splitOn ' ').splitOn "AND".toList).map fun words =>
    String.ofList ([' '].intercalate words)

/-- A character that is no mark belongs to the first piece. -/
theorem split_on_cons_ne (h : c ≠ mark) (cs : List Char) :
    ∃ piece pieces, cs.splitOn mark = piece :: pieces ∧
      (c :: cs).splitOn mark = (c :: piece) :: pieces := by
  obtain ⟨piece, pieces, hpieces⟩ := List.exists_cons_of_ne_nil (List.splitOn_ne_nil mark cs)
  refine ⟨piece, pieces, hpieces, ?_⟩
  rw [List.splitOn_cons_eq_if_modifyHead, if_neg (by simpa using h), hpieces]
  rfl

/-- Lines are told apart by their line breaks. -/
theorem split_on_join_line_break (hne : items ≠ []) :
    (join "\n" items).toList.splitOn '\n' = items.flatMap (·.toList.splitOn '\n') := by
  induction items with
  | nil => exact absurd rfl hne
  | cons item items ih =>
      cases items with
      | nil => simp [join]
      | cons next items =>
          have hlines : (join "\n" (item :: next :: items)).toList =
              item.toList ++ '\n' :: (join "\n" (next :: items)).toList := by
            simp [join, String.toList_append]
          rw [hlines, List.splitOn_append_cons_self, ih (by simp)]
          rfl

/-- Behind each comma of a list stands a space. -/
theorem split_on_join_comma (hne : items ≠ []) (h : ∀ item ∈ items, ',' ∉ item.toList) :
    ∃ first others, items = first :: others ∧ (join ", " items).toList.splitOn ',' =
      first.toList :: others.map (fun item => ' ' :: item.toList) := by
  induction items with
  | nil => exact absurd rfl hne
  | cons item items ih =>
      rw [List.forall_mem_cons] at h
      refine ⟨item, items, rfl, ?_⟩
      cases items with
      | nil => exact List.splitOn_eq_singleton h.1
      | cons next items =>
          obtain ⟨first, others, hitems, hsplit⟩ := ih (by simp) h.2
          obtain ⟨rfl, rfl⟩ := List.cons.inj hitems
          obtain ⟨piece, pieces, hpieces, hcons⟩ :=
            split_on_cons_ne (show ' ' ≠ ',' by decide) (join ", " (next :: items)).toList
          obtain ⟨rfl, rfl⟩ := List.cons.inj (hpieces.symm.trans hsplit)
          have hlist : (join ", " (item :: next :: items)).toList =
              item.toList ++ ',' :: ' ' :: (join ", " (next :: items)).toList := by
            simp [join, String.toList_append]
          rw [hlist, List.splitOn_append_cons_self_of_not_mem h.1, hcons]
          rfl

/-- The items of a list are read back, when they hold no commas. -/
theorem list_items_join (hne : items ≠ []) (h : ∀ item ∈ items, ',' ∉ item.toList) :
    listItems (join ", " items).toList = items := by
  obtain ⟨first, others, rfl, hsplit⟩ := split_on_join_comma hne h
  simp [listItems, hsplit, Function.comp_def]

/-- The words of a conjunction are those of its predicates, and the AND between each two. -/
theorem split_on_join_and (hne : items ≠ []) :
    (join " AND " items).toList.splitOn ' ' =
      ["AND".toList].intercalate (items.map (·.toList.splitOn ' ')) := by
  induction items with
  | nil => exact absurd rfl hne
  | cons item items ih =>
      cases items with
      | nil => simp [join]
      | cons next items =>
          have hwords : (join " AND " (item :: next :: items)).toList =
              item.toList ++ ' ' :: ("AND".toList ++ ' ' ::
                (join " AND " (next :: items)).toList) := by
            simp [join, String.toList_append]
          have hand : "AND".toList.splitOn ' ' = ["AND".toList] := by decide
          rw [hwords, List.splitOn_append_cons_self, List.splitOn_append_cons_self, hand,
            ih (by simp)]
          simp [List.intercalate]

/-- The predicates of a conjunction are read back, when AND is no word in them. -/
theorem conjuncts_join (hne : items ≠ [])
    (h : ∀ item ∈ items, "AND".toList ∉ item.toList.splitOn ' ') :
    conjuncts (join " AND " items).toList = items := by
  have hwords : ∀ words ∈ items.map (·.toList.splitOn ' '), "AND".toList ∉ words := by
    intro words hmem
    obtain ⟨item, hitem, rfl⟩ := List.mem_map.mp hmem
    exact h item hitem
  rw [conjuncts, split_on_join_and hne, List.splitOn_intercalate _ hwords (by simpa using hne),
    List.map_map]
  simp [Function.comp_def, List.intercalate_splitOn]

end Items

/-- Read a sort order, its direction behind the last space. -/
def sortOrder? (cs : List Char) : Option OrderBy :=
  let words := cs.splitOn ' '
  (Direction.ofKeyword (String.ofList (words.getLastD []))).toOption.map fun direction =>
    ⟨listItems ([' '].intercalate words.dropLast), direction⟩

/-- A sort order is read back, when its columns hold no commas. -/
theorem sort_order_of_clause {order : OrderBy} (hne : order.columns ≠ [])
    (h : ∀ column ∈ order.columns, ',' ∉ column.toList) :
    sortOrder? (join ", " order.columns ++ " " ++ order.direction.keyword).toList =
      some order := by
  have hkeyword : order.direction.keyword.toList.splitOn ' ' =
      [order.direction.keyword.toList] := by
    cases order.direction <;> decide
  have hdirection : (Direction.ofKeyword order.direction.keyword).toOption =
      some order.direction := by
    cases order.direction <;> decide
  have hwords : (join ", " order.columns ++ " " ++ order.direction.keyword).toList.splitOn ' ' =
      (join ", " order.columns).toList.splitOn ' ' ++ [order.direction.keyword.toList] := by
    rw [← hkeyword, ← List.splitOn_append_cons_self]
    simp [String.toList_append]
  simp only [sortOrder?, hwords]
  simp [hdirection, List.intercalate_splitOn, list_items_join hne h]

namespace Draft

/-- The place of the clause that a line begins, by its first letters. -/
def placeOf : List Char → Nat
  | 'S' :: 'E' :: _ => 0
  | 'F' :: _ => 1
  | 'W' :: _ => 2
  | 'G' :: _ => 3
  | 'H' :: _ => 4
  | 'O' :: _ => 5
  | 'L' :: 'I' :: _ => 6
  | _ => 7

/-- What stands behind the keyword of the clause at a place. -/
def bodyAt? (lines : List (List Char)) (place : Nat) (keyword : String) : Option (List Char) :=
  (lines.find? (placeOf · == place)).map (·.drop keyword.length)

/-- Read a draft from its query. The time clause may hold line breaks. -/
def ofLines (text : String) : Draft :=
  let lines := text.toList.splitOn '\n'
  let front := lines.takeWhile (placeOf · != 7)
  let back := lines.dropWhile (placeOf · != 7)
  { table := (bodyAt? front 1 "FROM ").bind fun name => (Table.ofName (String.ofList name)).toOption
    columns := ((bodyAt? front 0 "SELECT ").map listItems).getD []
    conditions := ((bodyAt? front 2 "WHERE ").map conjuncts).getD []
    groupBy := ((bodyAt? front 3 "GROUP BY ").map listItems).getD []
    having := ((bodyAt? front 4 "HAVING ").map conjuncts).getD []
    orderBy := (bodyAt? front 5 "ORDER BY ").bind sortOrder?
    limit := (bodyAt? front 6 "LIMIT ").bind fun digits =>
      RowLimit.ofWord? (UInt32.ofNat (digitsValue digits))
    window := (Window.parse (String.ofList (['\n'].intercalate back))).toOption.getD .unbounded }

/-- A draft whose entries can be told apart in its query. -/
structure Legible (draft : Draft) : Prop extends draft.Neat where
  table : draft.table.isSome = true
  filled : draft.columns ≠ []
  unbroken : ∀ entry ∈ draft.entries, '\n' ∉ entry.toList
  unlisted : ∀ column ∈ draft.columns ++ draft.groupBy ++
    (draft.orderBy.map OrderBy.columns).getD [], ',' ∉ column.toList
  unjoined : ∀ condition ∈ draft.conditions ++ draft.having,
    "AND".toList ∉ condition.toList.splitOn ' '
  sound : draft.window.check = .ok ()
  trimmed : draft.window.normal = draft.window

variable {draft other : Draft} {table : Table} {clause keyword separator : String} {rank : Nat}
  {items clauses : List String}

section Clauses

/-- A time clause begins with the letters of no other clause. -/
theorem place_of_window {window : Window} (h : window.clause? = some clause) :
    ∃ first second cs, clause.toList = first :: second :: cs ∧ first ≠ '\n' ∧ second ≠ '\n' ∧
      ∀ cs, placeOf (first :: second :: cs) = 7 := by
  cases Window.shows_of_clause h with
  | @last amount unit _ =>
      exact ⟨'L', 'A', ("ST " ++ decimal amount.toNat ++ " " ++ unit.keyword).toList,
        by simp [String.toList_append], by decide, by decide, fun _ => rfl⟩
  | @start start _ _ _ =>
      exact ⟨'S', 'T', ("ART '" ++ trim start ++ "'").toList, by simp [String.toList_append],
        by decide, by decide, fun _ => rfl⟩
  | @startStop start bound _ _ _ _ =>
      exact ⟨'S', 'T', ("ART '" ++ trim start ++ "' STOP '" ++ trim bound ++ "'").toList,
        by simp [String.toList_append], by decide, by decide, fun _ => rfl⟩

/-- The first letters of a clause show its place. -/
theorem place_of_placed (h : (rank, clause) ∈ draft.placedClauses table) :
    placeOf clause.toList = rank := by
  simp only [placedClauses, List.mem_append, List.mem_cons, List.mem_map, List.not_mem_nil,
    or_false, Prod.mk.injEq, Option.mem_toList] at h
  rcases h with ((((((⟨rfl, rfl⟩ | ⟨rfl, rfl⟩) | ⟨_, h, rfl, rfl⟩) | ⟨_, h, rfl, rfl⟩) |
    ⟨_, h, rfl, rfl⟩) | ⟨_, h, rfl, rfl⟩) | ⟨_, h, rfl, rfl⟩) | ⟨_, h, rfl, rfl⟩
  · rw [String.toList_append]
    rfl
  · rw [String.toList_append]
    rfl
  · obtain ⟨-, rfl⟩ := mem_list_clause_iff.mp h
    rw [String.toList_append]
    rfl
  · obtain ⟨-, rfl⟩ := mem_list_clause_iff.mp h
    rw [String.toList_append]
    rfl
  · obtain ⟨-, rfl⟩ := mem_list_clause_iff.mp h
    rw [String.toList_append]
    rfl
  · obtain ⟨sort, -, rfl⟩ := mem_order_clause h
    rw [String.append_assoc, String.append_assoc, String.toList_append]
    rfl
  · obtain ⟨limit, -, rfl⟩ := Option.map_eq_some_iff.mp h
    rw [String.toList_append]
    rfl
  · obtain ⟨first, second, cs, hclause, -, -, hplace⟩ := place_of_window h
    rw [hclause, hplace]

/-- At each place stands one clause at most. -/
theorem placed_unique (h : (rank, clause) ∈ draft.placedClauses table) {clause' : String}
    (h' : (rank, clause') ∈ draft.placedClauses table) : clause = clause' := by
  have hnodup : ((draft.placedClauses table).map Prod.fst).Nodup :=
    List.pairwise_map.mpr ((draft.sorted_placed_clauses table).imp fun hlt => Nat.ne_of_lt hlt)
  exact (Prod.mk.inj (List.inj_on_of_nodup_map hnodup h h' rfl)).2

/-- A clause is found by its first letters. -/
theorem body_at_place (clauses : List String)
    (h : ∀ clause, (rank, clause) ∈ draft.placedClauses table ↔ clause ∈ clauses) :
    bodyAt? ((draft.clausesFrom table).map String.toList) rank keyword =
      clauses.head?.map fun clause => clause.toList.drop keyword.length := by
  unfold bodyAt?
  rw [← placed_clauses_map_snd]
  cases hfind : (((draft.placedClauses table).map Prod.snd).map String.toList).find?
      (placeOf · == rank) with
  | none =>
      cases clauses with
      | nil => rfl
      | cons clause clauses =>
          have hplaced := (h clause).mpr List.mem_cons_self
          have hline : clause.toList ∈
              ((draft.placedClauses table).map Prod.snd).map String.toList :=
            List.mem_map_of_mem (List.mem_map.mpr ⟨_, hplaced, rfl⟩)
          exact absurd (by simpa using place_of_placed hplaced)
            (List.find?_eq_none.mp hfind _ hline)
  | some line =>
      have hplace : placeOf line = rank := by simpa using List.find?_some hfind
      obtain ⟨clause, hclause, rfl⟩ := List.mem_map.mp (List.mem_of_find?_eq_some hfind)
      obtain ⟨⟨rank', clause⟩, hplaced, rfl⟩ := List.mem_map.mp hclause
      obtain rfl : rank' = rank := (place_of_placed hplaced).symm.trans hplace
      cases clauses with
      | nil => exact absurd ((h clause).mp hplaced) (by simp)
      | cons first clauses =>
          rw [placed_unique hplaced ((h first).mpr List.mem_cons_self)]
          rfl

/-- What stands behind a keyword. -/
theorem drop_keyword (keyword s : String) :
    (keyword ++ s).toList.drop keyword.length = s.toList := by
  rw [String.toList_append, ← String.length_toList, List.drop_left]

/-- What stands behind the keyword of a list clause. -/
theorem body_of_list_clause :
    ((listClause keyword separator items).head?.map fun clause =>
        clause.toList.drop keyword.length) =
      if items = [] then none else some (join separator items).toList := by
  cases items with
  | nil => rfl
  | cons item items =>
      show some ((keyword ++ join separator (item :: items)).toList.drop keyword.length) = _
      rw [drop_keyword, if_neg (List.cons_ne_nil _ _)]

end Clauses

/-- The lines in front of the time clause. -/
def frontLines (draft : Draft) (table : Table) : List (List Char) :=
  ((draft.setWindow .unbounded).clausesFrom table).map String.toList

section Fields

theorem mem_placed_columns (hne : draft.columns ≠ []) :
    (0, clause) ∈ draft.placedClauses table ↔
      clause ∈ listClause "SELECT " ", " draft.columns := by
  simp [placedClauses, mem_list_clause_iff, hne]

theorem mem_placed_conditions : (2, clause) ∈ draft.placedClauses table ↔
    clause ∈ listClause "WHERE " " AND " draft.conditions := by
  simp [placedClauses]

/-- The items of a list clause are read back, when the text that joins them is. -/
theorem read_list {read : List Char → List String}
    (hplaced : ∀ clause, (rank, clause) ∈ (draft.setWindow .unbounded).placedClauses table ↔
      clause ∈ listClause keyword separator items)
    (hread : items ≠ [] → read (join separator items).toList = items) :
    ((bodyAt? (draft.frontLines table) rank keyword).map read).getD [] = items := by
  rw [frontLines, body_at_place _ hplaced, body_of_list_clause]
  split
  next hnil => rw [hnil]; rfl
  next hne => rw [Option.map_some, Option.getD_some, hread hne]

/-- The table is read back. -/
theorem read_table (draft : Draft) (table : Table) :
    ((bodyAt? (draft.frontLines table) 1 "FROM ").bind fun name =>
      (Table.ofName (String.ofList name)).toOption) = some table := by
  have hname : (Table.ofName table.name).toOption = some table := by
    cases table <;> decide
  rw [frontLines, body_at_place ["FROM " ++ table.name] (by simp [placedClauses]),
    List.head?_cons, Option.map_some, drop_keyword, Option.bind_some, String.ofList_toList, hname]

/-- The sort order is read back. -/
theorem read_sort_order (hne : ∀ order ∈ draft.orderBy, order.columns ≠ [])
    (hcommas : ∀ order ∈ draft.orderBy, ∀ column ∈ order.columns, ',' ∉ column.toList) :
    (bodyAt? (draft.frontLines table) 5 "ORDER BY ").bind sortOrder? = draft.orderBy := by
  rw [frontLines, body_at_place (orderClause draft.orderBy) (by simp [placedClauses, setWindow])]
  cases horder : draft.orderBy with
  | none => rfl
  | some order =>
      obtain ⟨column, columns, hcolumns⟩ := List.exists_cons_of_ne_nil (hne order horder)
      have hclause : orderClause (some order) =
          ["ORDER BY " ++ (join ", " order.columns ++ " " ++ order.direction.keyword)] := by
        simp only [orderClause, hcolumns, String.append_assoc]
      rw [hclause, List.head?_cons, Option.map_some, drop_keyword, Option.bind_some,
        sort_order_of_clause (hne order horder) (hcommas order horder)]

/-- The limit is read back. -/
theorem read_limit (draft : Draft) (table : Table) :
    ((bodyAt? (draft.frontLines table) 6 "LIMIT ").bind fun digits =>
      RowLimit.ofWord? (UInt32.ofNat (digitsValue digits))) = draft.limit := by
  rw [frontLines, body_at_place
    (draft.limit.map fun limit => "LIMIT " ++ decimal limit.rows.toNat).toList
    (by simp [placedClauses, setWindow])]
  cases draft.limit with
  | none => rfl
  | some limit =>
      show (some (("LIMIT " ++ decimal limit.rows.toNat).toList.drop "LIMIT ".length)).bind _ = _
      rw [drop_keyword, Option.bind_some, digits_value_decimal, UInt32.ofNat_toNat]
      exact dif_pos limit.positive

end Fields

section Lines

/-- A character that stands in no separator and in no item is not in the joined text. -/
theorem not_mem_join {c : Char} (hseparator : c ∉ separator.toList)
    (hitems : ∀ item ∈ items, c ∉ item.toList) : c ∉ (join separator items).toList := by
  induction items with
  | nil => exact List.not_mem_nil
  | cons item items ih =>
      rw [List.forall_mem_cons] at hitems
      cases items with
      | nil => exact hitems.1
      | cons next items =>
          rw [join, String.toList_append, String.toList_append, List.mem_append, List.mem_append,
            not_or, not_or]
          exact ⟨⟨hitems.1, hseparator⟩, ih hitems.2⟩

/-- The lines in front of the time clause show their places, and none is its. -/
theorem place_of_front {line : List Char} (h : line ∈ draft.frontLines table) :
    placeOf line ≠ 7 := by
  obtain ⟨clause, hclause, rfl⟩ := List.mem_map.mp h
  rw [← placed_clauses_map_snd] at hclause
  obtain ⟨⟨rank, clause⟩, hplaced, rfl⟩ := List.mem_map.mp hclause
  rw [place_of_placed hplaced]
  rintro rfl
  have hnone : Window.unbounded.clause? = none := rfl
  simp [placedClauses, setWindow, hnone] at hplaced

/-- No line break stands in front of the time clause. -/
theorem unbroken_of_front (hentries : ∀ entry ∈ draft.entries, '\n' ∉ entry.toList)
    (h : clause ∈ (draft.setWindow .unbounded).clausesFrom table) : '\n' ∉ clause.toList := by
  have hjoin : ∀ items : List String, (∀ item ∈ items, item ∈ draft.entries) →
      ∀ separator : String, '\n' ∉ separator.toList → '\n' ∉ (join separator items).toList :=
    fun items hsub separator hseparator =>
      not_mem_join hseparator fun item hitem => hentries item (hsub item hitem)
  have hlist : ∀ {keyword separator : String} {items : List String},
      clause ∈ listClause keyword separator items → '\n' ∉ keyword.toList →
        '\n' ∉ separator.toList → (∀ item ∈ items, item ∈ draft.entries) →
          '\n' ∉ clause.toList := by
    intro keyword separator items h hkeyword hseparator hsub
    obtain ⟨-, rfl⟩ := mem_list_clause_iff.mp h
    rw [String.toList_append, List.mem_append, not_or]
    exact ⟨hkeyword, hjoin items hsub separator hseparator⟩
  simp only [clausesFrom, setWindow, List.mem_append, List.mem_cons, List.not_mem_nil, or_false,
    Option.mem_toList] at h
  rcases h with ((((((rfl | rfl) | h) | h) | h) | h) | h) | h
  · rw [String.toList_append, List.mem_append, not_or]
    exact ⟨by decide, hjoin _ (by simp +contextual [entries]) _ (by decide)⟩
  · rw [String.toList_append, List.mem_append, not_or]
    exact ⟨by decide, by cases table <;> decide⟩
  · exact hlist h (by decide) (by decide) (by simp +contextual [entries])
  · exact hlist h (by decide) (by decide) (by simp +contextual [entries])
  · exact hlist h (by decide) (by decide) (by simp +contextual [entries])
  · obtain ⟨order, horder, rfl⟩ := mem_order_clause h
    rw [Option.mem_def] at horder
    simp only [String.toList_append, List.mem_append, not_or]
    exact ⟨⟨⟨by decide, hjoin _ (by simp +contextual [entries, horder]) _ (by decide)⟩,
      by decide⟩, by cases order.direction <;> decide⟩
  · obtain ⟨limit, -, rfl⟩ := Option.map_eq_some_iff.mp h
    rw [String.toList_append, List.mem_append, not_or]
    exact ⟨by decide, fun hbreak => absurd (is_digit_of_decimal hbreak) (by decide)⟩
  · cases h

/-- The lines of a draft: one for each clause in front of the time clause, and those of the time
clause. -/
theorem split_on_lines (hentries : ∀ entry ∈ draft.entries, '\n' ∉ entry.toList) :
    (join "\n" (draft.clausesFrom table)).toList.splitOn '\n' =
      draft.frontLines table ++ draft.window.clause?.toList.flatMap (·.toList.splitOn '\n') := by
  have hfront : ((draft.setWindow .unbounded).clausesFrom table).flatMap
      (·.toList.splitOn '\n') = draft.frontLines table := by
    rw [frontLines, ← List.flatMap_pure_eq_map]
    exact List.flatMap_congr fun clause hclause =>
      List.splitOn_eq_singleton (unbroken_of_front hentries hclause)
  have hclauses := clauses_from_set_window draft table draft.window
  rw [show draft.setWindow draft.window = draft from rfl] at hclauses
  rw [split_on_join_line_break (by simp [clausesFrom]), hclauses, List.flatMap_append, hfront]

/-- The time clause is told apart from the lines in front of it. -/
theorem time_lines (window : Window) :
    (∀ line ∈ (window.clause?.toList.flatMap (·.toList.splitOn '\n')).head?,
      (placeOf line != 7) = false) ∧
    ['\n'].intercalate (window.clause?.toList.flatMap (·.toList.splitOn '\n')) =
      (window.clause?.map String.toList).getD [] := by
  cases hclause : window.clause? with
  | none => exact ⟨nofun, rfl⟩
  | some clause =>
      obtain ⟨first, second, cs, hletters, hfirst, hsecond, hplace⟩ := place_of_window hclause
      rw [Option.toList_some, List.flatMap_singleton]
      refine ⟨fun line hline => ?_, List.intercalate_splitOn _⟩
      obtain ⟨piece, pieces, hpieces, hcons⟩ := split_on_cons_ne hsecond cs
      obtain ⟨piece', pieces', hpieces', hcons'⟩ := split_on_cons_ne hfirst (second :: cs)
      obtain ⟨rfl, rfl⟩ := List.cons.inj (hpieces'.symm.trans hcons)
      rw [hletters, hcons'] at hline
      obtain rfl := Option.some.inj hline
      simp [hplace]

/-- The window is read back. -/
theorem read_window {window : Window} (hsound : window.check = .ok ())
    (htrimmed : window.normal = window) :
    (Window.parse (String.ofList ((window.clause?.map String.toList).getD []))).toOption.getD
      .unbounded = window := by
  by_cases hne : window = .unbounded
  · subst hne
    rfl
  · obtain ⟨text, hclause, hparse⟩ := Window.parse_clause (Window.check_eq_ok_iff.mp hsound) hne
    rw [hclause, Option.map_some, Option.getD_some, String.ofList_toList, hparse, htrimmed]
    rfl

end Lines

/-- A legible draft is read back from its query. -/
theorem of_lines_clauses (h : draft.Legible) (htable : draft.table = some table) :
    ofLines (join "\n" (draft.clausesFrom table)) = draft := by
  have hfront : ∀ line ∈ draft.frontLines table, (placeOf line != 7) = true := fun line hline => by
    simpa using place_of_front hline
  obtain ⟨hhead, htime⟩ := time_lines draft.window
  have hcolumns : ∀ column ∈ draft.columns, ',' ∉ column.toList := fun column hcolumn =>
    h.unlisted column (by simp [hcolumn])
  have hgroups : ∀ column ∈ draft.groupBy, ',' ∉ column.toList := fun column hcolumn =>
    h.unlisted column (by simp [hcolumn])
  have hsorts : ∀ order ∈ draft.orderBy, ∀ column ∈ order.columns, ',' ∉ column.toList := by
    intro order horder column hcolumn
    rw [Option.mem_def] at horder
    exact h.unlisted column (by simp [horder, hcolumn])
  have hconditions : ∀ condition ∈ draft.conditions, "AND".toList ∉ condition.toList.splitOn ' ' :=
    fun condition hcondition => h.unjoined condition (by simp [hcondition])
  have hhaving : ∀ condition ∈ draft.having, "AND".toList ∉ condition.toList.splitOn ' ' :=
    fun condition hcondition => h.unjoined condition (by simp [hcondition])
  rw [ofLines, split_on_lines h.unbroken, take_while_append hfront hhead,
    drop_while_append hfront hhead, htime, read_window h.sound h.trimmed, read_table, read_limit,
    read_sort_order (fun order horder => (h.orderBy order horder).1) hsorts, ← htable,
    read_list (fun _ => mem_placed_columns h.filled) fun hne => list_items_join hne hcolumns,
    read_list (fun _ => mem_placed_conditions) fun hne => conjuncts_join hne hconditions,
    read_list (fun _ => mem_placed_groups) fun hne => list_items_join hne hgroups,
    read_list (fun _ => mem_placed_having) fun hne => conjuncts_join hne hhaving]
  rfl

/-- A legible draft is assembled, and read back from its lines. -/
theorem of_lines_assemble (h : draft.Legible) :
    ∃ text, draft.assembleLines = .ok text ∧ ofLines text = draft := by
  obtain ⟨column, hcolumn⟩ := List.exists_mem_of_ne_nil _ h.filled
  have hcomplete : draft.missing? = none :=
    missing_eq_none_iff.mpr ⟨h.table, column, hcolumn, (h.columns column hcolumn).filled⟩
  obtain ⟨table, htable, -, hlines⟩ := assemble_of_complete hcomplete
  exact ⟨_, hlines, of_lines_clauses h htable⟩

/-- Different drafts have different queries: legible drafts that are assembled to the same lines are
the same draft, with the same table, the same entries in the same order, and the same sort order,
limit and window. -/
theorem assemble_lines_injective (h : draft.Legible) (hother : other.Legible)
    (heq : draft.assembleLines = other.assembleLines) : draft = other := by
  obtain ⟨text, htext, hdraft⟩ := of_lines_assemble h
  obtain ⟨text', htext', hother⟩ := of_lines_assemble hother
  rw [htext, htext'] at heq
  rw [← hdraft, ← hother, Except.ok.inj heq]

/-- Predicates with commas, and with AND at the end of a literal. -/
def quoted : Draft where
  table := some .flows
  columns := ["sourceip", "COUNT(*)"]
  conditions := ["note = 'A AND'", "qid IN (1, 2)"]
  groupBy := ["sourceip"]
  having := ["COUNT(*) > 10"]
  orderBy := some ⟨["COUNT(*)", "sourceip DESC"], .ascending⟩
  limit := RowLimit.ofWord? 10
  window := .absolute "2024-01-01 00:00" (some "2024-01-02 00:00:00")

/-- The same draft, chosen step by step. -/
def quotedInSteps : Draft :=
  let draft := (ofTable .flows).setColumns [" sourceip", "", "COUNT(*) "]
  let draft := ["note = 'A AND'", " ", "qid IN (1, 2)"].foldl filter draft
  let draft := draft.setGroupBy ["sourceip "]
  let draft := (draft.filterGroups "COUNT(*) > 10 ").setOrderBy ["COUNT(*)", " sourceip DESC"]
    .ascending
  (draft.withLimit 10).setWindow (.absolute "2024-01-01 00:00" (some "2024-01-02 00:00:00"))

/-- Both have the same lines, so both are the same draft. -/
theorem assemble_lines_injective_quoted :
    quoted.Legible ∧ quotedInSteps.Legible ∧
      quoted.assembleLines = quotedInSteps.assembleLines ∧ quoted = quotedInSteps := by
  have hquoted : quoted.Legible := by
    constructor
    · constructor <;> decide +kernel
    all_goals decide +kernel
  have hsteps : quotedInSteps.Legible := by
    constructor
    · constructor <;> decide +kernel
    all_goals decide +kernel
  have hlines : quoted.assembleLines = quotedInSteps.assembleLines := by decide +kernel
  exact ⟨hquoted, hsteps, hlines, assemble_lines_injective hquoted hsteps hlines⟩

end Draft

end Ariel.Query
