import Ariel.Proofs.Query.Assembly
import Ariel.Proofs.Query.Draft
import Ariel.Proofs.Query.Window.RoundTrip

/-!
# Edited drafts

A draft is edited in place, or in a chain that goes on whatever its links find. `Edit` lists the
edits of both kinds, and `Edit.Fails` says when one of them fails. Each edit keeps a draft well
formed (`WellFormed.perform`), and so does a run of edits (`WellFormed.after_all`). What is
assembled from an edited draft is made of neat items and neat clauses
(`edits_keep_well_formed`).
-/

namespace Ariel.Query.Draft

open Ariel.Text

/-- An edit of a draft. The last three are links of a chain: predicates that are passed over when
they are blank, and a limit that zero removes. The other links are edits in place that never
fail. -/
inductive Edit where
  | setTable (table : Table)
  | setColumns (columns : List String)
  | addColumn (column : String)
  | addCondition (condition : String)
  | removeCondition (index : Nat)
  | clearConditions
  | setGroupBy (columns : List String)
  | addHaving (condition : String)
  | removeHaving (index : Nat)
  | clearHaving
  | setOrderBy (columns : List String) (direction : Direction)
  | clearOrderBy
  | setLimit (rows : UInt32)
  | clearLimit
  | setWindow (window : Window)
  | reset
  | filter (condition : String)
  | filterGroups (condition : String)
  | withLimit (rows : UInt32)
  deriving DecidableEq, Repr

/-- The draft that an edit makes of another one, unless it fails. -/
def perform? (draft : Draft) : Edit → Option Draft
  | .setTable table => some (draft.setTable table)
  | .setColumns columns => some (draft.setColumns columns)
  | .addColumn column => draft.addColumn? column
  | .addCondition condition => draft.addCondition? condition
  | .removeCondition index => (draft.removeCondition? index).map Prod.snd
  | .clearConditions => some draft.clearConditions
  | .setGroupBy columns => some (draft.setGroupBy columns)
  | .addHaving condition => draft.addHaving? condition
  | .removeHaving index => (draft.removeHaving? index).map Prod.snd
  | .clearHaving => some draft.clearHaving
  | .setOrderBy columns direction => some (draft.setOrderBy columns direction)
  | .clearOrderBy => some draft.clearOrderBy
  | .setLimit rows => (draft.setLimit rows).toOption
  | .clearLimit => some draft.clearLimit
  | .setWindow window => some (draft.setWindow window)
  | .reset => some .empty
  | .filter condition => some (draft.filter condition)
  | .filterGroups condition => some (draft.filterGroups condition)
  | .withLimit rows => some (draft.withLimit rows)

/-- The draft after an edit. An edit that fails leaves the draft as it is. -/
def after (draft : Draft) (edit : Edit) : Draft :=
  (draft.perform? edit).getD draft

/-- The draft after some edits. -/
def afterAll (draft : Draft) (edits : List Edit) : Draft :=
  edits.foldl after draft

/-- A draft to begin with: an empty one, or one that reads from a table. -/
def initial : Option Table → Draft
  | none => .empty
  | some table => .ofTable table

/-- The edits that fail: blank additions, removals past the end, and a limit of no rows. -/
inductive Edit.Fails (draft : Draft) : Edit → Prop where
  | blankColumn {column} : allBlank column = true → Fails draft (.addColumn column)
  | blankCondition {condition} : allBlank condition = true → Fails draft (.addCondition condition)
  | blankHaving {condition} : allBlank condition = true → Fails draft (.addHaving condition)
  | noCondition {index} : draft.conditions.length ≤ index → Fails draft (.removeCondition index)
  | noHaving {index} : draft.having.length ≤ index → Fails draft (.removeHaving index)
  | noRows : Fails draft (.setLimit 0)

/-- A draft whose entries are neat, whose sort order has columns, and whose limit allows rows. -/
structure WellFormed (draft : Draft) : Prop extends draft.Neat where
  limit : ∀ limit ∈ draft.limit, 1 ≤ limit.rows.toNat

/-- A clause of a draft with the items that are joined in it. -/
inductive Makes (draft : Draft) : String → List String → Prop where
  | columns : Makes draft ("SELECT " ++ join ", " draft.columns) draft.columns
  | table {table} : draft.table = some table → Makes draft ("FROM " ++ table.name) [table.name]
  | conditions : draft.conditions ≠ [] →
      Makes draft ("WHERE " ++ join " AND " draft.conditions) draft.conditions
  | groupBy : draft.groupBy ≠ [] → Makes draft ("GROUP BY " ++ join ", " draft.groupBy) draft.groupBy
  | having : draft.having ≠ [] →
      Makes draft ("HAVING " ++ join " AND " draft.having) draft.having
  | orderBy {order} : draft.orderBy = some order →
      Makes draft ("ORDER BY " ++ join ", " order.columns ++ " " ++ order.direction.keyword)
        order.columns
  | limit {limit} : draft.limit = some limit →
      Makes draft ("LIMIT " ++ decimal limit.rows.toNat) [decimal limit.rows.toNat]
  | window {clause} : draft.window.clause? = some clause → Makes draft clause [clause]

variable {draft edited : Draft} {edit : Edit} {edits : List Edit} {clause : String}
  {items : List String}

section Failure

/-- An entry is not added exactly when it is blank. -/
theorem add_tidy_eq_none_iff {entries : List String} {entry : String} :
    addTidy? entries entry = none ↔ allBlank entry = true := by
  simp [addTidy?, is_empty_trim]

/-- An entry is not removed exactly when its index is past the end. -/
theorem remove_at_eq_none_iff {entries : List String} {index : Nat} :
    removeAt? entries index = none ↔ entries.length ≤ index := by
  simp [removeAt?]

/-- No limit is made of no rows. -/
theorem limit_of_word_eq_none_iff {rows : UInt32} : RowLimit.ofWord? rows = none ↔ rows = 0 := by
  simp [RowLimit.ofWord?]

/-- A limit is set exactly when it is one of rows. -/
theorem to_option_set_limit (draft : Draft) (rows : UInt32) :
    (draft.setLimit rows).toOption =
      (RowLimit.ofWord? rows).map fun limit => { draft with limit := some limit } := by
  unfold setLimit
  cases RowLimit.ofWord? rows <;> rfl

/-- `Fails` says which edits fail. -/
theorem perform_eq_none_iff : draft.perform? edit = none ↔ edit.Fails draft := by
  constructor
  · intro h
    cases edit with
    | addColumn column =>
        rw [perform?, addColumn?, Option.map_eq_none_iff, add_tidy_eq_none_iff] at h
        exact .blankColumn h
    | addCondition condition =>
        rw [perform?, addCondition?, Option.map_eq_none_iff, add_tidy_eq_none_iff] at h
        exact .blankCondition h
    | addHaving condition =>
        rw [perform?, addHaving?, Option.map_eq_none_iff, add_tidy_eq_none_iff] at h
        exact .blankHaving h
    | removeCondition index =>
        rw [perform?, removeCondition?, Option.map_map, Option.map_eq_none_iff,
          remove_at_eq_none_iff] at h
        exact .noCondition h
    | removeHaving index =>
        rw [perform?, removeHaving?, Option.map_map, Option.map_eq_none_iff,
          remove_at_eq_none_iff] at h
        exact .noHaving h
    | setLimit rows =>
        rw [perform?, to_option_set_limit, Option.map_eq_none_iff, limit_of_word_eq_none_iff] at h
        subst h
        exact .noRows
    | _ => cases h
  · intro h
    cases h with
    | blankColumn hblank =>
        rwa [perform?, addColumn?, Option.map_eq_none_iff, add_tidy_eq_none_iff]
    | blankCondition hblank =>
        rwa [perform?, addCondition?, Option.map_eq_none_iff, add_tidy_eq_none_iff]
    | blankHaving hblank =>
        rwa [perform?, addHaving?, Option.map_eq_none_iff, add_tidy_eq_none_iff]
    | noCondition hend =>
        rwa [perform?, removeCondition?, Option.map_map, Option.map_eq_none_iff,
          remove_at_eq_none_iff]
    | noHaving hend =>
        rwa [perform?, removeHaving?, Option.map_map, Option.map_eq_none_iff,
          remove_at_eq_none_iff]
    | noRows => rfl

/-- An edit that fails leaves the draft as it is. -/
theorem after_of_fails (h : edit.Fails draft) : draft.after edit = draft := by
  rw [after, perform_eq_none_iff.mpr h, Option.getD_none]

/-- A chain goes on with what an addition in place leaves. -/
theorem after_filter (draft : Draft) (condition : String) :
    draft.after (.filter condition) = draft.after (.addCondition condition) := by
  simp only [after, perform?, Draft.filter, Option.getD_some]

theorem after_filter_groups (draft : Draft) (condition : String) :
    draft.after (.filterGroups condition) = draft.after (.addHaving condition) := by
  simp only [after, perform?, Draft.filterGroups, Option.getD_some]

end Failure

section Step

/-- A draft to begin with is well formed. -/
theorem well_formed_initial (table : Option Table) : (initial table).WellFormed := by
  cases table with
  | none => exact { columns := nofun, conditions := nofun, groupBy := nofun, having := nofun,
                    orderBy := nofun, limit := nofun }
  | some table => exact { columns := nofun, conditions := nofun, groupBy := nofun,
                          having := nofun, orderBy := nofun, limit := nofun }

theorem WellFormed.add_condition (h : draft.WellFormed) {condition : String}
    (hadd : draft.addCondition? condition = some edited) : edited.WellFormed := by
  obtain ⟨conditions, hconditions, rfl⟩ := Option.map_eq_some_iff.mp hadd
  exact { h with conditions := neat_of_add h.conditions hconditions }

theorem WellFormed.add_having (h : draft.WellFormed) {condition : String}
    (hadd : draft.addHaving? condition = some edited) : edited.WellFormed := by
  obtain ⟨having, hhaving, rfl⟩ := Option.map_eq_some_iff.mp hadd
  exact { h with having := neat_of_add h.having hhaving }

theorem WellFormed.set_order_by (h : draft.WellFormed) (columns : List String)
    (direction : Direction) : (draft.setOrderBy columns direction).WellFormed := by
  unfold setOrderBy
  split
  next => exact { h with orderBy := nofun }
  next hne =>
    refine { h with orderBy := fun order horder => ?_ }
    obtain rfl := Option.some.inj horder
    exact ⟨hne, fun _ => neat_of_mem_tidy⟩

/-- Every edit that does not fail keeps a draft well formed. -/
theorem WellFormed.perform (h : draft.WellFormed) (hedit : draft.perform? edit = some edited) :
    edited.WellFormed := by
  cases edit with
  | addColumn column =>
      obtain ⟨columns, hcolumns, rfl⟩ := Option.map_eq_some_iff.mp hedit
      exact { h with columns := neat_of_add h.columns hcolumns }
  | addCondition condition => exact h.add_condition hedit
  | addHaving condition => exact h.add_having hedit
  | removeCondition index =>
      obtain ⟨⟨removed, _⟩, hremove, rfl⟩ := Option.map_eq_some_iff.mp hedit
      obtain ⟨⟨_, conditions⟩, hconditions, heq⟩ := Option.map_eq_some_iff.mp hremove
      obtain ⟨rfl, rfl⟩ := Prod.mk.inj heq
      exact { h with conditions := neat_of_remove h.conditions hconditions }
  | removeHaving index =>
      obtain ⟨⟨removed, _⟩, hremove, rfl⟩ := Option.map_eq_some_iff.mp hedit
      obtain ⟨⟨_, having⟩, hhaving, heq⟩ := Option.map_eq_some_iff.mp hremove
      obtain ⟨rfl, rfl⟩ := Prod.mk.inj heq
      exact { h with having := neat_of_remove h.having hhaving }
  | setLimit rows =>
      rw [perform?, to_option_set_limit] at hedit
      obtain ⟨limit, -, rfl⟩ := Option.map_eq_some_iff.mp hedit
      exact { h with limit := fun limit _ => row_limit_pos limit }
  | filter condition =>
      obtain rfl := Option.some.inj hedit
      unfold Draft.filter
      cases hadd : draft.addCondition? condition with
      | none => exact h
      | some edited => exact h.add_condition hadd
  | filterGroups condition =>
      obtain rfl := Option.some.inj hedit
      unfold Draft.filterGroups
      cases hadd : draft.addHaving? condition with
      | none => exact h
      | some edited => exact h.add_having hadd
  | setTable table => obtain rfl := Option.some.inj hedit; exact { h with }
  | setColumns columns =>
      obtain rfl := Option.some.inj hedit
      exact { h with columns := fun _ => neat_of_mem_tidy }
  | setGroupBy columns =>
      obtain rfl := Option.some.inj hedit
      exact { h with groupBy := fun _ => neat_of_mem_tidy }
  | setOrderBy columns direction =>
      obtain rfl := Option.some.inj hedit
      exact h.set_order_by columns direction
  | withLimit rows =>
      obtain rfl := Option.some.inj hedit
      exact { h with limit := fun limit _ => row_limit_pos limit }
  | clearConditions => obtain rfl := Option.some.inj hedit; exact { h with conditions := nofun }
  | clearHaving => obtain rfl := Option.some.inj hedit; exact { h with having := nofun }
  | clearOrderBy => obtain rfl := Option.some.inj hedit; exact { h with orderBy := nofun }
  | clearLimit => obtain rfl := Option.some.inj hedit; exact { h with limit := nofun }
  | setWindow window => obtain rfl := Option.some.inj hedit; exact { h with }
  | reset => obtain rfl := Option.some.inj hedit; exact well_formed_initial none

/-- An edit keeps a draft well formed, whether it fails or not. -/
theorem WellFormed.after (h : draft.WellFormed) (edit : Edit) : (draft.after edit).WellFormed := by
  unfold Draft.after
  cases hedit : draft.perform? edit with
  | none => exact h
  | some edited => exact h.perform hedit

/-- Edits keep a draft well formed. -/
theorem WellFormed.after_all (h : draft.WellFormed) (edits : List Edit) :
    (draft.afterAll edits).WellFormed := by
  induction edits generalizing draft with
  | nil => exact h
  | cons edit edits ih => exact ih (h.after edit)

end Step

section Assembly

/-- Neat items make a neat text when they are joined. -/
theorem neat_join {separator : String} (hne : items ≠ []) (h : ∀ item ∈ items, NeatText item) :
    NeatText (join separator items) := by
  induction items with
  | nil => exact absurd rfl hne
  | cons item items ih =>
      rw [List.forall_mem_cons] at h
      cases items with
      | nil => exact h.1
      | cons next items =>
          rw [join]
          refine neat_append ?_ (ih (by simp) h.2)
          rw [String.toList_append]
          exact any_head_append (neat_iff_ends.mp h.1).1

/-- A number is neat. -/
theorem neat_decimal (n : Nat) : NeatText (decimal n) := by
  have hfirst := List.head_mem (decimal_ne_nil n)
  have hlast := List.getLast_mem (decimal_ne_nil n)
  rw [neat_iff_ends, List.head?_eq_some_head (decimal_ne_nil n),
    List.getLast?_eq_some_getLast (decimal_ne_nil n)]
  simp [is_blank_of_digit (is_digit_of_decimal hfirst),
    is_blank_of_digit (is_digit_of_decimal hlast)]

/-- The clause of a window is neat. -/
theorem neat_of_window {window : Window} (h : window.clause? = some clause) : NeatText clause := by
  have htrimmed := Window.trimmed_clause h
  refine ⟨String.toList_inj.mp (by rw [to_list_trim, htrimmed]), ?_⟩
  rw [Bool.eq_false_iff, Ne, all_blank_iff, htrimmed]
  cases Window.shows_of_clause h with
  | last => simp
  | start => simp
  | startStop => simp

/-- A well formed draft is complete exactly when it has a table and columns. -/
theorem WellFormed.missing_eq_none_iff (h : draft.WellFormed) :
    draft.missing? = none ↔ draft.table.isSome = true ∧ draft.columns ≠ [] := by
  rw [Draft.missing_eq_none_iff]
  refine and_congr_right fun _ => ⟨?_, fun hne => ?_⟩
  · rintro ⟨column, hcolumn, -⟩
    exact List.ne_nil_of_mem hcolumn
  · obtain ⟨column, hcolumn⟩ := List.exists_mem_of_ne_nil _ hne
    exact ⟨column, hcolumn, (h.columns column hcolumn).filled⟩

/-- Every clause of a draft is made of items. -/
theorem exists_makes {table : Table} (htable : draft.table = some table)
    (h : clause ∈ draft.clausesFrom table) : ∃ items, draft.Makes clause items := by
  simp only [clausesFrom, List.mem_append, List.mem_cons, List.not_mem_nil, or_false,
    Option.mem_toList] at h
  rcases h with ((((((rfl | rfl) | h) | h) | h) | h) | h) | h
  · exact ⟨_, .columns⟩
  · exact ⟨_, .table htable⟩
  · obtain ⟨hne, rfl⟩ := mem_list_clause_iff.mp h
    exact ⟨_, .conditions hne⟩
  · obtain ⟨hne, rfl⟩ := mem_list_clause_iff.mp h
    exact ⟨_, .groupBy hne⟩
  · obtain ⟨hne, rfl⟩ := mem_list_clause_iff.mp h
    exact ⟨_, .having hne⟩
  · obtain ⟨order, horder, rfl⟩ := mem_order_clause h
    exact ⟨_, .orderBy horder⟩
  · obtain ⟨limit, hlimit, rfl⟩ := Option.map_eq_some_iff.mp h
    exact ⟨_, .limit hlimit⟩
  · exact ⟨_, .window h⟩

/-- The items of a clause are neat, and there are some. -/
theorem WellFormed.neat_items (h : draft.WellFormed) (hcolumns : draft.columns ≠ [])
    (hmakes : draft.Makes clause items) : items ≠ [] ∧ ∀ item ∈ items, NeatText item := by
  cases hmakes with
  | columns => exact ⟨hcolumns, h.columns⟩
  | @table table _ =>
      refine ⟨by simp, ?_⟩
      rw [List.forall_mem_singleton, neat_iff_ends]
      cases table <;> decide
  | conditions hne => exact ⟨hne, h.conditions⟩
  | groupBy hne => exact ⟨hne, h.groupBy⟩
  | having hne => exact ⟨hne, h.having⟩
  | orderBy horder => exact h.orderBy _ horder
  | limit _ => exact ⟨by simp, by simpa using neat_decimal _⟩
  | window hclause => exact ⟨by simp, by simpa using neat_of_window hclause⟩

/-- A clause of neat items is neat. -/
theorem Makes.neat (hmakes : draft.Makes clause items) (hne : items ≠ [])
    (hitems : ∀ item ∈ items, NeatText item) : NeatText clause := by
  cases hmakes with
  | columns => exact neat_append (by decide) (neat_join hne hitems)
  | table _ => exact neat_append (by decide) (hitems _ (by simp))
  | conditions _ => exact neat_append (by decide) (neat_join hne hitems)
  | groupBy _ => exact neat_append (by decide) (neat_join hne hitems)
  | having _ => exact neat_append (by decide) (neat_join hne hitems)
  | @orderBy order _ =>
      have hdirection : NeatText order.direction.keyword := by
        rw [neat_iff_ends]
        cases order.direction <;> decide
      refine neat_append ?_ hdirection
      rw [String.toList_append, String.toList_append]
      exact any_head_append (any_head_append (by decide))
  | limit _ => exact neat_append (by decide) (hitems _ (by simp))
  | window _ => exact hitems _ (by simp)

end Assembly

/-- Whatever a draft begins with and however it is edited, it stays well formed. An edit fails in
the cases that `Fails` lists and changes nothing then, and a chain passes over blank predicates.
The draft is complete exactly when it has a table and columns, and each of its clauses is neat and
joins neat items. -/
theorem edits_keep_well_formed (table : Option Table) (edits : List Edit) :
    let draft := (initial table).afterAll edits
    draft.WellFormed ∧
      (∀ edit : Edit, (draft.perform? edit = none ↔ edit.Fails draft) ∧
        (edit.Fails draft → draft.after edit = draft)) ∧
      (∀ text, allBlank text = true →
        draft.after (.filter text) = draft ∧ draft.after (.filterGroups text) = draft) ∧
      (draft.missing? = none ↔ draft.table.isSome = true ∧ draft.columns ≠ []) ∧
      ∀ clauses, draft.clauses = .ok clauses → ∀ clause ∈ clauses,
        NeatText clause ∧ ∃ items, draft.Makes clause items ∧ items ≠ [] ∧
          ∀ item ∈ items, NeatText item := by
  intro draft
  have hdraft : draft.WellFormed := (well_formed_initial table).after_all edits
  refine ⟨hdraft, fun edit => ⟨perform_eq_none_iff, after_of_fails⟩, fun text hblank => ⟨?_, ?_⟩,
    hdraft.missing_eq_none_iff, fun clauses hclauses clause hclause => ?_⟩
  · rw [after_filter, after_of_fails (.blankCondition hblank)]
  · rw [after_filter_groups, after_of_fails (.blankHaving hblank)]
  · obtain ⟨hcomplete, table, htable, rfl⟩ := clauses_eq_ok_iff.mp hclauses
    obtain ⟨items, hmakes⟩ := exists_makes htable hclause
    have hcolumns := (hdraft.missing_eq_none_iff.mp hcomplete).2
    have hitems := hdraft.neat_items hcolumns hmakes
    exact ⟨hmakes.neat hitems.1 hitems.2, items, hmakes, hitems⟩

/-- Edits of every kind, some of which fail or are passed over. -/
def mixedEdits : List Edit :=
  [.addColumn " sourceip ", .addColumn "  ", .setLimit 0, .filter "a = 1 ", .filterGroups "  ",
    .withLimit 5, .removeCondition 3]

/-- The edited draft has four neat clauses. -/
theorem edits_keep_well_formed_mixed :
    let draft := (initial (some .flows)).afterAll mixedEdits
    let clauses := ["SELECT sourceip", "FROM flows", "WHERE a = 1", "LIMIT 5"]
    draft.clauses = .ok clauses ∧ (∀ clause ∈ clauses, NeatText clause) ∧
      draft.after (.setLimit 0) = draft ∧ draft.after (.filterGroups "  ") = draft := by
  intro draft clauses
  have hclauses : draft.clauses = .ok clauses := by decide +kernel
  obtain ⟨-, hfails, hblank, -, hneat⟩ := edits_keep_well_formed (some .flows) mixedEdits
  exact ⟨hclauses, fun clause hclause => (hneat clauses hclauses clause hclause).1,
    (hfails _).2 .noRows, (hblank "  " (by decide)).2⟩

end Ariel.Query.Draft
