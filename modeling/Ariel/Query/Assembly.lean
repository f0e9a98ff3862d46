import Ariel.Query.Draft
import Ariel.Text.Joined

/-!
# Assembling queries

A complete draft becomes a query whose clauses stand in a fixed order: SELECT, FROM, WHERE, GROUP
BY, HAVING, ORDER BY, LIMIT and the time clause. Clauses without content are left out, and what was
chosen is inserted as it stands.
-/

namespace Ariel.Query.Draft

open Ariel.Text

/-- A clause of joined items, when there are any. -/
def listClause (keyword separator : String) : List String → List String
  | [] => []
  | items => [keyword ++ join separator items]

/-- The sort order as a clause, when it has columns. -/
def orderClause : Option OrderBy → List String
  | none => []
  | some order =>
      match order.columns with
      | [] => []
      | columns => ["ORDER BY " ++ join ", " columns ++ " " ++ order.direction.keyword]

/-- The clauses of a draft that reads from the given table. -/
def clausesFrom (draft : Draft) (table : Table) : List String :=
  ["SELECT " ++ join ", " draft.columns, "FROM " ++ table.name]
    ++ listClause "WHERE " " AND " draft.conditions
    ++ listClause "GROUP BY " ", " draft.groupBy
    ++ listClause "HAVING " " AND " draft.having
    ++ orderClause draft.orderBy
    ++ (draft.limit.map fun limit => "LIMIT " ++ decimal limit.rows.toNat).toList
    ++ draft.window.clause?.toList

/-- The clauses of a draft, in order. -/
def clauses (draft : Draft) : Except QueryError (List String) :=
  match draft.missing?, draft.table with
  | some part, _ => .error (.incompleteDraft part)
  | none, none => .error (.incompleteDraft .table)
  | none, some table => .ok (draft.clausesFrom table)

/-- The query on a single line. -/
def assemble (draft : Draft) : Except QueryError String :=
  draft.clauses.map (join " ")

/-- The query with one clause a line. -/
def assembleLines (draft : Draft) : Except QueryError String :=
  draft.clauses.map (join "\n")

end Ariel.Query.Draft
