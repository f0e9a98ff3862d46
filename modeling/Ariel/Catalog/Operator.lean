import Ariel.Json.Value
import Ariel.Text.Ascii
import Ariel.Text.Blank

/-!
# Operators

The operators of predicates, by group.
-/

namespace Ariel.Catalog

open Ariel.Text

/-- An operator, with an example of its use where one helps. -/
structure Operator where
  name : String
  example? : Option String
  description : String
  deriving DecidableEq, Repr

/-- The groups of operators. -/
inductive OperatorGroup where
  | comparison
  | string
  | logical
  deriving DecidableEq, Repr

namespace OperatorGroup

/-- Every group, in display order. -/
def all : List OperatorGroup := [.comparison, .string, .logical]

/-- The name of a group. -/
def name : OperatorGroup → String
  | .comparison => "comparison"
  | .string => "string"
  | .logical => "logical"

/-- The group with a name, in any ASCII letter case and with blanks around it. -/
def ofName? (text : String) : Option OperatorGroup :=
  all.find? fun group => sameIgnoringCase group.name (trim text)

end OperatorGroup

/-- Operators that compare values. -/
def comparisonOperators : List Operator := [
  ⟨"=", some "sourceip = '192.168.1.1'", "Equal to"⟩,
  ⟨"!=", none, "Not equal to"⟩,
  ⟨"<>", none, "Not equal to (alternate)"⟩,
  ⟨"<", none, "Less than"⟩,
  ⟨">", none, "Greater than"⟩,
  ⟨"<=", none, "Less than or equal to"⟩,
  ⟨">=", some "magnitude >= 7 AND severity > 5", "Greater than or equal to"⟩,
  ⟨"BETWEEN", some "eventcount BETWEEN 10 AND 100",
    "Between two values. Syntax: field BETWEEN value1 AND value2"⟩,
  ⟨"IN", some "sourceport IN (22, 23, 3389)",
    "In a list of values. Syntax: field IN (value1, value2, ...)"⟩,
  ⟨"IS NULL", none, "Is null value"⟩,
  ⟨"IS NOT NULL", some "username IS NOT NULL", "Is not null value"⟩]

/-- Operators that match texts. -/
def stringOperators : List Operator := [
  ⟨"LIKE", some "username LIKE 'admin%'",
    "Pattern matching (case-sensitive). Wildcards: % (any chars), _ (single char)"⟩,
  ⟨"ILIKE", some "payload ILIKE '%error%'",
    "Pattern matching (case-insensitive). Same wildcards as LIKE"⟩,
  ⟨"MATCHES", some "sourceip MATCHES '192\\.168\\..*'",
    "Regular expression matching (case-sensitive)"⟩,
  ⟨"IMATCHES", none, "Regular expression matching (case-insensitive)"⟩]

/-- Operators that join conditions. -/
def logicalOperators : List Operator := [
  ⟨"AND", none, "Both conditions must be true"⟩,
  ⟨"OR", none, "Either condition must be true"⟩,
  ⟨"NOT", none, "Negates the condition"⟩]

/-- The operators of a group. -/
def OperatorGroup.operators : OperatorGroup → List Operator
  | .comparison => comparisonOperators
  | .string => stringOperators
  | .logical => logicalOperators

/-- Every operator, group by group. -/
def operators : List Operator :=
  OperatorGroup.all.flatMap OperatorGroup.operators

/-- An operator as a record, without the example where there is none. -/
def Operator.toJson (operator : Operator) : Json :=
  .object ([("name", .string operator.name), ("description", .string operator.description)]
    ++ (operator.example?.map fun text => ("example", Json.string text)).toList)

end Ariel.Catalog
