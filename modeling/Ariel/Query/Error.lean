/-!
# What can be wrong with a query

The faults met while a query is put together, and their wording.
-/

namespace Ariel.Query

/-- The parts a draft must have before it becomes a query. -/
inductive RequiredPart where
  | table
  | columns
  deriving DecidableEq, Repr

/-- The name of a required part. -/
def RequiredPart.name : RequiredPart → String
  | .table => "table"
  | .columns => "columns"

/-- Why a query or one of its parts is refused. Where several causes share a kind, `reason` says
which one it is. -/
inductive QueryError where
  | incompleteDraft (part : RequiredPart)
  | invalidLimit (reason : String)
  | invalidTimeWindow (reason : String)
  | unknownTable (name : String)
  | unknownTimeUnit (name : String)
  | invalidCondition (reason : String)
  deriving DecidableEq, Repr

/-- The wording of an error. -/
def QueryError.message : QueryError → String
  | .incompleteDraft part =>
      "Incomplete draft: " ++ part.name ++ " must be set before the query can be assembled"
  | .invalidLimit reason => "Invalid limit: " ++ reason
  | .invalidTimeWindow reason => "Invalid time window: " ++ reason
  | .unknownTable name => "Unknown table '" ++ name ++ "'. Use 'events' or 'flows'"
  | .unknownTimeUnit name => "Unknown time unit '" ++ name ++ "'. Use MINUTES, HOURS or DAYS"
  | .invalidCondition reason => "Invalid condition: " ++ reason

end Ariel.Query
