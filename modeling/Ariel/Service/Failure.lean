import Ariel.Json.Value
import Ariel.Query.Error

/-!
# Failures of the service

Why a request is not answered as asked, with the status, the code and the wording that it gets
instead.
-/

namespace Ariel.Service

open Ariel.Query

/-- Why a request fails. -/
inductive Failure where
  | validation (reason : String)
  | notFound (what : String)
  | query (error : QueryError)
  | internal (reason : String)
  | inputOutput (reason : String)
  deriving DecidableEq, Repr

namespace Failure

/-- The wording of a failure. -/
def message : Failure → String
  | .validation reason => "Validation error: " ++ reason
  | .notFound what => "Not found: " ++ what
  | .query error => "Query error: " ++ error.message
  | .internal reason => "Internal error: " ++ reason
  | .inputOutput reason => "IO error: " ++ reason

/-- The status of a failure. -/
def status : Failure → Nat
  | .validation _ | .query _ => 400
  | .notFound _ => 404
  | .internal _ | .inputOutput _ => 500

/-- The code of a failure, for programs. -/
def code : Failure → String
  | .validation _ => "VALIDATION_ERROR"
  | .notFound _ => "NOT_FOUND"
  | .query (.incompleteDraft _) => "INCOMPLETE_DRAFT"
  | .query (.invalidLimit _) => "INVALID_LIMIT"
  | .query (.invalidTimeWindow _) => "INVALID_TIME_WINDOW"
  | .query _ => "QUERY_ERROR"
  | .internal _ => "INTERNAL_ERROR"
  | .inputOutput _ => "IO_ERROR"

/-- What a failed request is answered with. -/
def toJson (failure : Failure) : Json :=
  .object [("error", .object [("code", .string failure.code),
    ("message", .string failure.message)])]

end Failure

end Ariel.Service
