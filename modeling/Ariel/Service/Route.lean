import Ariel.Service.Http

/-!
# Routes

The paths of the service. A route is found by its path alone; whether the method suits it is asked
afterwards. Fixed names come before names that a path may choose.
-/

namespace Ariel.Service

/-- What the service offers. Chosen names are given as they stand in the path. -/
inductive Route where
  | form
  | health
  | live
  | ready
  | build
  | validate
  | templates
  | templateCategories
  | templateSearch
  | template (name : List Char)
  | render (name : List Char)
  | fields (table : List Char)
  | functionCategories
  | functions (category : List Char)
  | operators
  | timeClauses
  deriving DecidableEq, Repr

namespace Route

/-- The route under the path of the interface. -/
def ofApiPath? : List (List Char) → Option Route
  | [part] =>
      match String.ofList part with
      | "build" => some .build
      | "validate" => some .validate
      | "templates" => some .templates
      | _ => none
  | [part, name] =>
      match String.ofList part, String.ofList name with
      | _, "" => none
      | "templates", "categories" => some .templateCategories
      | "templates", "search" => some .templateSearch
      | "templates", _ => some (.template name)
      | "reference", "functions" => some .functionCategories
      | "reference", "operators" => some .operators
      | "reference", "time-clauses" => some .timeClauses
      | _, _ => none
  | [part, name, last] =>
      match String.ofList part, String.ofList name, String.ofList last with
      | "templates", _, "render" => some (.render name)
      | "reference", _, "" => none
      | "reference", "fields", _ => some (.fields last)
      | "reference", "functions", _ => some (.functions last)
      | _, _, _ => none
  | _ => none

/-- The route of a path. -/
def ofPath? (path : List Char) : Option Route :=
  match (segments path).map String.ofList with
  | [""] => some .form
  | ["health"] => some .health
  | ["health", "live"] => some .live
  | ["health", "ready"] => some .ready
  | "api" :: "v1" :: _ => ofApiPath? ((segments path).drop 2)
  | _ => none

/-- Whether a route takes a body. -/
def takesBody : Route → Bool
  | .build | .validate | .render _ => true
  | _ => false

/-- Whether a route answers requests of a method. -/
def allows (route : Route) (method : String) : Bool :=
  if route.takesBody then method == "POST" else method == "GET" || method == "HEAD"

end Route

end Ariel.Service
