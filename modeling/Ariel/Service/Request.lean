import Ariel.Json.Reader
import Ariel.Query.Record
import Ariel.Query.Selection
import Ariel.Query.Window.Parser
import Ariel.Service.Failure

/-!
# What requests ask for

The bodies of requests: a query to build, a query to validate, a template to render. A time range is
given as a structured window or as a time clause, not as both.
-/

namespace Ariel.Service

open Ariel.Query Ariel.Json

/-- The time range that a request asks for. -/
structure TimeRequest where
  window : Option Window := none
  text : Option String := none
  deriving DecidableEq, Repr

/-- The window asked for, when the request is sound. A blank time clause asks for none. -/
def TimeRequest.toWindow (time : TimeRequest) : Except Failure Window :=
  match time.window, time.text with
  | some _, some _ => .error (.validation "use either time_window or time, not both")
  | some window, none => (window.check.map fun _ => window).mapError .query
  | none, some text =>
      if Text.allBlank text then .ok .unbounded else (Window.parse text).mapError .query
  | none, none => .ok .unbounded

/-- A query to build. -/
structure BuildRequest where
  selection : Selection := {}
  time : TimeRequest := {}
  deriving DecidableEq, Repr

/-- The draft that a request describes. A limit of no rows is reported before any fault of the time
range. -/
def BuildRequest.toDraft (request : BuildRequest) (defaults : BuilderSettings) :
    Except Failure Draft := do
  let draft ← (request.selection.toDraft defaults).mapError .query
  let window ← request.time.toWindow
  pure (draft.setWindow window)

/-- A template to render. -/
structure RenderRequest where
  values : List (String × String) := []
  time : TimeRequest := {}
  deriving DecidableEq, Repr

namespace Body

open Reader

/-- How deeply values inside the structured window of a request may be nested. -/
def windowDepth : Nat := nestingLimit - 2

/-- Read a structured window. -/
def window : Reader Window :=
  tagged "kind" ["none", "relative", "absolute"] windowDepth Window.ofJson?

/-- The fields of a time range, within a larger record. -/
def timeFields {ρ : Type} (update : (TimeRequest → TimeRequest) → ρ → ρ) : List (RecordField ρ) := [
  field ["time_window", "timeWindow"] (nullable window) fun record value =>
    update (fun time => { time with window := value }) record,
  field ["time"] (nullable text) fun record value =>
    update (fun time => { time with text := value }) record]

/-- A field of the selection of a build request. -/
def selectionField {α : Type} (names : List String) (reader : Reader α)
    (set : Selection → α → Selection) : RecordField BuildRequest :=
  field names reader fun request value =>
    { request with selection := set request.selection value }

/-- Read the body of a build request. -/
def build : Reader BuildRequest :=
  record ([
    selectionField ["table", "from"] (nullable (word Table.ofWord?)) fun s value =>
      { s with table := value },
    selectionField ["select"] (array text) fun s value => { s with columns := value },
    selectionField ["where", "conditions"] (array text) fun s value =>
      { s with conditions := value },
    selectionField ["group_by", "groupBy"] (array text) fun s value => { s with groupBy := value },
    selectionField ["having"] (array text) fun s value => { s with having := value },
    selectionField ["order_by", "orderBy"] (array text) fun s value => { s with orderBy := value },
    selectionField ["order_dir", "orderDir"] (nullable (word Direction.ofWord?)) fun s value =>
      { s with direction := value },
    selectionField ["limit"] (nullable (natBelow UInt32.size)) fun s value =>
      { s with limit := value.map UInt32.ofNat }]
    ++ timeFields fun change request => { request with time := change request.time }) {}

/-- Read the body of a validation request: the query, which must be given. -/
def validation : Reader String := fun tokens => do
  let (query, rest) ← record [field ["query"] text fun (_ : Option String) value => some value]
    none tokens
  match query with
  | some query => pure (query, rest)
  | none => throw .misfit

/-- Read the body of a render request. -/
def render : Reader RenderRequest :=
  record ([field ["values"] (map text) fun request value => { request with values := value }]
    ++ timeFields fun change request => { request with time := change request.time }) {}

end Body

end Ariel.Service
