import Ariel.Catalog.Field
import Ariel.Catalog.Function
import Ariel.Catalog.Operator
import Ariel.Catalog.TimeClause
import Ariel.Query.Assembly
import Ariel.Service.Form
import Ariel.Service.Request
import Ariel.Service.Route
import Ariel.Settings.Api
import Ariel.Template.Library
import Ariel.Template.TimeRange
import Ariel.Validation.Report
import Ariel.Version

/-!
# Answering requests

The service answers each request by itself. It builds and validates queries, fills in templates,
and shows the catalog; it never runs a query.
-/

namespace Ariel.Service

open Ariel.Query Ariel.Text Ariel.Json Ariel.Validation

/-- What the service is set up with. -/
structure Context where
  api : ApiSettings := {}
  builder : BuilderSettings := {}
  checks : List Check := Check.all

/-- A successful answer. -/
def success (value : Json) : Response := { status := 200, content := .json value }

/-- An answer of a status alone. -/
def plain (status : Nat) : Response := { status }

/-- The answer to a request that fails. -/
def failed (failure : Failure) : Response :=
  { status := failure.status, content := .json failure.toJson }

/-- The answer of a computation that may fail. -/
def answerOf (result : Except Failure Json) : Response :=
  match result with
  | .ok value => success value
  | .error failure => failed failure

/-- The largest body that is read, in bytes. -/
def bodyLimit : Nat := 65536

/-- Read the body of a request and answer it. A body that is not sent as JSON, is too large, is no
JSON or does not fit is refused, in this order. Text behind the value is passed over. -/
def withBody {α : Type} (request : Request) (reader : Reader α)
    (answer : α → Except Failure Json) : Response :=
  if !request.contentType.any isJsonType then plain 415
  else if bodyLimit < request.body.utf8ByteSize then plain 413
  else match reader (tokens request.body.toList) with
    | .ok (value, _) => answerOf (answer value)
    | .error .malformed => plain 400
    | .error .misfit => plain 422

/-- Decode a name in the path and answer the request. -/
def withName (segment : List Char) (answer : String → Response) : Response :=
  match decodedSegment? segment with
  | some name => answer name
  | none => plain 400

/-- The query that a request describes, on one line and on several, with its findings. -/
def builtQuery (ctx : Context) (request : BuildRequest) : Except Failure Json := do
  let draft ← request.toDraft ctx.builder
  let query ← draft.assemble.mapError .query
  let formatted ← draft.assembleLines.mapError .query
  let report := validateWith ctx.checks query
  pure (.object [("query", .string query), ("formatted", .string formatted),
    ("valid", .bool report.isValid), ("findings", records Finding.toJson report.findings)])

/-- The template with a name. -/
def findTemplate (name : String) : Except Failure Template :=
  match Template.find? name with
  | some template => .ok template
  | none => .error (.notFound ("Template '" ++ name ++ "'"))

/-- The query of a template, filled in and with the time range asked for, and the placeholders that
have no value. -/
def renderedTemplate (name : String) (request : RenderRequest) : Except Failure Json := do
  let template ← findTemplate name
  let window ← request.time.toWindow
  let query := Template.withWindow (template.render request.values) window
  pure (.object [("name", .string template.name), ("query", .string query),
    ("unfilled", .strings (Template.placeholders query))])

/-- The templates of a category, or all of them. -/
def listedTemplates (query : List Char) : Response :=
  match singleValue? "category" (queryPairs query) with
  | none => plain 400
  | some none => success (records Template.toJson Template.library)
  | some (some category) => success (records Template.toJson (Template.inCategory category))

/-- The categories of templates, with the number of templates in each. -/
def categoriesRecord : Json :=
  records (fun (category : TemplateCategory) => .object [("name", .string category.name),
    ("count", .nat (Template.inCategory category.name).length)]) TemplateCategory.all

/-- The templates that mention a keyword. -/
def foundTemplates (query : List Char) : Response :=
  match singleValue? "q" (queryPairs query) with
  | none | some none => plain 400
  | some (some keyword) =>
      if allBlank keyword then failed (.validation "q cannot be empty")
      else success (records Template.toJson (Template.search keyword))

/-- The fields of a table and their groups. -/
def fieldsRecord (name : String) : Except Failure Json :=
  match Table.ofName name with
  | .error e => .error (.notFound e.message)
  | .ok table => .ok (.object [("table", .string table.name),
      ("fields", records Catalog.Field.toJson (Catalog.fields table)),
      ("groups", records Catalog.FieldGroup.toJson (Catalog.fieldGroups table))])

/-- The functions of a category. -/
def functionsRecord (category : String) : Except Failure Json :=
  match Catalog.functionsOf category with
  | [] => .error (.notFound ("Function category '" ++ category ++ "'"))
  | functions => .ok (records Catalog.Function.toJson functions)

/-- The categories of functions, each with its functions. -/
def functionCategoriesRecord : Json :=
  records (fun (category : Catalog.FunctionCategory) => .object [("label", .string category.label),
    ("slug", .string category.key),
    ("functions", records Catalog.Function.toJson category.functions)]) Catalog.functionCategories

/-- The operators, by group. -/
def operatorsRecord : Json :=
  .object (Catalog.OperatorGroup.all.map fun group =>
    (group.name, records Catalog.Operator.toJson group.operators))

/-- Whether the service can do its work: it has checks to run. -/
def isReady (ctx : Context) : Bool := !ctx.checks.isEmpty

/-- The state of the service. -/
def healthRecord (ctx : Context) : Json :=
  .object [("status", .string (if isReady ctx then "healthy" else "unhealthy")),
    ("validator_checks", .nat ctx.checks.length), ("templates", .nat Template.library.length),
    ("version", .string version)]

/-- The answer of a route to a request whose method suits it. -/
def answerRoute (ctx : Context) (request : Request) (query : List Char) : Route → Response
  | .form => { status := 200, content := .html formPage }
  | .health => success (healthRecord ctx)
  | .live => plain 200
  | .ready => plain (if isReady ctx then 200 else 503)
  | .build => withBody request Body.build (builtQuery ctx)
  | .validate => withBody request Body.validation fun text =>
      .ok (validateWith ctx.checks text).toJson
  | .templates => listedTemplates query
  | .templateCategories => success categoriesRecord
  | .templateSearch => foundTemplates query
  | .template name => withName name fun name => answerOf ((findTemplate name).map Template.toJson)
  | .render name => withName name fun name => withBody request Body.render (renderedTemplate name)
  | .fields table => withName table fun name => answerOf (fieldsRecord name)
  | .functionCategories => success functionCategoriesRecord
  | .functions category => withName category fun name => answerOf (functionsRecord name)
  | .operators => success operatorsRecord
  | .timeClauses => success (records Catalog.TimeClauseSample.toJson Catalog.timeClauses)

/-- The answer to a request, before it is said who may read it. -/
def answerRequest (ctx : Context) (request : Request) : Response :=
  let (path, query) := splitTarget request.target
  if request.method = "OPTIONS" then plain 200
  else match Route.ofPath? path with
    | none => plain 404
    | some route =>
        if !route.allows request.method then plain 405
        else
          let response := answerRoute ctx request query route
          if request.method = "HEAD" then { response with content := .empty } else response

/-- The answer to a request. -/
def respond (ctx : Context) (request : Request) : Response :=
  { answerRequest ctx request with
    allowOrigin := allowedOrigin ctx.api.corsOrigins request.origin }

end Ariel.Service
