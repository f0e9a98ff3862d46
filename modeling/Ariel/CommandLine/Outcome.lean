import Ariel.Catalog.Field
import Ariel.Catalog.Function
import Ariel.Catalog.Operator
import Ariel.Catalog.TimeClause
import Ariel.CommandLine.Command
import Ariel.Query.Assembly
import Ariel.Template.Library
import Ariel.Template.TimeRange
import Ariel.Validation.Report

/-!
# Outcomes

What a command prints and how it ends. Every command prints its result as text for people or as
JSON.
-/

namespace Ariel.CommandLine

open Ariel.Query Ariel.Text Ariel.Validation

/-- The end of a run: its status, zero for success, and what it printed for use and as errors. -/
structure Outcome where
  status : Nat := 0
  output : String := ""
  errors : String := ""
  deriving DecidableEq, Repr

/-- A failure with a line of text. -/
def Outcome.failure (line : String) : Outcome := { status := 1, errors := page [line] }

/-- A failure of what the program stands on. -/
def Outcome.fault (line : String) : Outcome := .failure ("Error: " ++ line)

/-- How results are printed. -/
inductive Format where
  | text
  | json
  deriving DecidableEq, Repr

/-- The format with a name, in any letter case. -/
def Format.ofName? (name : String) : Except String Format :=
  match lowercase name with
  | "text" => .ok .text
  | "json" => .ok .json
  | other => .error other

/-- A value as the output of a command. -/
def Outcome.json (value : Json) : Outcome := { output := page [value.pretty] }

/-- Lines of text as the output of a command. -/
def Outcome.lines (lines : List String) : Outcome := { output := page lines }

/-! ## Queries -/

/-- The window that the options of a query ask for. -/
def BuildOptions.toWindow (options : BuildOptions) : Except QueryError Window :=
  match options.last, options.start with
  | some text, _ => Window.parse text
  | none, some start => Window.between start options.stop
  | none, none => .ok .unbounded

/-- The draft of the query to build. A limit of no rows is reported before any fault of the time
range. -/
def BuildOptions.toDraft (options : BuildOptions) (defaults : BuilderSettings) :
    Except QueryError Draft := do
  let draft ← options.selection.toDraft defaults
  pure (draft.setWindow (← options.toWindow))

/-- A query that was built, on one line and on several. -/
structure BuiltQuery where
  query : String
  formatted : String
  deriving DecidableEq, Repr

/-- Build a query. -/
def BuildOptions.build (options : BuildOptions) (defaults : BuilderSettings) :
    Except QueryError BuiltQuery := do
  let draft ← options.toDraft defaults
  pure ⟨← draft.assemble, ← draft.assembleLines⟩

/-- The outcome of building a query. As text, the query is the output and the findings on it are
printed as errors. -/
def buildOutcome (format : Format) (options : BuildOptions) (defaults : BuilderSettings) :
    Outcome :=
  match options.build defaults with
  | .error error => .failure error.message
  | .ok ⟨query, formatted⟩ =>
      let report := validate query
      match format with
      | .json =>
          .json (Json.object [("query", .string query), ("formatted", .string formatted),
            ("valid", .bool report.isValid),
            ("findings", .records Finding.toJson report.findings)]).sorted
      | .text =>
          { output := page [if options.multiline then formatted else query]
            errors := page (report.findings.map Finding.display) }

/-- A text without the line end that stands at its end. -/
def withoutLineEnd (s : String) : String :=
  let rest := match s.toList.reverse with
    | '\n' :: rest => rest
    | rest => rest
  let rest := match rest with
    | '\r' :: rest => rest
    | rest => rest
  String.ofList rest.reverse

/-- A report as lines of text. -/
def reportLines (report : Report) : List String :=
  if report.findings.isEmpty then ["No issues found."]
  else
    report.findings.flatMap (fun finding =>
      finding.display :: (finding.excerpt.map fun excerpt => "    near: " ++ excerpt).toList)
    ++ ["", decimal (report.count .error) ++ " error(s), " ++ decimal (report.count .warning)
      ++ " warning(s), " ++ decimal (report.count .suggestion) ++ " suggestion(s)"]

/-- The outcome of validating a query, which fails when the query is invalid. -/
def validateOutcome (format : Format) (query : String) : Outcome :=
  let report := validate query
  let printed : Outcome := match format with
    | .json => .json report.toJson.sorted
    | .text => .lines (reportLines report)
  { printed with status := if report.isValid then 0 else 1 }

/-! ## Templates -/

/-- Templates under the names of their categories. -/
def templateLines (current : String) : List Template → List String
  | [] => []
  | template :: templates =>
      let category := template.category.name
      (if category = current then [] else ["", category])
        ++ ("  " ++ padRight 36 template.name ++ " " ++ template.description)
        :: templateLines category templates

/-- The outcome of listing the templates of a category, or all of them. -/
def listOutcome (format : Format) (category : Option String) : Outcome :=
  let templates := match category with
    | some category => Template.inCategory category
    | none => Template.library
  if templates.isEmpty then .failure "No templates found"
  else match format with
    | .json => .json (.records Template.toJson templates)
    | .text => .lines (templateLines "" templates)

/-- Go on with the template of a name. -/
def withTemplate (name : String) (outcome : Template → Outcome) : Outcome :=
  match Template.find? name with
  | none => .failure ("Template not found: " ++ name)
  | some template => outcome template

/-- The outcome of showing a template. -/
def showOutcome (format : Format) (template : Template) : Outcome :=
  match format with
  | .json => .json template.toJson
  | .text =>
      .lines ([template.name ++ " (" ++ template.category.name ++ ")", template.description, "",
          template.query]
        ++ if template.params.isEmpty then []
          else ["", "Parameters: " ++ join ", " template.params])

/-- A value for a placeholder, given with the placeholder's name before an equals sign. -/
def valueOf (text : String) : Except String (String × String) :=
  match cutAt? '=' text.toList with
  | some (name, value) => .ok (trim (String.ofList name), String.ofList value)
  | none => .error ("Expected key=value, got: " ++ text)

/-- The query of a template, with values filled in and perhaps another time range. -/
def RenderOptions.render (options : RenderOptions) (template : Template) :
    Except String String := do
  let values ← options.values.mapM valueOf
  let query := template.render values
  match options.last with
  | none => pure query
  | some text => do
      let window ← (Window.parse text).mapError QueryError.message
      pure (Template.withWindow query window)

/-- The outcome of filling in a template. -/
def renderOutcome (format : Format) (options : RenderOptions) (template : Template) : Outcome :=
  match options.render template with
  | .error line => .failure line
  | .ok query =>
      let unfilled := Template.placeholders query
      match format with
      | .json =>
          .json (Json.object [("name", .string template.name), ("query", .string query),
            ("unfilled", .strings unfilled)]).sorted
      | .text =>
          { output := page [query]
            errors := if unfilled.isEmpty then ""
              else page ["Unfilled placeholders: " ++ join ", " unfilled] }

/-- The outcome of looking for templates. -/
def searchOutcome (format : Format) (keyword : String) : Outcome :=
  let found := Template.search keyword
  if found.isEmpty then .failure ("No templates match '" ++ keyword ++ "'")
  else match format with
    | .json => .json (.records Template.toJson found)
    | .text =>
        .lines (found.map fun template =>
          "[" ++ template.category.name ++ "] " ++ template.name ++ ": " ++ template.description)

/-! ## The catalog -/

/-- The outcome of looking up the fields of a table. -/
def fieldsOutcome (format : Format) (table : Table) : Outcome :=
  match format with
  | .json => .json (.records Catalog.Field.toJson (Catalog.fields table))
  | .text =>
      .lines ((table.name ++ " - " ++ table.description)
        :: (Catalog.fields table).map fun field =>
          "  " ++ padRight 28 field.name ++ " " ++ padRight 10 field.dataType
            ++ " " ++ field.description)

/-- The outcome of looking up the categories of functions. -/
def categoriesOutcome (format : Format) : Outcome :=
  match format with
  | .json =>
      .json (Json.records (fun (category : Catalog.FunctionCategory) =>
        .object [("name", .string category.label), ("slug", .string category.key),
          ("count", .nat category.functions.length)]) Catalog.functionCategories).sorted
  | .text =>
      .lines (Catalog.functionCategories.map fun category =>
        "  " ++ padRight 16 category.key ++ " " ++ padRight 16 category.label ++ " "
          ++ decimal category.functions.length ++ " functions")

/-- The outcome of looking up the functions of a category. -/
def functionsOutcome (format : Format) (category : String) : Outcome :=
  let functions := Catalog.functionsOf category
  if functions.isEmpty then .failure ("Unknown function category: " ++ category)
  else match format with
    | .json => .json (.records Catalog.Function.toJson functions)
    | .text =>
        .lines (functions.flatMap fun function =>
          ["  " ++ padRight 24 function.name ++ " " ++ function.description,
            "  " ++ padRight 24 "" ++ " e.g. " ++ function.usage])

/-- The outcome of looking up the operators. -/
def operatorsOutcome (format : Format) : Outcome :=
  match format with
  | .json =>
      .json (Json.object (Catalog.OperatorGroup.all.map fun group =>
        (group.name, .records Catalog.Operator.toJson group.operators))).sorted
  | .text =>
      .lines (Catalog.OperatorGroup.all.flatMap fun group =>
        ["", group.name] ++ group.operators.map fun operator =>
          "  " ++ padRight 16 operator.name ++ " " ++ operator.description)

/-- The outcome of looking up samples of time clauses. -/
def timeClausesOutcome (format : Format) : Outcome :=
  match format with
  | .json => .json (.records Catalog.TimeClauseSample.toJson Catalog.timeClauses)
  | .text =>
      .lines (Catalog.timeClauses.map fun sample =>
        "  " ++ padRight 14 sample.kind ++ " " ++ padRight 60 sample.text ++ " "
          ++ sample.description)

end Ariel.CommandLine
