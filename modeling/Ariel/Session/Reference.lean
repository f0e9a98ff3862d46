import Ariel.Catalog.Field
import Ariel.Catalog.Function
import Ariel.Catalog.Operator
import Ariel.Catalog.TimeClause
import Ariel.Session.Menu

/-!
# The reference screens

Screens that show the catalog of fields, functions, operators and time clauses.
-/

namespace Ariel.Session

open Ariel.Query Ariel.Text Ariel.Catalog

/-- Ask for the table whose fields to show. -/
def openFields (ctx : Context) (memory : Memory) : Progress :=
  .asking memory .fieldTable (banner ctx.settings "FIELD REFERENCE" 60
    ++ page ([""]
      ++ numbered 1 (fun i (table : Table) => "  " ++ decimal i ++ ". " ++ table.name ++ " fields")
          Table.all
      ++ ["  " ++ decimal (Table.all.length + 1) ++ ". Back"])
    ++ "\nEnter choice: ")

/-- The lines of a group of fields. -/
def fieldGroupLines (fields : List Catalog.Field) (group : FieldGroup) : List String :=
  ["", uppercase group.name, rule 70]
    ++ group.fields.filterMap fun name =>
        (fields.find? fun field => field.name == name).map fun field =>
          "  " ++ padRight 35 field.name ++ " " ++ padRight 12 field.dataType ++ " "
            ++ field.description

/-- Show the fields of the chosen table. -/
def answerFieldTable (ctx : Context) (memory : Memory) (typed : String) : Progress :=
  match pick? typed Table.all with
  | none => goTo ctx memory .mainMenu
  | some table =>
      let title := match table with
        | .events => "EVENT FIELDS"
        | .flows => "FLOW FIELDS"
      pauseThen memory .mainMenu (banner ctx.settings title 80
        ++ page ((fieldGroups table).flatMap (fieldGroupLines (fields table)) ++ [""]))

/-- Ask for the category of functions to show. -/
def openFunctions (ctx : Context) (memory : Memory) : Progress :=
  .asking memory .functionCategory (banner ctx.settings "AQL FUNCTION REFERENCE" 80
    ++ page ([""]
      ++ numbered 1 (fun i (category : FunctionCategory) =>
          decimal i ++ ". " ++ category.label ++ " Functions")
          functionCategories
      ++ [decimal (functionCategories.length + 1) ++ ". Back to main menu", ""])
    ++ "Enter choice: ")

/-- Show the functions of the chosen category. -/
def answerFunctionCategory (ctx : Context) (memory : Memory) (typed : String) : Progress :=
  match pick? typed functionCategories with
  | none => goTo ctx memory .mainMenu
  | some category =>
      pauseThen memory .mainMenu
        (banner ctx.settings (uppercase category.label ++ " FUNCTIONS") 90
          ++ page ([""] ++ category.functions.flatMap fun function =>
            ["  " ++ function.name, "    Syntax: " ++ function.usage,
              "    " ++ function.description, ""]))

/-- Show the operators. -/
def openOperators (ctx : Context) (memory : Memory) : Progress :=
  pauseThen memory .mainMenu (banner ctx.settings "AQL OPERATOR REFERENCE" 80
    ++ page ((OperatorGroup.all.flatMap fun group =>
        ["", uppercase group.name ++ " OPERATORS", rule 60]
          ++ group.operators.map fun operator =>
            "  " ++ padRight 15 operator.name ++ " " ++ operator.description)
      ++ ["", "EXAMPLES:", rule 60]
      ++ (operators.filterMap fun operator => operator.example?.map ("  WHERE " ++ ·))
      ++ [""]))

/-- The samples of time clauses of a kind. -/
def samplesOf (kind : String) : List TimeClauseSample :=
  timeClauses.filter fun sample => sample.kind == kind

/-- The two lines of a sample. -/
def sampleLines (sample : TimeClauseSample) : List String :=
  ["  " ++ sample.text, "    # " ++ sample.description]

/-- Show the time clauses. -/
def openTimeClauses (ctx : Context) (memory : Memory) : Progress :=
  pauseThen memory .mainMenu (banner ctx.settings "AQL TIME CLAUSES" 80
    ++ page (["", "LAST CLAUSE (Relative Time)", rule 60,
        "  Syntax: LAST <number> <unit>",
        "  Units: MINUTES, HOURS, DAYS",
        ""]
      ++ ((samplesOf "LAST").map fun sample =>
          "  " ++ padRight 40 sample.text ++ " # " ++ sample.description)
      ++ ["", "START/STOP CLAUSE (Absolute Time)", rule 60,
        "  Syntax: START '<datetime>' [STOP '<datetime>']",
        "  Format: yyyy-MM-dd HH:mm or yyyy-MM-dd HH:mm:ss",
        "  Note: STOP is optional (defaults to now)",
        ""]
      ++ (samplesOf "START/STOP").flatMap sampleLines
      ++ ["", "PARSEDATETIME (Dynamic Time)", rule 60,
        "  Syntax: START PARSEDATETIME('time reference')",
        "  References: 'now', '1 hour ago', '1 day ago', etc.",
        ""]
      ++ (samplesOf "PARSEDATETIME").flatMap sampleLines
      ++ ["", "IMPORTANT NOTES:", rule 60,
        "  - Time clauses must come AFTER LIMIT clause if both are used",
        "  - Example: SELECT * FROM events LIMIT 100 LAST 1 HOURS",
        ""]))

end Ariel.Session
