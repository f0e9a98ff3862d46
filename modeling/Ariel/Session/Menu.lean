import Ariel.Query.Assembly
import Ariel.Session.Page
import Ariel.Session.Prompt
import Ariel.Template.Library

/-!
# Menus

The menus of a session, and the way back to them.
-/

namespace Ariel.Session

open Ariel.Query Ariel.Text

/-- The main menu. -/
def mainMenuPage (settings : BuilderSettings) : String :=
  clearing settings ++ page [
    doubleRule 60,
    "           AQL BUILDER - QRadar Query Helper",
    doubleRule 60,
    "",
    "MAIN MENU",
    rule 40,
    "  1. Build a new query (step-by-step)",
    "  2. Query templates (pre-built queries)",
    "  3. Reference - Fields",
    "  4. Reference - Functions",
    "  5. Reference - Operators",
    "  6. Reference - Time clauses",
    "  7. Quick query (free-form with hints)",
    "  8. Validate a query",
    "  9. Help / AQL Syntax Guide",
    "  0. Exit",
    rule 40] ++ "Enter choice: "

/-- The query as it stands, or what it lacks. -/
def currentQuery (draft : Draft) : String :=
  match draft.assembleLines with
  | .ok query => query
  | .error e => "  (incomplete: " ++ e.message ++ ")"

/-- The menu of the query builder. -/
def builderPage (settings : BuilderSettings) (draft : Draft) : String :=
  banner settings "INTERACTIVE QUERY BUILDER" 60 ++ page [
    "",
    doubleRule 60,
    "CURRENT QUERY:",
    rule 60,
    currentQuery draft,
    doubleRule 60,
    "",
    "BUILD OPTIONS:",
    rule 40,
    "  1. Set SELECT columns",
    "  2. Set FROM table (events/flows)",
    "  3. Add WHERE condition",
    "  4. Add GROUP BY columns",
    "  5. Add HAVING condition",
    "  6. Set ORDER BY",
    "  7. Set LIMIT",
    "  8. Set TIME clause",
    "  9. Clear and restart",
    repeated 20 "  -",
    "  c. Copy query to clipboard",
    "  f. Finish and display query",
    "  q. Back to main menu",
    rule 40] ++ "Enter choice: "

/-- The menu of template categories. -/
def templateCategoriesPage (settings : BuilderSettings) : String :=
  banner settings "AQL QUERY TEMPLATES" 60
    ++ page ([""]
      ++ numbered 1 (fun i (category : TemplateCategory) =>
          "  " ++ decimal i ++ ". " ++ category.name ++ " ("
            ++ decimal (Template.inCategory category.name).length ++ " queries)")
          TemplateCategory.all
      ++ ["", "  0. Back to main menu", rule 60])
    ++ "\nSelect category: "

/-- The menu of the templates of a category. -/
def templatesPage (settings : BuilderSettings) (category : TemplateCategory) : String :=
  banner settings (uppercase category.name) 60
    ++ page ([""]
      ++ numbered 1 (fun i (template : Template) =>
          "  " ++ decimal i ++ ". " ++ template.name ++ "\n     " ++ template.description ++ "\n")
          (Template.inCategory category.name)
      ++ ["  0. Back", rule 60])
    ++ "\nSelect template: "

/-- The menu at a place. -/
def placePage (settings : BuilderSettings) (draft : Draft) : Place → String
  | .mainMenu => mainMenuPage settings
  | .builder => builderPage settings draft
  | .templateCategories => templateCategoriesPage settings
  | .templates category => templatesPage settings category

/-- The prompt at a place. -/
def placePrompt : Place → Prompt
  | .mainMenu => .mainMenu
  | .builder => .builderMenu
  | .templateCategories => .templateCategory
  | .templates category => .templateChoice category

/-- Print something and go to a place. -/
def goTo (ctx : Context) (memory : Memory) (place : Place) (output : String := "") : Progress :=
  .asking memory (placePrompt place) (output ++ placePage ctx.settings memory.draft place)

/-- Print something, and go to a place once the user agrees. -/
def pauseThen (memory : Memory) (place : Place) (output : String := "") : Progress :=
  .asking memory (.pause place) (output ++ "  Press Enter to continue...")

/-- Copy a query and say whether that worked. -/
def copyThen (ctx : Context) (memory : Memory) (place : Place) (query : String) : Progress :=
  let tools := ctx.tools.response memory.attempts
  let outcome := Clipboard.copy ctx.settings.clipboard tools
  let memory := { memory with
    delivered := (outcome.fed.map fun tool => ⟨tool, query⟩).reverse ++ memory.delivered
    attempts := memory.attempts + 1 }
  match outcome.result with
  | .ok _ => pauseThen memory place "\n  Query copied to clipboard!\n"
  | .error failure =>
      pauseThen memory place (page ["", "  " ++ failure.message, "  Query: " ++ query])

end Ariel.Session
