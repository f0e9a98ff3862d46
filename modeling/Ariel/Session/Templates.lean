import Ariel.Query.Window.Parser
import Ariel.Session.Menu
import Ariel.Template.TimeRange

/-!
# The template screens

Templates are chosen by category, shown, and copied as they are or with values filled in and
another time range.
-/

namespace Ariel.Session

open Ariel.Query Ariel.Text

/-- Go to the chosen category. -/
def answerTemplateCategory (ctx : Context) (memory : Memory) (typed : String) : Progress :=
  if typed = "0" then goTo ctx memory .mainMenu
  else match pick? typed TemplateCategory.all with
    | some category => goTo ctx memory (.templates category)
    | none => goTo ctx memory .templateCategories

/-- Show a template. -/
def openTemplate (ctx : Context) (memory : Memory) (template : Template) : Progress :=
  let params := match template.params with
    | [] => []
    | params => ["", "Customizable parameters:"] ++ params.map ("  - " ++ ·)
  .asking memory (.templateAction template) (banner ctx.settings (uppercase template.name) 70
    ++ page (["", "Description: " ++ template.description, "", "QUERY:", rule 70,
        template.query, rule 70]
      ++ params
      ++ ["", rule 70, "OPTIONS:", "  [c] Copy to clipboard", "  [m] Modify parameters",
        "  [Enter] Back", rule 70])
    ++ "\nChoice: ")

/-- Show the chosen template. -/
def answerTemplateChoice (ctx : Context) (memory : Memory) (category : TemplateCategory)
    (typed : String) : Progress :=
  if typed = "0" then goTo ctx memory .templateCategories
  else match pick? typed (Template.inCategory category.name) with
    | some template => openTemplate ctx memory template
    | none => goTo ctx memory (.templates category)

/-- The time ranges to choose from. -/
def offeredRanges : List (UInt32 × TimeUnit) := [
  (1, .hours), (24, .hours), (7, .days), (30, .days)]

/-- Ask for the time range. -/
def askTimeRange (memory : Memory) (template : Template) (query output : String) : Progress :=
  .asking memory (.timeRange template query) (output
    ++ page (["", "Modify time range?"]
      ++ numbered 1 (fun i (range : UInt32 × TimeUnit) =>
          "  " ++ decimal i ++ ". LAST " ++ decimal range.1.toNat ++ " " ++ range.2.keyword)
          offeredRanges
      ++ ["  5. Custom", "  Enter. Keep current"])
    ++ "\nChoice: ")

/-- Ask for the values of placeholders, one after the other, and then for the time range. -/
def askPlaceholders (memory : Memory) (template : Template) (query output : String) :
    List String → Progress
  | [] => askTimeRange memory template query output
  | name :: later =>
      .asking memory (.placeholderValue template query name later)
        (output ++ "  " ++ name ++ ": ")

/-- Copy the template, modify it, or go back. -/
def answerTemplateAction (ctx : Context) (memory : Memory) (template : Template)
    (typed : String) : Progress :=
  let place := Place.templates template.category
  match lowercase typed with
  | "c" => copyThen ctx memory place template.query
  | "m" =>
      askPlaceholders memory template template.query
        (banner ctx.settings "MODIFY TEMPLATE" 60
          ++ page ["", "Enter values for placeholders (press Enter to keep default):", ""])
        (Template.placeholders template.query)
  | _ => goTo ctx memory place

/-- Fill in a value, unless none is given. -/
def answerPlaceholder (memory : Memory) (template : Template) (query name : String)
    (later : List String) (typed : String) : Progress :=
  let query := if typed.isEmpty then query else Template.fill query [(name, typed)]
  askPlaceholders memory template query "" later

/-- Show the modified query. -/
def openModified (memory : Memory) (template : Template) (query output : String) : Progress :=
  .asking memory (.modifiedChoice template query) (output
    ++ page ["", rule 60, "MODIFIED QUERY:", rule 60, query, rule 60, "",
      "[c] Copy to clipboard"]
    ++ "[Enter] Back: ")

/-- Set the chosen time range, ask for another one, or keep it. -/
def answerTimeRange (memory : Memory) (template : Template) (query typed : String) : Progress :=
  match pick? typed offeredRanges with
  | some (amount, unit) =>
      openModified memory template (Template.withWindow query (.relative amount unit)) ""
  | none =>
      if typed = "5" then
        .asking memory (.customTimeRange template query) "Enter custom time clause: "
      else openModified memory template query ""

/-- Set the time range that was typed, when it can be read. -/
def answerCustomTimeRange (memory : Memory) (template : Template) (query typed : String) :
    Progress :=
  if typed.isEmpty then openModified memory template query ""
  else match Window.parse typed with
    | .ok window => openModified memory template (Template.withWindow query window) ""
    | .error e =>
        openModified memory template query
          (page ["", "  " ++ e.message ++ " (keeping current time range)"])

/-- Copy the modified query, or go back. -/
def answerModified (ctx : Context) (memory : Memory) (template : Template)
    (query typed : String) : Progress :=
  let place := Place.templates template.category
  if sameIgnoringCase typed "c" then copyThen ctx memory place query
  else goTo ctx memory place

end Ariel.Session
