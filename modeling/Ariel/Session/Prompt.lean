import Ariel.Clipboard
import Ariel.Settings.Builder
import Ariel.Template.Basic
import Ariel.Text.Joined
import Ariel.Text.Numeral

/-!
# Where a session stands

Between two lines of input a session waits at a prompt. The prompt knows what has been typed in the
same dialogue and not been stored yet; all else that lasts is in the memory.
-/

namespace Ariel.Session

open Ariel.Query Ariel.Text

/-- A text that a clipboard tool was started for. -/
structure Delivery where
  tool : Clipboard.Tool
  text : String
  deriving DecidableEq, Repr

/-- What a session keeps from prompt to prompt: the draft, what the clipboard tools were started
for, latest first, and how many attempts to copy there were. -/
structure Memory where
  draft : Draft
  delivered : List Delivery := []
  attempts : Nat := 0

/-- The menus that a dialogue returns to. -/
inductive Place where
  | mainMenu
  | builder
  | templateCategories
  | templates (category : TemplateCategory)
  deriving DecidableEq, Repr

/-- The two lists of predicates. -/
inductive Predicates where
  | rows
  | groups
  deriving DecidableEq, Repr

/-- Conditions that are made from one typed value. -/
inductive ValueCondition where
  | sourceAddress
  | destinationAddress
  | username
  | logSource
  | eventName
  | custom
  deriving DecidableEq, Repr

/-- What a query that is typed over several lines is for. -/
inductive Purpose where
  | quickQuery
  | validation
  deriving DecidableEq, Repr

/-- What a session waits for. -/
inductive Prompt where
  | mainMenu
  | pause (place : Place)
  | builderMenu
  | columns
  | table
  | predicateMenu (which : Predicates)
  | quickAdd
  | conditionValue (kind : ValueCondition)
  | magnitudeOperator
  | magnitudeValue (operator : String)
  | groupCondition
  | removal (which : Predicates)
  | groupBy
  | orderColumns
  | orderDirection (columns : List String)
  | limit
  | timeMenu
  | timeAmount
  | timeUnit (amount : String)
  | startTime
  | stopTime (start : String)
  | finalChoice (query : String)
  | templateCategory
  | templateChoice (category : TemplateCategory)
  | templateAction (template : Template)
  | placeholderValue (template : Template) (query name : String) (later : List String)
  | timeRange (template : Template) (query : String)
  | customTimeRange (template : Template) (query : String)
  | modifiedChoice (template : Template) (query : String)
  | fieldTable
  | functionCategory
  | queryLine (purpose : Purpose) (lines : List String)
  | quickChoice (query : String)
  deriving DecidableEq, Repr

/-- How a session goes on after a line of input: it prints something and waits at a prompt, or it
prints something and ends. -/
inductive Progress where
  | asking (memory : Memory) (prompt : Prompt) (output : String)
  | finished (memory : Memory) (output : String)

/-- What a session is given from outside. -/
structure Context where
  settings : BuilderSettings := {}
  tools : Clipboard.Attempts := Clipboard.noTools

/-- The entries of a comma-separated list, trimmed, without the blank ones. -/
def splitList (s : String) : List String :=
  ((splitAt ',' s.toList).map fun piece => String.ofList (trimmed piece)).filter fun entry =>
    !entry.isEmpty

/-- The item that a typed number chooses, counted from one. -/
def pick? {α : Type} (choice : String) (items : List α) : Option α :=
  match numeral? UInt64.size (trim choice).toList with
  | some (n + 1) => items[n]?
  | _ => none

/-- What was typed, or a default in place of nothing. -/
def orElse (typed default : String) : String :=
  if allBlank typed then default else typed

/-- The draft that a session begins with: all columns of the default table. -/
def freshDraft (settings : BuilderSettings) : Draft :=
  (Draft.ofTable settings.defaultTable).setColumns ["*"]

end Ariel.Session
