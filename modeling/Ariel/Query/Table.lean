import Ariel.Query.Error
import Ariel.Text.Blank
import Ariel.Text.LetterCase

/-!
# Tables

A query reads from the event table or from the flow table.
-/

namespace Ariel.Query

open Ariel.Text

/-- The tables that a query can read from. -/
inductive Table where
  | events
  | flows
  deriving DecidableEq, Repr

namespace Table

/-- Every table, in menu order. -/
def all : List Table := [.events, .flows]

/-- The name of a table in the FROM clause. -/
def name : Table → String
  | .events => "events"
  | .flows => "flows"

/-- What a table holds. -/
def description : Table → String
  | .events => "Security events from log sources"
  | .flows => "Network flow data"

/-- Read a table name in any letter case, plural or singular, with blanks around it. -/
def ofName (text : String) : Except QueryError Table :=
  match lowercase (trim text) with
  | "events" | "event" => .ok .events
  | "flows" | "flow" => .ok .flows
  | other => .error (.unknownTable other)

end Table

end Ariel.Query
