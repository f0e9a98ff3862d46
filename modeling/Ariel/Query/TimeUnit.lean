import Ariel.Query.Error
import Ariel.Text.Blank
import Ariel.Text.LetterCase

/-!
# Time units

A relative time window counts minutes, hours or days.
-/

namespace Ariel.Query

open Ariel.Text

/-- The units of a relative time window. -/
inductive TimeUnit where
  | minutes
  | hours
  | days
  deriving DecidableEq, Repr

namespace TimeUnit

/-- Every unit, in menu order. -/
def all : List TimeUnit := [.minutes, .hours, .days]

/-- The keyword of a unit. -/
def keyword : TimeUnit → String
  | .minutes => "MINUTES"
  | .hours => "HOURS"
  | .days => "DAYS"

/-- Read a unit in any letter case, plural, singular or abbreviated, with blanks around it. -/
def ofKeyword (text : String) : Except QueryError TimeUnit :=
  match uppercase (trim text) with
  | "MINUTES" | "MINUTE" | "MIN" | "M" => .ok .minutes
  | "HOURS" | "HOUR" | "H" => .ok .hours
  | "DAYS" | "DAY" | "D" => .ok .days
  | other => .error (.unknownTimeUnit other)

/-- The unit a structured record names by its exact keyword. -/
def ofWord? : String → Option TimeUnit
  | "MINUTES" => some .minutes
  | "HOURS" => some .hours
  | "DAYS" => some .days
  | _ => none

end TimeUnit

end Ariel.Query
