import Ariel.Calendar.Datetime
import Ariel.Query.TimeUnit
import Ariel.Text.Numeral

/-!
# Time windows

A query ends with at most one time clause: `LAST n UNIT`, or `START 'a'` with an optional
`STOP 'b'`. A window may hold any text for its datetimes; `check` says whether it is sound, and an
unsound window is written as no clause at all.
-/

namespace Ariel.Query

open Ariel.Text Ariel.Calendar

/-- The time range of a query. -/
inductive Window where
  | unbounded
  | relative (amount : UInt32) (unit : TimeUnit)
  | absolute (start : String) (stop : Option String)
  deriving DecidableEq, Repr

namespace Window

/-- A relative window must look back at least one unit. -/
def zeroAmount : QueryError :=
  .invalidTimeWindow "LAST amount must be greater than zero"

/-- An absolute window must have a start. -/
def startRequired : QueryError :=
  .invalidTimeWindow "START datetime is required"

/-- A bound of an absolute window must be a datetime. -/
def notADatetime (text : String) : QueryError :=
  .invalidTimeWindow
    ("'" ++ text ++ "' is not a datetime in yyyy-MM-dd HH:mm or yyyy-MM-dd HH:mm:ss format")

/-- Whether no time clause is set. -/
def isUnbounded : Window → Bool
  | .unbounded => true
  | _ => false

/-- A bound of an absolute window, trimmed, when it is not blank. -/
def bound? (stop : Option String) : Option String :=
  (stop.map trim).filter fun s => !s.isEmpty

/-- Check one bound of an absolute window, its outer blanks apart. -/
def checkDatetime (text : String) : Except QueryError Unit :=
  if (datetime? (trim text).toList).isSome then .ok () else .error (notADatetime (trim text))

/-- Check a window: a relative one looks back at least one unit, and an absolute one has a start
and bounds that are datetimes. A blank stop counts as absent. -/
def check : Window → Except QueryError Unit
  | .unbounded => .ok ()
  | .relative amount _ => if amount = 0 then .error zeroAmount else .ok ()
  | .absolute start stop => do
      if allBlank start then throw startRequired
      checkDatetime start
      match bound? stop with
      | none => pure ()
      | some stop => checkDatetime stop

/-- The window between two datetimes, trimmed and checked. -/
def between (start : String) (stop : Option String) : Except QueryError Window := do
  let window := absolute (trim start) (bound? stop)
  window.check
  pure window

/-- The window with its bounds trimmed and a blank stop dropped. -/
def normal : Window → Window
  | .absolute start stop => .absolute (trim start) (bound? stop)
  | window => window

/-- The time clause of a window. A missing or unsound window has none. -/
def clause? (window : Window) : Option String :=
  match window.check with
  | .error _ => none
  | .ok () =>
      match window with
      | .unbounded => none
      | .relative amount unit =>
          some ("LAST " ++ decimal amount.toNat ++ " " ++ unit.keyword)
      | .absolute start stop =>
          match bound? stop with
          | some stop => some ("START '" ++ trim start ++ "' STOP '" ++ stop ++ "'")
          | none => some ("START '" ++ trim start ++ "'")

end Window

end Ariel.Query
