import Ariel.Query.Window
import Ariel.Text.Letter

/-!
# Reading time clauses

A time clause is `[LAST] n UNIT` or `START 'a' [STOP 'b']`, with keywords in any ASCII letter case.
Its parts are separated by spaces, tabs and line ends; other blanks are only trimmed from the two
sides. `Window.parse` reads a whole text as one clause, and a blank text as no window.
-/

namespace Ariel.Query.Window

open Ariel.Text

/-- A space, tab or line end, which separates the parts of a time clause. -/
def isGap (c : Char) : Bool :=
  c == ' ' || c == '\t' || c == '\r' || c == '\n'

/-- A clause as it is written, before its amount, unit and datetimes are examined. -/
inductive Clause where
  | relative (amount unit : List Char)
  | absolute (start : List Char) (stop : Option (List Char))
  deriving DecidableEq, Repr

/-- Take a gap of at least one character from the front of a text. -/
def gap? : List Char → Option (List Char)
  | [] => none
  | c :: cs => if isGap c then some (cs.dropWhile isGap) else none

/-- Take a keyword and the quoted text after it, with or without a gap between them. -/
def bound (keyword : String) (cs : List Char) : Option (List Char × List Char) := do
  quotedText? ((← keyword? keyword cs).dropWhile isGap)

/-- Take `START 'a' [STOP 'b']` from the front of a text. A stop that cannot be read is left. -/
def absoluteClause? (cs : List Char) : Option (Clause × List Char) := do
  let (start, rest) ← bound "START" cs
  match (gap? rest).bind (bound "STOP") with
  | some (stop, rest) => some (.absolute start (some stop), rest)
  | none => some (.absolute start none, rest)

/-- Take `[LAST] n UNIT` from the front of a text. -/
def relativeClause? (cs : List Char) : Option (Clause × List Char) := do
  let cs := ((keyword? "LAST" cs).bind gap?).getD cs
  let amount := cs.takeWhile Char.isDigit
  guard !amount.isEmpty
  let cs ← gap? (cs.dropWhile Char.isDigit)
  let unit := cs.takeWhile Char.isAlpha
  guard !unit.isEmpty
  pure (.relative amount unit, cs.dropWhile Char.isAlpha)

/-- Take a time clause from the front of a text. -/
def clauseOf? (cs : List Char) : Option (Clause × List Char) :=
  (absoluteClause? cs).or (relativeClause? cs)

/-- The window that a clause stands for, when its parts are sound. -/
def ofClause : Clause → Except QueryError Window
  | .relative amount unit => do
      match numeral? UInt32.size amount with
      | none =>
          throw (.invalidTimeWindow ("'" ++ String.ofList amount ++ "' is not a valid amount"))
      | some n =>
          let window := relative (UInt32.ofNat n) (← TimeUnit.ofKeyword (String.ofList unit))
          window.check
          pure window
  | .absolute start stop => between (String.ofList start) (stop.map String.ofList)

/-- Read a text as a time clause, its outer blanks apart; a blank text is the unbounded window. -/
def parse (text : String) : Except QueryError Window :=
  let cs := trimmed text.toList
  if cs.isEmpty then .ok .unbounded
  else match clauseOf? cs with
    | none =>
        .error (.invalidTimeWindow
          ("'" ++ String.ofList cs ++ "' is not a LAST or START/STOP clause"))
    | some (clause, rest) =>
        if (trimmed rest).isEmpty then ofClause clause
        else .error (.invalidTimeWindow
          ("Unexpected input after time clause: '" ++ String.ofList (trimmed rest) ++ "'"))

end Ariel.Query.Window
