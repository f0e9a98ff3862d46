import Ariel.Query.Window
import Ariel.Template.Basic
import Ariel.Text.DecimalDigit
import Ariel.Text.Letter

/-!
# The time range of a written query

A query that is already written gets another time range by putting the new time clause in the place
of each old one. Where there is none, the clause goes on a line of its own at the end.
-/

namespace Ariel.Template

open Ariel.Query Ariel.Text

/-- Take a relative time clause whose unit is one of the three plural words. -/
def relativeClause? (cs : List Char) : Option (List Char) := do
  let amount ← blanks? (← anyCase? "LAST".toList cs)
  guard (amount.head?.any isDecimalDigit)
  let unit ← blanks? (amount.dropWhile isDecimalDigit)
  ["MINUTES", "HOURS", "DAYS"].findSome? fun keyword => do
    let rest ← anyCase? keyword.toList unit
    guard (endsWord rest)
    pure rest

/-- Take a keyword, blanks and a literal. -/
def keywordLiteral? (keyword : String) (cs : List Char) : Option (List Char) := do
  let (_, rest) ← quotedText? (← blanks? (← anyCase? keyword.toList cs))
  pure rest

/-- Take START with its literal, and STOP with its literal where that follows. -/
def absoluteClause? (cs : List Char) : Option (List Char) := do
  let rest ← keywordLiteral? "START" cs
  pure (((blanks? rest).bind (keywordLiteral? "STOP")).getD rest)

/-- A time clause in a written query. -/
def timeClause : Pattern Unit := fun before cs => do
  guard (beginsWord before)
  pure ((), ← (relativeClause? cs).or (absoluteClause? cs))

/-- The query with its time range set to a window. A window without a clause changes nothing. -/
def withWindow (query : String) (window : Window) : String :=
  match window.clause? with
  | none => query
  | some clause =>
      if occurs timeClause query.toList then
        String.ofList (replaceAll timeClause clause.toList query.toList)
      else String.ofList (dropLastBlanks query.toList) ++ "\n" ++ clause

end Ariel.Template
