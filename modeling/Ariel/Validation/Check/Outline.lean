import Ariel.Text.Pattern
import Ariel.Validation.Remark

/-!
# Checks of the outline

The first checks ask whether there is a query at all, whether it begins with SELECT, whether it
reads from a known table, and whether its ends are clean. Those that look for keywords take the
mask of the query.
-/

namespace Ariel.Validation

open Ariel.Text

/-- A query has to say something. -/
def emptyQuery (query : List Char) : List Remark :=
  if query.all isBlank then [.error "Query is empty"] else []

/-- A query has to begin with SELECT. -/
def leadingSelect (text : List Char) : List Remark :=
  if text.all isBlank then []
  else match firstOccurrence? (wholeWord "SELECT") text with
    | none => [.error "Query is missing SELECT keyword"]
    | some select =>
        if (keyword? "SELECT" (dropBlanks text)).isSome then []
        else [(Remark.error "Query should start with SELECT").placed select.offset]

/-- A character that can begin a plain name. -/
def beginsName (c : Char) : Bool :=
  c.isAlpha || c == '_'

/-- A character that can continue a plain name. -/
def continuesName (c : Char) : Bool :=
  c.isAlphanum || c == '_'

/-- Take a plain name: an ASCII letter or underscore, then letters, digits and underscores. -/
def name? : List Char → Option (List Char × List Char)
  | [] => none
  | c :: cs =>
      if beginsName c then some (c :: cs.takeWhile continuesName, cs.dropWhile continuesName)
      else none

/-- The keyword FROM, with the name after it when there is one: how many bytes behind the keyword's
beginning it stands, and how it is written. -/
def fromTable : Pattern (Option (Nat × List Char)) := fun before cs => do
  let (_, rest) ← wholeWord "FROM" before cs
  match blanks? rest with
  | none => pure (none, rest)
  | some gap =>
      match name? gap with
      | none => pure (none, rest)
      | some (name, afterName) => pure (some (bytesUpTo gap cs, name), afterName)

/-- The remark on a table that does not exist. -/
def unknownTable (name : List Char) : Remark :=
  .error ("Unknown table '" ++ String.ofList name ++ "'. Use 'events' or 'flows'")

/-- A query has to read from one of the tables. -/
def fromClause (text : List Char) : List Remark :=
  if text.all isBlank then []
  else match firstOccurrence? fromTable text with
    | none => [.error "Query is missing FROM clause"]
    | some ⟨offset, none⟩ =>
        [(Remark.error "FROM clause is missing a table name").placed offset]
    | some ⟨offset, some (gap, name)⟩ =>
        if ["EVENTS", "FLOWS"].contains (String.ofList (capitals name)) then []
        else [(unknownTable name).placed (offset + gap)]

/-- The remarks on blanks at the ends of a query. -/
def outerBlanks (query : List Char) : List Remark :=
  (if query.head?.any isBlank then [.warning "Query has leading whitespace"] else [])
    ++ (if query.getLast?.any isBlank then [.warning "Query has trailing whitespace"] else [])

/-- The remark on a terminator. -/
def terminator : Remark :=
  .warning "AQL does not use a ';' terminator; remove it"

/-- Blanks at the ends of a query and a terminator are superfluous. -/
def whitespaceAndTerminator (query : List Char) : List Remark :=
  if query.all isBlank then []
  else
    let body := dropLastBlanks query
    outerBlanks query
      ++ (if body.getLast? = some ';' then [terminator.placed (byteLength body - 1)] else [])

end Ariel.Validation
