import Ariel.Catalog.Function
import Ariel.Text.Numeral
import Ariel.Validation.Check.Condition

/-!
# Checks of clauses

A time clause is sound, clauses stand in their order, a limit is a positive number, and groups are
made where they are used.
-/

namespace Ariel.Validation

open Ariel.Text Ariel.Catalog

/-- The parts of a relative time clause, with how many bytes behind its beginning each stands. -/
structure LastClause where
  amountOffset : Nat
  amount : List Char
  unitOffset : Nat
  unit : List Char

/-- A relative time clause: LAST, a number in the digits of any script, and a word. -/
def lastClause : Pattern LastClause := fun before cs => do
  let (_, rest) ← wordStart "LAST" before cs
  let amount ← blanks? rest
  let digits := amount.takeWhile isDecimalDigit
  guard !digits.isEmpty
  let unit ← blanks? (amount.dropWhile isDecimalDigit)
  let letters := unit.takeWhile Char.isAlpha
  guard !letters.isEmpty
  let rest := unit.dropWhile Char.isAlpha
  guard (endsWord rest)
  pure (⟨bytesUpTo amount cs, digits, bytesUpTo unit cs, letters⟩, rest)

/-- An amount of nothing but zeros looks back no time at all. -/
def zeroAmount (found : Occurrence LastClause) : List Remark :=
  if found.value.amount.all (· == '0') then
    [(Remark.error "Time window amount must be positive").placed
      (found.offset + found.value.amountOffset)]
  else []

/-- The unit of a relative time clause is one of three plural words. -/
def timeUnit (found : Occurrence LastClause) : List Remark :=
  let unit := String.ofList (capitals found.value.unit)
  let offset := found.offset + found.value.unitOffset
  if ["MINUTES", "HOURS", "DAYS"].contains unit then []
  else if ["MINUTE", "HOUR", "DAY"].contains unit then
    [(Remark.warning ("Use the plural time unit '" ++ unit ++ "S'")).placed offset]
  else
    [(Remark.error
      ("Unknown time unit '" ++ unit ++ "'. Use MINUTES, HOURS or DAYS")).placed offset]

/-- A query has a time clause, and each relative one is sound. -/
def timeClause (text : List Char) : List Remark :=
  if text.all isBlank then []
  else
    let relative := occurrences lastClause text
    let absolute := occurs (firstOf [wholeWord "START", wholeWord "STOP"]) text
    (relative.flatMap fun found => zeroAmount found ++ timeUnit found)
      ++ (if relative.isEmpty && !absolute then
          [.warning "Consider adding a time clause (LAST, START/STOP)"]
        else [])

/-- Two keywords with blanks between them, as whole words. -/
def wholePhrase (first second : String) : Pattern Unit := fun before cs => do
  guard (beginsWord before)
  pure ((), ← phrase? first second cs)

/-- The beginning of a relative time clause. -/
def lastAmount : Pattern Unit := fun before cs => do
  guard (beginsWord before)
  pure ((), ← lastAmount? cs)

/-- The clauses in the order in which they have to stand, each with its keywords. -/
def clausesInOrder : List (String × Pattern Unit) := [
  ("SELECT", wholeWord "SELECT"), ("FROM", wholeWord "FROM"), ("WHERE", wholeWord "WHERE"),
  ("GROUP BY", wholePhrase "GROUP" "BY"), ("HAVING", wholeWord "HAVING"),
  ("ORDER BY", wholePhrase "ORDER" "BY"), ("LIMIT", wholeWord "LIMIT"),
  ("the time clause", firstOf [lastAmount, wholeWord "START"])]

/-- The pairs of clauses, given where each is found, in which the later one comes first. -/
def misplaced : List (String × Nat) → List Remark
  | [] => []
  | (earlier, offset) :: clauses =>
      (clauses.filterMap fun (later, laterOffset) =>
        if laterOffset < offset then
          some ((Remark.error (earlier ++ " should come before " ++ later)).placed laterOffset)
        else none)
      ++ misplaced clauses

/-- Clauses stand in their order. -/
def clauseOrder (text : List Char) : List Remark :=
  misplaced (clausesInOrder.filterMap fun (name, keywords) =>
    (firstOccurrence? keywords text).map fun found => (name, found.offset))

/-- The keyword LIMIT, with the text up to the next blank after it when there is one: how many bytes
behind the keyword's beginning it stands, and how it is written. -/
def limitClause : Pattern (Option (Nat × List Char)) := fun before cs => do
  let (_, rest) ← wholeWord "LIMIT" before cs
  match blanks? rest with
  | none | some [] => pure (none, rest)
  | some value =>
      pure (some (bytesUpTo value cs, value.takeWhile fun c => !isBlank c),
        value.dropWhile fun c => !isBlank c)

/-- The text without the semicolons at its end. -/
def dropLastSemicolons (cs : List Char) : List Char :=
  (cs.reverse.dropWhile (· == ';')).reverse

/-- The remark on a limit that is not a positive number below 2^64. -/
def badLimit? (value : List Char) : Option Remark :=
  match numeral? UInt64.size value with
  | some (_ + 1) => none
  | _ =>
      if value.isEmpty then some (.error "LIMIT requires a positive integer")
      else some (.error
        ("LIMIT value '" ++ String.ofList value ++ "' is not a positive integer"))

/-- A limit is a positive number below 2^64. -/
def limitValue (text : List Char) : List Remark :=
  (occurrences limitClause text).filterMap fun found =>
    let value := (found.value.map fun (_, value) => dropLastSemicolons value).getD []
    (badLimit? value).map fun remark => remark.placed found.offset

/-- A call of an aggregate function. -/
def aggregateCall : Pattern Unit := fun before cs => do
  guard (beginsWord before)
  aggregateNames.findSome? fun name => do
    pure ((), ← literal? "(" (dropBlanks (← keyword? name cs)))

/-- Groups are made for aggregate functions, and group conditions need groups. -/
def aggregationUsage (text : List Char) : List Remark :=
  let grouping := firstOccurrence? (wholePhrase "GROUP" "BY") text
  (match grouping with
    | none => []
    | some found =>
        if occurs aggregateCall text then []
        else [(Remark.warning
          "GROUP BY is typically used with aggregate functions (COUNT, SUM, etc.)").placed
            found.offset])
  ++ (match firstOccurrence? (wholeWord "HAVING") text with
    | none => []
    | some found =>
        if grouping.isSome then []
        else [(Remark.error "HAVING requires a GROUP BY clause").placed found.offset])

end Ariel.Validation
