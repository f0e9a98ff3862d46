import Ariel.Catalog.Function
import Ariel.Validation.Check.Comparison
import Ariel.Validation.Check.Outline

/-!
# Checks of spelling

Keywords that are often mistyped, functions that do not exist, and values in the wrong quotes.
-/

namespace Ariel.Validation

open Ariel.Text Ariel.Catalog

/-- Mistyped keywords, each with what is meant. -/
def typos : List (String × String) := [
  ("FORM", "FROM"), ("FRMO", "FROM"), ("FOMR", "FROM"), ("SELCT", "SELECT"), ("SELET", "SELECT"),
  ("SLECT", "SELECT"), ("SEELCT", "SELECT"), ("SELEC", "SELECT"), ("WHRE", "WHERE"),
  ("WEHRE", "WHERE"), ("WHER", "WHERE"), ("WHEER", "WHERE"), ("GROUPBY", "GROUP BY"),
  ("GRUOP", "GROUP"), ("GORUP", "GROUP"), ("ORDERBY", "ORDER BY"), ("ODRER", "ORDER"),
  ("OREDR", "ORDER"), ("LIMT", "LIMIT"), ("LIMTI", "LIMIT"), ("LMIT", "LIMIT"),
  ("HAIVNG", "HAVING"), ("HAVNG", "HAVING"), ("ILKE", "ILIKE"), ("LIEK", "LIKE"),
  ("DESCENDING", "DESC"), ("ASCENDING", "ASC")]

/-- A word that is a mistyped keyword. It reports the word and what is meant. -/
def typo : Pattern (List Char × String) := fun before cs => do
  guard (beginsWord before)
  let word := cs.takeWhile isWordCharacter
  let meant ← typos.lookup (String.ofList (capitals word))
  pure ((word, meant), cs.dropWhile isWordCharacter)

/-- The remark on a mistyped keyword. -/
def possibleTypo (word : List Char) (meant : String) : Remark :=
  .warning ("Possible typo '" ++ String.ofList word ++ "': did you mean '" ++ meant ++ "'?")

/-- Keywords are spelled right. -/
def commonTypos (text : List Char) : List Remark :=
  (occurrences typo text).map fun found =>
    let (word, meant) := found.value
    (possibleTypo word meant).placed found.offset

/-- Words that may stand before an opening parenthesis without being called. -/
def wordsNotCalled : List String := [
  "SELECT", "FROM", "WHERE", "AND", "OR", "NOT", "IN", "AS", "ON", "HAVING", "BETWEEN",
  "LIKE", "ILIKE", "MATCHES", "IMATCHES", "IS", "NULL", "BY", "VALUES", "CASE", "WHEN",
  "THEN", "ELSE", "END", "EXISTS", "DISTINCT", "LIMIT", "START", "STOP"]

/-- Take a name, with a second name after two colons when there is one. -/
def qualifiedName? (cs : List Char) : Option (List Char × List Char) := do
  let (name, rest) ← name? cs
  match (literal? "::" rest).bind name? with
  | some (second, rest) => pure (name ++ [':', ':'] ++ second, rest)
  | none => pure (name, rest)

/-- A name followed by an opening parenthesis. It reports the name. -/
def call : Pattern (List Char) := fun before cs => do
  guard (beginsWord before)
  let (name, rest) ← qualifiedName? cs
  pure (name, ← literal? "(" (dropBlanks rest))

/-- The calls of functions that are not known, each name at its first call. -/
def unknownCalls : (seen : List String) → List (Occurrence (List Char)) →
    List (Occurrence (List Char))
  | _, [] => []
  | seen, found :: calls =>
      let name := String.ofList (capitals found.value)
      if wordsNotCalled.contains name || isKnownFunction name || seen.contains name then
        unknownCalls seen calls
      else found :: unknownCalls (name :: seen) calls

/-- Called functions are known. -/
def unknownFunctions (text : List Char) : List Remark :=
  (unknownCalls [] (occurrences call text)).map fun found =>
    (Remark.suggestion
      ("Unknown function '" ++ String.ofList found.value
        ++ "'; check the function reference")).placed found.offset

/-- Take a matching operator that stands as a whole word. -/
def matchingWord? (operator : String) (before : Option Char) (cs : List Char) :
    Option (List Char) := do
  guard (beginsWord before)
  let rest ← matchingOperator? operator cs
  guard (endsWord rest)
  pure rest

/-- What may stand before a value. -/
def valueOperators : List (Option Char → List Char → Option (List Char)) :=
  (["!=", "<>", "<=", ">=", "=", "<", ">"].map fun operator _ cs => literal? operator cs)
    ++ [matchingWord? "LIKE", matchingWord? "MATCHES"]

/-- An operator and a double quote after it. It reports how many bytes behind the operator's
beginning the quote stands. -/
def doubleQuotedValue : Pattern Nat := fun before cs =>
  valueOperators.findSome? fun operator => do
    let quote := dropBlanks (← operator before cs)
    pure (bytesUpTo quote cs, ← literal? "\"" quote)

/-- Values stand in single quotes. -/
def doubleQuotedLiterals (text : List Char) : List Remark :=
  (occurrences doubleQuotedValue text).map fun found =>
    (Remark.warning "Double quotes mark aliases; use single quotes for string values").placed
      (found.offset + found.value)

end Ariel.Validation
