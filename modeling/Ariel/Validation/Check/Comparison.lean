import Ariel.Text.Letter
import Ariel.Text.Pattern
import Ariel.Validation.Remark

/-!
# Checks of comparisons

Comparison operators have to be spelled right, and the pattern in a literal has to suit the
operator before it. The checks of literals take the query itself and recognise keywords in any
letter case.
-/

namespace Ariel.Validation

open Ariel.Text

/-- Operators that do not exist, each with its correction. Of two that fit, the first counts. -/
def malformedOperators : List (String × String) := [
  ("===", "Use single '=' for equality, not '==='"),
  ("!==", "Use '!=' for inequality, not '!=='"),
  ("==", "Use single '=' for equality, not '=='"),
  ("=>", "Use '>=' instead of '=>'"),
  ("=<", "Use '<=' instead of '=<'"),
  ("=!", "Use '!=' instead of '=!'")]

/-- An operator that does not exist; it reports the correction. -/
def malformedOperator : Pattern String := fun _ cs =>
  malformedOperators.findSome? fun (operator, correction) =>
    (literal? operator cs).map fun rest => (correction, rest)

/-- Comparison operators are spelled right. -/
def comparisonOperators (text : List Char) : List Remark :=
  (occurrences malformedOperator text).map fun found =>
    (Remark.error found.value).placed found.offset

/-- The operators that compare for equality or for its opposite. -/
def equalityOperators : List String := ["!=", "<>", "="]

/-- Take an equality operator and the literal after it. -/
def comparedLiteral? (cs : List Char) : Option ((String × List Char) × List Char) :=
  equalityOperators.findSome? fun operator => do
    let (text, rest) ← quotedText? (dropBlanks (← literal? operator cs))
    pure ((operator, text), rest)

/-- An equality operator and the literal after it, together with the character before the operator,
which must not be part of a longer one. It reports how many bytes that character takes, the
operator and the literal. At the beginning of a text the character may be missing. -/
def equalityWithLiteral : Pattern (Nat × String × List Char) := fun before cs =>
  let direct :=
    if before.isNone then
      (comparedLiteral? cs).map fun ((operator, text), rest) => ((0, operator, text), rest)
    else none
  match direct, cs with
  | some found, _ => some found
  | none, [] => none
  | none, c :: cs =>
      if ['<', '>', '!', '='].contains c then none
      else (comparedLiteral? cs).map fun ((operator, text), rest) =>
        ((c.utf8Size, operator, text), rest)

/-- A literal compared for equality holds no wildcard. -/
def wildcardWithEquals (query : List Char) : List Remark :=
  (occurrences equalityWithLiteral query).filterMap fun found =>
    let (gap, operator, text) := found.value
    if text.contains '%' then
      some ((Remark.warning
        ("'%' is a wildcard only with LIKE/ILIKE; '" ++ operator
          ++ "' compares it literally")).placed (found.offset + gap))
    else none

/-- Take a matching operator, also in its form that ignores case, which begins with an I. -/
def matchingOperator? (operator : String) (cs : List Char) : Option (List Char) :=
  (anyCase? ('I' :: operator.toList) cs).or (anyCase? operator.toList cs)

/-- A matching operator at the beginning of a word, and the literal after it. -/
def matchedLiteral (operator : String) : Pattern (List Char) := fun before cs => do
  guard (beginsWord before)
  quotedText? (← blanks? (← matchingOperator? operator cs))

/-- A pattern for LIKE holds a wildcard. -/
def likeWithoutWildcard (query : List Char) : List Remark :=
  (occurrences (matchedLiteral "LIKE") query).filterMap fun found =>
    if found.value.any fun c => c == '%' || c == '_' then none
    else some ((Remark.warning
      "LIKE pattern has no % or _ wildcard; use '=' for an exact match").placed found.offset)

/-- A matching operator whose literal lets every value through. It reports its own spelling. -/
def matchesEverything (operator : String) (everything : List Char → Bool) :
    Pattern (List Char) := fun before cs => do
  let (text, rest) ← matchedLiteral operator before cs
  guard (everything text)
  pure (upTo rest cs, rest)

/-- A pattern narrows something down, and all columns of all rows are not asked for. -/
def matchAllPatterns (query text : List Char) : List Remark :=
  let like := occurrences
    (matchesEverything "LIKE" fun t => !t.isEmpty && t.all (· == '%')) query
  let regular := occurrences (matchesEverything "MATCHES" (· == ['.', '*'])) query
  let everything := (like ++ regular).map fun found =>
    (Remark.warning
      ("'" ++ String.ofList found.value
        ++ "' matches every value; the condition has no effect")).placed found.offset
  let selectAll : Pattern Unit := fun before cs => do
    let (_, rest) ← wordStart "SELECT" before cs
    pure ((), ← literal? "*" (← blanks? rest))
  Remark.sortByPosition everything ++
    match firstOccurrence? selectAll text with
    | none => []
    | some select =>
        if occurs (wholeWord "LIMIT") text then []
        else [(Remark.suggestion ("SELECT * without LIMIT can return very large result sets; "
          ++ "consider adding LIMIT")).placed select.offset]

end Ariel.Validation
