import Ariel.Text.Numeral
import Ariel.Text.Pattern
import Ariel.Validation.Remark

/-!
# Checks of balance

Quotes come in pairs, and parentheses outside of literals match.
-/

namespace Ariel.Validation

open Ariel.Text

/-- The byte offsets of a character in a text whose first character stands at an offset. -/
def offsetsFrom (mark : Char) : (offset : Nat) → List Char → List Nat
  | _, [] => []
  | offset, c :: cs =>
      let rest := offsetsFrom mark (offset + c.utf8Size) cs
      if c = mark then offset :: rest else rest

/-- The remark on a quote without a partner. -/
def unmatched (kind : String) : Remark :=
  .error ("Unmatched " ++ kind ++ " quotes detected")

/-- A kind of quote has to occur an even number of times. -/
def unmatchedQuote (mark : Char) (kind : String) (query : List Char) : List Remark :=
  let offsets := offsetsFrom mark 0 query
  match offsets.getLast? with
  | none => []
  | some last =>
      if offsets.length % 2 = 0 then []
      else [(unmatched kind).placed last]

/-- Single quotes and double quotes come in pairs. -/
def balancedQuotes (query : List Char) : List Remark :=
  unmatchedQuote '\'' "single" query ++ unmatchedQuote '"' "double" query

/-- Match parentheses, given the offsets of the open ones, innermost first. -/
def parentheses : (opened : List Nat) → (offset : Nat) → List Char → List Remark
  | [], _, [] => []
  | last :: opened, _, [] =>
      [(Remark.error (decimal (opened.length + 1) ++ " unclosed parenthesis")).placed last]
  | opened, offset, c :: cs =>
      let next := offset + c.utf8Size
      if c = '(' then parentheses (offset :: opened) next cs
      else if c = ')' then
        match opened with
        | [] =>
            (Remark.error "Unexpected closing parenthesis").placed offset :: parentheses [] next cs
        | _ :: opened => parentheses opened next cs
      else parentheses opened next cs

/-- Parentheses match. -/
def balancedParentheses (text : List Char) : List Remark :=
  parentheses [] 0 text

end Ariel.Validation
