import Ariel.Json.Value
import Ariel.Text.Hexadecimal

/-!
# JSON tokens

A text is cut into the tokens of JSON. Text that belongs to no token becomes one `malformed` token,
and nothing after it is read, so that a reader meets the fault only when it gets there.
-/

namespace Ariel.Json

open Ariel.Text

/-- A token of JSON. A string token without content is well-formed as a token, but its escapes name
no text; a number token without value is too large to be a number. -/
inductive Token where
  | openObject
  | closeObject
  | openArray
  | closeArray
  | colon
  | comma
  | null
  | bool (value : Bool)
  | number (value : Option Json)
  | string (content : Option String)
  | malformed
  deriving Repr, Inhabited

/-- A space, tab or line end, which may stand between tokens. -/
def isGap (c : Char) : Bool :=
  c == ' ' || c == '\t' || c == '\n' || c == '\r'

/-- A written part of a string: a character, or a code unit given in hexadecimal. -/
inductive Piece where
  | char (c : Char)
  | unit (u : Nat)
  deriving Repr

/-- The character that a one-letter escape stands for. -/
def escape? : Char → Option Char
  | '"' => some '"'
  | '\\' => some '\\'
  | '/' => some '/'
  | 'b' => some (Char.ofNat 8)
  | 'f' => some (Char.ofNat 12)
  | 'n' => some '\n'
  | 'r' => some '\r'
  | 't' => some '\t'
  | _ => none

/-- Read the rest of a string up to its closing quote. -/
def pieces? : List Char → Option (List Piece × List Char)
  | [] => none
  | '"' :: cs => some ([], cs)
  | '\\' :: 'u' :: a :: b :: c :: d :: cs => do
      let u := 4096 * (← hexValue? a) + 256 * (← hexValue? b) + 16 * (← hexValue? c)
        + (← hexValue? d)
      let (pieces, rest) ← pieces? cs
      pure (.unit u :: pieces, rest)
  | '\\' :: c :: cs => do
      let c ← escape? c
      let (pieces, rest) ← pieces? cs
      pure (.char c :: pieces, rest)
  | c :: cs =>
      if c.toNat < 0x20 then none
      else do
        let (pieces, rest) ← pieces? cs
        pure (.char c :: pieces, rest)

/-- The text of the pieces, when every surrogate is half of a pair. -/
def pieceText? : List Piece → Option (List Char)
  | [] => some []
  | .char c :: pieces => (pieceText? pieces).map (c :: ·)
  | .unit u :: pieces =>
      if u < 0xD800 || 0xE000 ≤ u then (pieceText? pieces).map (Char.ofNat u :: ·)
      else match pieces with
        | .unit v :: pieces =>
            if u < 0xDC00 && 0xDC00 ≤ v && v < 0xE000 then
              (pieceText? pieces).map
                (Char.ofNat (0x10000 + 1024 * (u - 0xD800) + (v - 0xDC00)) :: ·)
            else none
        | _ => none

/-- Whether `mantissa · 10 ^ exponent` lies beyond the largest double-precision number. -/
def tooLarge (mantissa : Nat) (exponent : Int) : Bool :=
  if mantissa = 0 then false
  else if exponent + (Nat.toDigits 10 mantissa).length > 400 then true
  else if exponent < 0 then false
  else Nat.pow 2 1024 - Nat.pow 2 970 ≤ mantissa * Nat.pow 10 exponent.toNat

/-- Take the digits of an exponent, with its letter and sign, when there is an exponent. -/
def exponent? : List Char → Option (Option Int × List Char)
  | 'e' :: cs | 'E' :: cs =>
      let (negative, cs) := match cs with
        | '-' :: cs => (true, cs)
        | '+' :: cs => (false, cs)
        | cs => (false, cs)
      match cs.takeWhile Char.isDigit with
      | [] => none
      | digits =>
          let n : Int := Text.digitsValue digits
          some (some (if negative then -n else n), cs.dropWhile Char.isDigit)
  | cs => some (none, cs)

/-- Take the digits of a fraction, with its point, when there is a fraction. -/
def fraction? : List Char → Option (Option (List Char) × List Char)
  | '.' :: cs =>
      match cs.takeWhile Char.isDigit with
      | [] => none
      | digits => some (some digits, cs.dropWhile Char.isDigit)
  | cs => some (none, cs)

/-- Take an integer without superfluous zeros. -/
def whole? : List Char → Option (List Char × List Char)
  | '0' :: cs =>
      match cs with
      | [] => some (['0'], [])
      | c :: _ => if c.isDigit then none else some (['0'], cs)
  | cs =>
      match cs.takeWhile Char.isDigit with
      | [] => none
      | digits => some (digits, cs.dropWhile Char.isDigit)

/-- Take a number from the front of a text. -/
def number? (cs : List Char) : Option (Option Json × List Char) := do
  let (negative, unsigned) := match cs with
    | '-' :: rest => (true, rest)
    | _ => (false, cs)
  let (digits, afterWhole) ← whole? unsigned
  let (fraction, afterFraction) ← fraction? afterWhole
  let (exponent, rest) ← exponent? afterFraction
  let mantissa := Text.digitsValue (digits ++ fraction.getD [])
  let scale : Int := exponent.getD 0 - (fraction.getD []).length
  let value : Json :=
    if fraction.isNone && exponent.isNone && !(negative && mantissa = 0) then
      .integer (if negative then -(mantissa : Int) else mantissa)
    else .real (String.ofList (cs.take (cs.length - rest.length)))
  pure (if tooLarge mantissa scale then none else some value, rest)

/-- Take one token from the front of a text that begins with no gap. -/
def token? : List Char → Option (Token × List Char)
  | [] => none
  | '\x7b' :: cs => some (.openObject, cs)
  | '\x7d' :: cs => some (.closeObject, cs)
  | '[' :: cs => some (.openArray, cs)
  | ']' :: cs => some (.closeArray, cs)
  | ':' :: cs => some (.colon, cs)
  | ',' :: cs => some (.comma, cs)
  | 'n' :: 'u' :: 'l' :: 'l' :: cs => some (.null, cs)
  | 't' :: 'r' :: 'u' :: 'e' :: cs => some (.bool true, cs)
  | 'f' :: 'a' :: 'l' :: 's' :: 'e' :: cs => some (.bool false, cs)
  | '"' :: cs =>
      (pieces? cs).map fun (pieces, rest) =>
        (.string ((pieceText? pieces).map String.ofList), rest)
  | cs => (number? cs).map fun (value, rest) => (.number value, rest)

/-- The tokens of a text, at most so many. -/
def tokensWithin : Nat → List Char → List Token
  | 0, _ => []
  | most + 1, cs =>
      match cs.dropWhile isGap with
      | [] => []
      | c :: cs =>
          match token? (c :: cs) with
          | none => [.malformed]
          | some (token, rest) => token :: tokensWithin most rest

/-- The tokens of a text. Each token takes at least one character, so the bound is never met. -/
def tokens (cs : List Char) : List Token :=
  tokensWithin (cs.length + 1) cs

end Ariel.Json
