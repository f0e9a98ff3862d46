import Ariel.Calendar.Datetime
import Ariel.Toml.Text

/-!
# Numbers and dates in TOML

Integers are written in decimal, with a sign, or in base 16, 8 or 2, and have 64 bits. Single
underscores may stand between digits. A date, a time of day or both make one value.
-/

namespace Ariel.Toml

open Ariel.Text

/-- The characters that were taken from the front of a text, and the rest of it. -/
abbrev Taken := List Char × List Char

/-- Read digits, with single underscores between them, and leave the underscores out. -/
def digitRun (isDigit : Char → Bool) : List Char → Taken
  | [] => ([], [])
  | c :: cs =>
      if isDigit c then before c (digitRun isDigit cs)
      else if c = '_' && cs.head?.any isDigit then digitRun isDigit cs
      else ([], c :: cs)

/-- Read digits, at least one, beginning with a digit. -/
def digits? (isDigit : Char → Bool) (cs : List Char) : Option Taken :=
  if cs.head?.any isDigit then some (digitRun isDigit cs) else none

/-- Take a sign, when there is one. -/
def takeSign : List Char → Taken
  | '+' :: cs => (['+'], cs)
  | '-' :: cs => (['-'], cs)
  | cs => ([], cs)

/-- Read an unsigned decimal integer. Only zero begins with a zero. -/
def unsigned? : List Char → Option Taken
  | '0' :: cs => some (['0'], cs)
  | cs => digits? Char.isDigit cs

/-- The value of digits in a base. -/
def valueIn (base : Nat) (digits : List Char) : Nat :=
  digits.foldl (fun n c => base * n + (hexValue? c).getD 0) 0

/-- Whether a number has 64 bits with its sign. -/
def isInteger64 (n : Int) : Bool := Int64.minValue.toInt ≤ n && n ≤ Int64.maxValue.toInt

/-- Read an integer. -/
def integer? (cs : List Char) : Option (Int × List Char) := do
  let (n, rest) ← match cs with
    | '0' :: 'x' :: cs => do
        let (digits, rest) ← digits? (fun c => (hexValue? c).isSome) cs
        pure ((valueIn 16 digits : Int), rest)
    | '0' :: 'o' :: cs => do
        let (digits, rest) ← digits? (fun c => '0' ≤ c && c ≤ '7') cs
        pure ((valueIn 8 digits : Int), rest)
    | '0' :: 'b' :: cs => do
        let (digits, rest) ← digits? (fun c => c == '0' || c == '1') cs
        pure ((valueIn 2 digits : Int), rest)
    | _ => do
        let (sign, cs) := takeSign cs
        let (digits, rest) ← unsigned? cs
        let n : Int := valueIn 10 digits
        pure (if sign = ['-'] then -n else n, rest)
  if isInteger64 n then some (n, rest) else none

/-- Read an exponent: its sign and digits. -/
def exponent? : List Char → Option (Int × List Char)
  | c :: cs => do
      if c != 'e' && c != 'E' then none
      let (sign, cs) := takeSign cs
      let (digits, rest) ← digits? Char.isDigit cs
      let n : Int := valueIn 10 digits
      pure (if sign = ['-'] then -n else n, rest)
  | [] => none

/-- The least number that is nearer to a power of two that has no double precision form than to the
largest number that has one. -/
def overflowBound : Nat := Nat.pow 2 1024 - Nat.pow 2 970

/-- Whether digits times a power of ten lie beyond double precision. -/
def overflows (digits : List Char) (exponent : Int) : Bool :=
  let digits := digits.dropWhile (· == '0')
  let magnitude := exponent + digits.length
  if digits.isEmpty || magnitude < 300 then false
  else if 320 < magnitude then true
  else if exponent < 0 then overflowBound * Nat.pow 10 exponent.natAbs ≤ valueIn 10 digits
  else overflowBound ≤ valueIn 10 digits * Nat.pow 10 exponent.natAbs

/-- Read a number with a fraction or an exponent. A positive one must not be too large. -/
def decimal? (cs : List Char) : Option (List Char) := do
  let (sign, afterSign) := takeSign cs
  let (whole, rest) ← unsigned? afterSign
  let (fraction, exponent, rest) ← match rest with
    | '.' :: rest => do
        let (fraction, rest) ← digits? Char.isDigit rest
        match exponent? rest with
        | some (exponent, rest) => pure (fraction, exponent, rest)
        | none => pure (fraction, 0, rest)
    | rest => do
        let (exponent, rest) ← exponent? rest
        pure ([], exponent, rest)
  if sign != ['-'] && overflows (whole ++ fraction) (exponent - fraction.length) then none
  else some rest

/-- Read infinity or the value that is no number. -/
def special? (cs : List Char) : Option (List Char) :=
  match (takeSign cs).2 with
  | 'i' :: 'n' :: 'f' :: rest => some rest
  | 'n' :: 'a' :: 'n' :: rest => some rest
  | _ => none

/-- Read a number of so many digits that lies in a range. -/
def fixed? (width low high : Nat) (cs : List Char) : Option (Nat × List Char) :=
  let digits := cs.take width
  if digits.length = width && digits.all Char.isDigit then
    let n := valueIn 10 digits
    if low ≤ n && n ≤ high then some (n, cs.drop width) else none
  else none

/-- Take one character. -/
def mark? (mark : Char) : List Char → Option (List Char)
  | c :: cs => if c = mark then some cs else none
  | [] => none

/-- Read a date. -/
def date? (cs : List Char) : Option (List Char) := do
  let (year, cs) ← fixed? 4 0 9999 cs
  let (month, cs) ← fixed? 2 1 12 (← mark? '-' cs)
  let (_, cs) ← fixed? 2 1 (Calendar.daysInMonth year month) (← mark? '-' cs)
  pure cs

/-- Read a time of day. Its seconds may have a fraction and may be a leap second. -/
def timeOfDay? (cs : List Char) : Option (List Char) := do
  let (_, cs) ← fixed? 2 0 23 cs
  let (_, cs) ← fixed? 2 0 59 (← mark? ':' cs)
  let (_, cs) ← fixed? 2 0 60 (← mark? ':' cs)
  match cs with
  | '.' :: rest =>
      let digits := rest.takeWhile Char.isDigit
      pure (if digits.isEmpty then cs else rest.dropWhile Char.isDigit)
  | _ => pure cs

/-- Read how a time lies to universal time. -/
def offset? : List Char → Option (List Char)
  | [] => none
  | c :: cs =>
      if c = 'Z' || c = 'z' then some cs
      else if c = '+' || c = '-' then do
        let (_, cs) ← fixed? 2 0 23 cs
        let (_, cs) ← fixed? 2 0 59 (← mark? ':' cs)
        pure cs
      else none

/-- Read the time that follows a date, when there is one. -/
def afterDate (cs : List Char) : List Char :=
  match cs with
  | c :: rest =>
      if c = 'T' || c = 't' || c = ' ' then
        match timeOfDay? rest with
        | some rest => (offset? rest).getD rest
        | none => cs
      else cs
  | [] => cs

/-- Read a date with or without a time of day, or a time of day. -/
def datetime? (cs : List Char) : Option (List Char) :=
  match date? cs with
  | some rest => some (afterDate rest)
  | none => timeOfDay? cs

/-- The part of a text that was taken when `rest` is left. -/
def takenText (cs rest : List Char) : String :=
  String.ofList (cs.take (cs.length - rest.length))

/-- Read a date, a number with a fraction, or an integer. -/
def scalar? (cs : List Char) : Option (Toml × List Char) :=
  match datetime? cs with
  | some rest => some (.datetime (takenText cs rest), rest)
  | none =>
      match (decimal? cs).orElse fun _ => special? cs with
      | some rest => some (.real (takenText cs rest), rest)
      | none => (integer? cs).map fun (n, rest) => (.integer n, rest)

end Ariel.Toml
