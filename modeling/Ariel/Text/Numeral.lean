/-!
# Numerals

Numbers are typed in ASCII digits, with leading zeros and one plus sign allowed, and must stay
below a bound that belongs to their use. `numeral? below` reads one and `decimal` writes one.
-/

namespace Ariel.Text

/-- The value of a run of ASCII digits, most significant first. -/
def digitsValue (digits : List Char) : Nat :=
  digits.foldl (fun n c => 10 * n + (c.toNat - '0'.toNat)) 0

/-- Read a whole text as a number below the bound: an optional plus sign, then ASCII digits, at
least one. -/
def numeral? (below : Nat) (cs : List Char) : Option Nat :=
  let digits := match cs with
    | '+' :: rest => rest
    | _ => cs
  if digits.isEmpty || !digits.all Char.isDigit then none
  else
    let n := digitsValue digits
    if n < below then some n else none

/-- A number in decimal digits. -/
def decimal (n : Nat) : String :=
  String.ofList (Nat.toDigits 10 n)

/-- Pad a text with spaces on the right to the given number of characters. -/
def padRight (width : Nat) (s : String) : String :=
  s ++ String.ofList (List.replicate (width - s.length) ' ')

end Ariel.Text
