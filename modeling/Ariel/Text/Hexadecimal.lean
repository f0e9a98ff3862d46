/-!
# Hexadecimal digits

A digit of base sixteen is read in either letter case and written in lower case.
-/

namespace Ariel.Text

/-- The value of a hexadecimal digit. -/
def hexValue? (c : Char) : Option Nat :=
  if c.isDigit then some (c.toNat - '0'.toNat)
  else if 'a' ≤ c && c ≤ 'f' then some (c.toNat - 'a'.toNat + 10)
  else if 'A' ≤ c && c ≤ 'F' then some (c.toNat - 'A'.toNat + 10)
  else none

/-- The hexadecimal digit of a number modulo sixteen. -/
def hexDigit (n : Nat) : Char :=
  (Nat.toDigits 16 (n % 16)).getLastD '0'

end Ariel.Text
