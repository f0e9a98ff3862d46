/-!
# Blanks

A blank is a character of the Unicode property White_Space. Text is trimmed of the blanks on both
sides, and a text of blanks only counts as nothing.
-/

namespace Ariel.Text

/-- Whether a character is a blank. -/
def isBlank (c : Char) : Bool :=
  let n := c.toNat
  (9 ≤ n && n ≤ 13) || n == 0x20 || n == 0x85 || n == 0xA0 || n == 0x1680 ||
    (0x2000 ≤ n && n ≤ 0x200A) || n == 0x2028 || n == 0x2029 || n == 0x202F || n == 0x205F ||
    n == 0x3000

/-- The text from its first character that is no blank. -/
def dropBlanks (cs : List Char) : List Char :=
  cs.dropWhile isBlank

/-- The text up to its last character that is no blank. -/
def dropLastBlanks (cs : List Char) : List Char :=
  (dropBlanks cs.reverse).reverse

/-- The characters between the outer blanks. -/
def trimmed (cs : List Char) : List Char :=
  dropLastBlanks (dropBlanks cs)

/-- The text without the blanks on its two sides. -/
def trim (s : String) : String :=
  String.ofList (trimmed s.toList)

/-- Whether a text holds nothing but blanks. -/
def allBlank (s : String) : Bool :=
  s.toList.all isBlank

end Ariel.Text
