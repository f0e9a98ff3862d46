/-!
# Masked text

Keywords are looked for outside single-quoted literals. The mask of a text shows every character
inside a literal as blanks, one for each of its bytes, so that byte offsets are the same in both.
Quotes stay, and a literal without an end reaches to the end of the text.
-/

namespace Ariel.Validation

/-- Mask a text that begins inside a literal or outside of one. -/
def maskFrom : (inside : Bool) → List Char → List Char
  | _, [] => []
  | inside, c :: cs =>
      if c = '\'' then c :: maskFrom (!inside) cs
      else if inside then List.replicate c.utf8Size ' ' ++ maskFrom inside cs
      else c :: maskFrom inside cs

/-- The text with the contents of its single-quoted literals blanked. -/
def mask (cs : List Char) : List Char :=
  maskFrom false cs

end Ariel.Validation
