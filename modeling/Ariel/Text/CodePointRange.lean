/-!
# Ranges of code points

A class of characters is given by ascending, disjoint ranges of code points.
-/

namespace Ariel.Text

/-- A range of code points, given by its first and its last member. -/
abbrev CodePointRange := Nat × Nat

/-- Whether one of the ascending ranges holds the code point. The search stops at the first range
that begins beyond it. -/
def CodePointRange.covers : List CodePointRange → Nat → Bool
  | [], _ => false
  | (first, last) :: ranges, n =>
      if n < first then false else if n ≤ last then true else covers ranges n

end Ariel.Text
