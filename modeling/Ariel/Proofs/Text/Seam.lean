import Ariel.Proofs.Text.Pattern

/-!
# Texts put together

A pattern has a seam between a text and the tail behind it when it finds in the text the same with
the tail and without. What occurs in the whole then occurs in the text or in the tail
(`occurrences_from_append`), and nothing occurs across the seam.
-/

namespace Ariel.Text

variable {α : Type} {p : Pattern α} {front tail : List Char} {before : Option Char} {c : Char}

/-- A pattern finds the same in a text with a tail behind it as without, and leaves the tail. -/
def Seam (p : Pattern α) (before : Option Char) (front tail : List Char) : Prop :=
  ∀ start rest, front = start ++ rest → rest ≠ [] →
    p (start.getLast?.or before) (rest ++ tail) =
      (p (start.getLast?.or before) rest).map fun found => (found.1, found.2 ++ tail)

/-- At the front of a text, the pattern finds the same with the tail behind it. -/
theorem Seam.at_front (h : Seam p before (c :: front) tail) :
    p before (c :: (front ++ tail)) =
      (p before (c :: front)).map fun found => (found.1, found.2 ++ tail) :=
  h [] (c :: front) rfl (by simp)

/-- A seam stays where it is when the first character is taken away. -/
theorem Seam.behind_first (h : Seam p before (c :: front) tail) : Seam p (some c) front tail := by
  intro start rest hsplit hne
  have hwhole : c :: front = (c :: start) ++ rest := by rw [hsplit, List.cons_append]
  have hfound := h (c :: start) rest hwhole hne
  rwa [last_cons_or] at hfound

/-- What occurs in two texts with a seam between them occurs in the first or in the second. -/
theorem occurrences_from_append {skipped : Nat} (h : Seam p before front tail)
    (hskipped : skipped ≤ front.length) (offset : Nat) :
    occurrencesFrom p before offset skipped (front ++ tail) =
      occurrencesFrom p before offset skipped front ++
        occurrencesFrom p (front.getLast?.or before) (offset + byteLength front) 0 tail := by
  induction front generalizing before offset skipped with
  | nil =>
      obtain rfl : skipped = 0 := Nat.le_zero.mp hskipped
      rfl
  | cons c front ih =>
      have hoffset : offset + byteLength (c :: front) =
          offset + c.utf8Size + byteLength front := by
        rw [byte_length_cons, Nat.add_assoc]
      rw [last_cons_or, hoffset, List.cons_append]
      cases skipped with
      | succ skipped =>
          rw [occurrencesFrom, occurrencesFrom]
          exact ih h.behind_first (Nat.le_of_succ_le_succ hskipped) _
      | zero =>
          rw [occurrencesFrom, occurrencesFrom, h.at_front]
          cases p before (c :: front) with
          | none => exact ih h.behind_first (Nat.zero_le _) _
          | some found =>
              obtain ⟨value, rest⟩ := found
              have hlength : (front ++ tail).length - (rest ++ tail).length =
                  front.length - rest.length := by
                rw [List.length_append, List.length_append, Nat.add_sub_add_right]
              show _ :: occurrencesFrom p (some c) _
                ((front ++ tail).length - (rest ++ tail).length) (front ++ tail) = _
              rw [hlength, ih h.behind_first (Nat.sub_le _ _)]
              rfl

/-- A word stands across the place between two texts. -/
def Straddles (word front tail : List Char) : Prop :=
  ∃ left right, word = left ++ right ∧ left ≠ [] ∧ right ≠ [] ∧ left <:+ front ∧ right <+: tail

/-- A word whose last character is not in the tail does not reach into it. -/
theorem not_straddles_of_last {word : List Char} {c : Char} (hlast : word.getLast? = some c)
    (htail : c ∉ tail) : ¬ Straddles word front tail := by
  rintro ⟨left, right, rfl, -, hright, -, hbegins⟩
  rw [List.getLast?_append_of_ne_nil _ hright] at hlast
  exact htail (hbegins.subset (List.mem_of_getLast? hlast))

/-- A word whose first character is not in the front does not begin in it. -/
theorem not_straddles_of_first {word : List Char} {c : Char} (hfirst : word.head? = some c)
    (hfront : c ∉ front) : ¬ Straddles word front tail := by
  rintro ⟨left, right, rfl, hleft, -, hsuffix, -⟩
  rw [List.head?_append_of_ne_nil _ hleft] at hfirst
  exact hfront (hsuffix.subset (List.mem_of_mem_head? hfirst))

/-- A word does not stand across a character that it does not hold. -/
theorem not_straddles_of_wall {word : List Char} {c : Char} (hlast : front.getLast? = some c)
    (hword : c ∉ word) : ¬ Straddles word front tail := by
  rintro ⟨left, right, rfl, hleft, -, ⟨start, rfl⟩, -⟩
  rw [List.getLast?_append_of_ne_nil _ hleft] at hlast
  exact hword (List.mem_append_left _ (List.mem_of_getLast? hlast))

end Ariel.Text
