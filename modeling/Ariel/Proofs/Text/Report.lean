import Ariel.Proofs.Text.Scan
import Ariel.Proofs.Text.Seam

/-!
# What a search reports

What a search reports, apart from the offsets, is put together from the parts of a text
(`reports_append`). How much it reports is the sum of what it reports in the parts even where it
reaches into the second part, provided that it reports there as much less (`length_reports_append`).
-/

namespace Ariel.Text

variable {α : Type} {p : Pattern α} {value : α} {front tail taken rest cs : List Char}
  {before : Option Char} {c : Char}

/-- What a search reports in a text that stands behind a character, from left to right. -/
def reports (p : Pattern α) (before : Option Char) (cs : List Char) : List α :=
  (occurrencesFrom p before 0 0 cs).map Occurrence.value

/-- In an empty text nothing is reported. -/
@[simp]
theorem reports_nil : reports p before [] = [] := rfl

/-- What is reported does not depend on the offset of the first character. -/
theorem values_occurrences_from (offset offset' skipped : Nat) :
    (occurrencesFrom p before offset skipped cs).map Occurrence.value =
      (occurrencesFrom p before offset' skipped cs).map Occurrence.value := by
  induction cs generalizing before offset offset' skipped with
  | nil => rfl
  | cons c cs ih =>
      cases skipped with
      | succ skipped => exact ih ..
      | zero =>
          rw [occurrencesFrom, occurrencesFrom]
          cases p before (c :: cs) with
          | none => exact ih ..
          | some found => exact congrArg (found.1 :: ·) (ih ..)

/-- What is found does not depend on the offset of the first character in its number. -/
theorem length_occurrences_from (offset offset' skipped : Nat) :
    (occurrencesFrom p before offset skipped cs).length =
      (occurrencesFrom p before offset' skipped cs).length := by
  rw [← List.length_map Occurrence.value, values_occurrences_from offset offset',
    List.length_map]

/-- A pattern occurs in a text where something is reported. -/
theorem occurs_eq : occurs p cs = !(reports p none cs).isEmpty := by
  rw [occurs, occurrences, reports, List.isEmpty_map]

/-- Where the pattern holds nowhere in a text, the report is that of the tail. -/
theorem reports_behind (h : Free p before front tail) :
    reports p before (front ++ tail) = reports p (front.getLast?.or before) tail := by
  rw [reports, occurrences_from_behind h, values_occurrences_from _ 0, reports]

/-- In a text in which the pattern holds nowhere, nothing is reported. -/
theorem reports_free (h : Free p before cs []) : reports p before cs = [] := by
  have hreports := reports_behind h
  rwa [List.append_nil, reports_nil] at hreports

/-- Where the pattern holds, it is reported first. -/
theorem reports_at (hne : taken ≠ []) (h : p before (taken ++ rest) = some (value, rest)) :
    reports p before (taken ++ rest) = value :: reports p (taken.getLast?.or before) rest := by
  rw [reports, occurrences_from_at hne h, List.map_cons, values_occurrences_from _ 0, reports]

/-- On two sides of a seam, the reports stand behind one another. -/
theorem reports_append (h : Seam p before front tail) :
    reports p before (front ++ tail) =
      reports p before front ++ reports p (front.getLast?.or before) tail := by
  rw [reports, occurrences_from_append h (Nat.zero_le _), List.map_append,
    values_occurrences_from (0 + _) 0, reports, reports]

/-- A pattern holds at a text only together with the first part of its tail. Nothing is reported in
the text then, and in the tail one thing more than behind that part. -/
def Reaches (p : Pattern α) (before : Option Char) (cs tail : List Char) : Prop :=
  ∃ value taken rest, tail = taken ++ rest ∧ taken ≠ [] ∧
    p before (cs ++ tail) = some (value, rest) ∧ reports p before cs = [] ∧
    (reports p (cs.getLast?.or before) tail).length =
      (reports p taken.getLast? rest).length + 1

/-- A pattern finds the same in a text with a tail behind it as without, or reaches into the
tail. -/
def LooseSeam (p : Pattern α) (before : Option Char) (front tail : List Char) : Prop :=
  ∀ start rest, front = start ++ rest → rest ≠ [] →
    p (start.getLast?.or before) (rest ++ tail) =
      (p (start.getLast?.or before) rest).map (fun found => (found.1, found.2 ++ tail)) ∨
    Reaches p (start.getLast?.or before) rest tail

/-- A loose seam stays where it is when the first character is taken away. -/
theorem LooseSeam.behind_first (h : LooseSeam p before (c :: front) tail) :
    LooseSeam p (some c) front tail := by
  intro start rest hsplit hne
  have hwhole : c :: front = (c :: start) ++ rest := by rw [hsplit, List.cons_append]
  have hfound := h (c :: start) rest hwhole hne
  rwa [last_cons_or] at hfound

/-- What reaches into the tail is reported in place of what begins the tail. -/
theorem Reaches.length_reports (h : Reaches p before cs tail) (hne : cs ≠ []) :
    (reports p before (cs ++ tail)).length =
      (reports p before cs).length + (reports p (cs.getLast?.or before) tail).length := by
  obtain ⟨value, taken, rest, rfl, htaken, hmatch, hnone, hcount⟩ := h
  have hlast : (cs ++ taken).getLast?.or before = taken.getLast? := by
    rw [List.getLast?_append_of_ne_nil _ htaken, List.getLast?_eq_some_getLast htaken]
    rfl
  rw [← List.append_assoc] at hmatch ⊢
  rw [reports_at (by simp [hne]) hmatch, hlast, hnone, hcount, List.length_cons, List.length_nil,
    Nat.zero_add]

/-- On two sides of a loose seam as much is found as in the two texts by themselves. -/
theorem length_occurrences_append {skipped : Nat} (h : LooseSeam p before front tail)
    (hskipped : skipped ≤ front.length) :
    (occurrencesFrom p before 0 skipped (front ++ tail)).length =
      (occurrencesFrom p before 0 skipped front).length +
        (reports p (front.getLast?.or before) tail).length := by
  induction front generalizing before skipped with
  | nil =>
      obtain rfl : skipped = 0 := Nat.le_zero.mp hskipped
      simp [reports, occurrencesFrom]
  | cons c front ih =>
      cases skipped with
      | succ skipped =>
          have hrest := ih h.behind_first (Nat.le_of_succ_le_succ hskipped)
          rw [last_cons_or, List.cons_append, occurrencesFrom, occurrencesFrom,
            length_occurrences_from _ 0, hrest, length_occurrences_from 0 (0 + c.utf8Size)]
      | zero =>
          rcases h [] (c :: front) rfl (by simp) with hseam | hreaches
          · have hhere : p before (c :: (front ++ tail)) =
                (p before (c :: front)).map fun found => (found.1, found.2 ++ tail) := hseam
            rw [last_cons_or, List.cons_append, occurrencesFrom, occurrencesFrom, hhere]
            cases p before (c :: front) with
            | none =>
                have hrest := ih h.behind_first (Nat.zero_le _)
                show (occurrencesFrom p (some c) _ 0 (front ++ tail)).length =
                  (occurrencesFrom p (some c) _ 0 front).length + _
                rw [length_occurrences_from _ 0, hrest, length_occurrences_from 0 (0 + c.utf8Size)]
            | some found =>
                obtain ⟨value, rest⟩ := found
                have hrest := ih h.behind_first (Nat.sub_le front.length rest.length)
                have hlength : (front ++ tail).length - (rest ++ tail).length =
                    front.length - rest.length := by
                  rw [List.length_append, List.length_append, Nat.add_sub_add_right]
                show (occurrencesFrom p (some c) _ ((front ++ tail).length - (rest ++ tail).length)
                    (front ++ tail)).length + 1 =
                  (occurrencesFrom p (some c) _ (front.length - rest.length) front).length + 1 + _
                rw [hlength, length_occurrences_from _ 0, hrest,
                  length_occurrences_from 0 (0 + c.utf8Size)]
                omega
          · have hhere : Reaches p before (c :: front) tail := hreaches
            have hcount := hhere.length_reports (List.cons_ne_nil _ _)
            simp only [reports, List.length_map] at hcount ⊢
            exact hcount

/-- On two sides of a loose seam as much is reported as in the two texts by themselves. -/
theorem length_reports_append (h : LooseSeam p before front tail) :
    (reports p before (front ++ tail)).length =
      (reports p before front).length + (reports p (front.getLast?.or before) tail).length := by
  have hlength := length_occurrences_append h (Nat.zero_le _)
  simp only [reports, List.length_map] at hlength ⊢
  exact hlength

end Ariel.Text
