import Ariel.Proofs.Validation.Likeness

/-!
# Letter case

The eighteen checks recognise words in four ways: in the capitals of a mask, in any written form of
a letter, by classes of characters, and in catalogues of names. None of them tells a small ASCII
letter from its capital. So two queries that differ in ASCII letter case only get the same findings,
up to the case of what these quote: `validate_ignoring_case`.
-/

namespace Ariel.Validation

open Ariel.Text

/-- The finding with its message and its excerpt in capitals. -/
def Finding.inCapitals (finding : Finding) : Finding :=
  { finding with message := upper finding.message, excerpt := finding.excerpt.map upper }

/-- A letter may stand for the same letter in the other case. -/
def letterCase : Likeness where
  same c d := c.toUpper = d.toUpper
  wrapped _ _ := False
  same_refl _ := rfl
  to_upper_eq h := h
  blank_left h := h.elim
  blank_right h := h.elim
  size_eq h := h.elim

variable {cs ds : List Char} {s t : String}

/-- Texts are the same up to letter case when their capitals are equal. -/
theorem letter_case_same_iff : letterCase.Same cs ds ↔ capitals cs = capitals ds := by
  rw [capitals, capitals, ← List.forall₂_eq_eq_eq, List.forall₂_map_left_iff,
    List.forall₂_map_right_iff]
  rfl

theorem upper_eq_iff : upper s = upper t ↔ letterCase.Same s.toList t.toList := by
  rw [letter_case_same_iff, upper, upper, String.ofList_inj]

/-- No blank is wrapped where only letter case differs. -/
theorem same_of_letter_case_alike (h : letterCase.Alike cs ds) : letterCase.Same cs ds :=
  h.imp fun _ _ hlike => hlike.resolve_right id

/-- What is the same up to letter case is wrapped nowhere. -/
theorem wraps_of_letter_case (h : letterCase.Same cs ds) : letterCase.Wraps cs ds := by
  induction h with
  | nil => exact .nil
  | cons hsame _ ih => exact .same hsame ih

/-- Findings that are the same up to letter case are the same in capitals. -/
theorem in_capitals_eq {finding other : Finding} (h : letterCase.SameFinding finding other) :
    finding.inCapitals = other.inCapitals := by
  have hmessage : upper finding.message = upper other.message := upper_eq_iff.mpr h.message
  have hexcerpt : finding.excerpt.map upper = other.excerpt.map upper := by
    rcases rel_cases h.excerpt with ⟨hnone, hnone'⟩ | ⟨s, t, hs, ht, halike⟩
    · rw [hnone, hnone']
    · rw [hs, ht, Option.map_some, Option.map_some,
        upper_eq_iff.mpr (same_of_letter_case_alike halike)]
  simp only [Finding.inCapitals, h.check, h.severity, hmessage, h.position, hexcerpt]

/-- Queries with the same capitals get the same findings in the same order: the checks, severities
and positions are equal, and messages and excerpts are equal up to letter case. -/
theorem validate_ignoring_case {query other : String} (h : upper query = upper other) :
    (validate query).findings.map Finding.inCapitals =
      (validate other).findings.map Finding.inCapitals := by
  have hwraps := wraps_of_letter_case (upper_eq_iff.mp h)
  have hfindings := Likeness.findings_same Check.all hwraps
  rw [← List.forall₂_eq_eq_eq]
  refine List.rel_map ?_ hfindings
  exact fun _ _ => in_capitals_eq

/-- A misspelled keyword and an unknown table, in small letters and in mixed ones. -/
theorem validate_ignoring_case_of_misspelled :
    upper "selct é from nowhere" = upper "SELCT é From NOWHERE" ∧
    (validate "selct é from nowhere").findings.map (·.check) =
      [.leadingSelect, .fromClause, .commonTypos, .timeClause] ∧
    (validate "selct é from nowhere").findings.map Finding.inCapitals =
      (validate "SELCT é From NOWHERE").findings.map Finding.inCapitals :=
  ⟨by decide, by decide +kernel, validate_ignoring_case (by decide)⟩

end Ariel.Validation
