import Ariel.Proofs.Text.Cover
import Ariel.Proofs.Text.Run
import Ariel.Proofs.Validation.Comparison
import Ariel.Proofs.Validation.Fragment

/-!
# Operators that do not exist

At each place the check of comparison operators takes the first operator of its list that fits, and
goes on behind it. Operators overlap, so an operator that would fit may begin within another one and
is passed over. What is found lies in maximal runs of operator characters all the same, in every
malformed run and in no other one (`comparison_operators_found`).
-/

namespace Ariel.Validation

open Ariel.Text

variable {before : Option Char} {cs rest text run : List Char} {offset : Nat}
  {operator : String × String} {next : Occurrence (String × String)}

/-- An operator that does not exist, with its correction, stands in a text at the place where it is
found. -/
def StandsMisspelled (text : List Char) (next : Occurrence (String × String)) : Prop :=
  next.value ∈ malformedOperators ∧
    ∃ front tail, text = front ++ (next.value.1.toList ++ tail) ∧ byteLength front = next.offset

/-- An operator that does not exist. It reports the operator and its correction. -/
def misspelled : Pattern (String × String) := fun _ cs =>
  malformedOperators.findSome? fun operator =>
    (literal? operator.1 cs).map fun rest => (operator, rest)

section Search

/-- Operators that do not exist are written in the characters of operators. -/
theorem operator_characters_of_mem (h : operator ∈ malformedOperators) :
    ∀ c ∈ operator.1.toList, operatorCharacters.contains c = true := by
  have hall : ∀ operator ∈ malformedOperators,
      operator.1.toList.all operatorCharacters.contains = true := by decide
  exact List.all_eq_true.mp (hall operator h)

/-- The check reports the corrections of the misspelled operators. -/
theorem malformed_operator_eq : malformedOperator before cs =
    (misspelled before cs).map fun found => (found.1.2, found.2) := by
  rw [malformedOperator, misspelled, List.map_findSome?]
  simp only [Function.comp_def, Option.map_map]

theorem comparison_operators_eq : comparisonOperators text =
    (occurrences misspelled text).map fun next =>
      (Remark.error next.value.2).placed next.offset := by
  have hsame : occurrences malformedOperator text =
      (occurrences misspelled text).map fun next => ⟨next.offset, next.value.2⟩ :=
    occurrences_from_map fun before cs => malformed_operator_eq
  rw [comparisonOperators, hsame, List.map_map]
  rfl

/-- What is found is an operator of the list, and its characters are taken. -/
theorem mem_of_misspelled (h : misspelled before cs = some (operator, rest)) :
    operator ∈ malformedOperators ∧ cs = operator.1.toList ++ rest := by
  obtain ⟨pair, hmem, hfound⟩ := List.exists_of_findSome?_eq_some h
  obtain ⟨rest', hliteral, hsame⟩ := Option.map_eq_some_iff.mp hfound
  obtain ⟨rfl, rfl⟩ := Prod.mk.inj hsame
  exact ⟨hmem, literal_eq_some_iff.mp hliteral⟩

/-- An operator takes some characters. -/
theorem consumes_misspelled : Consumes misspelled := by
  intro before cs operator rest h
  obtain ⟨hmem, rfl⟩ := mem_of_misspelled h
  refine ⟨operator.1.toList, ?_, rfl⟩
  obtain ⟨front, c, tail, hsplit, -⟩ := malformed_of_mem hmem
  simp [hsplit]

/-- What is found stands in the text. -/
theorem stands_misspelled (h : next ∈ occurrences misspelled text) :
    StandsMisspelled text next := by
  obtain ⟨front, taken, rest, rfl, -, hplace, hholds⟩ := taken_of_occurrence consumes_misspelled h
  obtain ⟨hmem, htaken⟩ := mem_of_misspelled hholds
  exact ⟨hmem, front, rest, by rw [htaken], hplace.symm⟩

/-- Within a run that is malformed an operator is found. -/
theorem exists_within (h : RunAt operatorCharacters.contains text offset run)
    (hmalformed : Malformed run) : ∃ next ∈ occurrences misspelled text,
      Within offset run next.offset next.value.1.toList := by
  obtain ⟨front, c, tail, rfl, hc⟩ := hmalformed
  obtain ⟨-, -, start, stop, rfl, rfl, -⟩ := id h
  obtain ⟨⟨correction, rest⟩, hfound⟩ : ∃ found, malformedOperator (start ++ front).getLast?
      ('=' :: c :: (tail ++ stop)) = some found := malformed_of_equals hc (tail ++ stop)
  rw [malformed_operator_eq] at hfound
  obtain ⟨⟨operator, rest'⟩, hmatch, -⟩ := Option.map_eq_some_iff.mp hfound
  -- The operator that is found there, or spans the place, shares it with the run.
  obtain ⟨next, hnext, ahead, passed, left, behind, hahead, hleft, hne, hplace, hholds⟩ :=
    occurrence_covering consumes_misspelled hmatch
  obtain ⟨hmem, htaken⟩ := mem_of_misspelled hholds
  have hoperator : passed ++ left = next.value.1.toList := by
    rw [← List.append_assoc] at htaken
    exact List.append_cancel_right htaken
  have htext : start ++ ((front ++ '=' :: c :: tail) ++ stop) =
      (start ++ front) ++ '=' :: c :: (tail ++ stop) := by simp
  rw [htext] at h ⊢
  refine ⟨next, hnext, ?_⟩
  rw [hahead, hleft, List.append_assoc, ← List.append_assoc passed, hoperator] at h
  have hbytes := congrArg byteLength hahead
  have hlength := congrArg byteLength hoperator
  have hpos := byte_length_pos hne
  simp only [byte_length_append] at hbytes hlength
  rw [hplace]
  refine h.holds_part (byteLength start + byteLength front)
    (operator_characters_of_mem hmem) (by omega) ?_ (by omega) ?_
  · rw [byte_length_append]
    omega
  · have := '='.utf8Size_pos
    rw [byte_length_append, byte_length_cons]
    omega

/-- A run in which an operator stands is malformed. -/
theorem malformed_of_within (h : RunAt operatorCharacters.contains text offset run)
    (hstands : StandsMisspelled text next)
    (hwithin : Within offset run next.offset next.value.1.toList) : Malformed run := by
  obtain ⟨-, -, start, stop, hsplit, rfl, -⟩ := h
  obtain ⟨hmem, front, tail, rfl, hplace⟩ := hstands
  rw [Within, ← hplace] at hwithin
  obtain ⟨more, rfl, hmore⟩ := split_behind_of_le hsplit.symm hwithin.1
  have hpart : (more ++ next.value.1.toList) ++ tail = run ++ stop := by
    rw [hmore, List.append_assoc]
  obtain ⟨right, rfl, -⟩ := split_behind_of_le hpart (by
    have hend := hwithin.2
    simp only [byte_length_append] at hend ⊢
    omega)
  rw [List.append_assoc]
  exact (malformed_of_mem hmem).append more right

/-- Around an operator that is found stands a run of operator characters. -/
theorem exists_run_of_stands (h : StandsMisspelled text next) :
    ∃ offset run, RunAt operatorCharacters.contains text offset run ∧
      Within offset run next.offset next.value.1.toList := by
  obtain ⟨hmem, front, tail, rfl, hplace⟩ := h
  have hne : next.value.1.toList ≠ [] := by
    obtain ⟨start, c, stop, hsplit, -⟩ := malformed_of_mem hmem
    simp [hsplit]
  obtain ⟨offset, run, hrun, hwithin⟩ :=
    exists_run_around hne (operator_characters_of_mem hmem)
  rw [hplace] at hwithin
  exact ⟨offset, run, hrun, hwithin⟩

end Search

/-- The check of comparison operators finds operators of its list in the mask of a query, one behind
the end of the other, and each lies in a maximal run of operator characters. They lie in every run
in which an equals sign is followed by what must not follow it, and in no other run. Nothing is
found exactly when no equals sign outside of literals is followed by such a character. -/
theorem comparison_operators_found (query : List Char) :
    ∃ found : List (Occurrence (String × String)),
      remarksOf .comparisonOperators query =
        found.map (fun next => (Remark.error next.value.2).placed next.offset) ∧
      (∀ next ∈ found, StandsMisspelled (mask query) next) ∧
      found.Pairwise (fun next later =>
        next.offset + byteLength next.value.1.toList ≤ later.offset) ∧
      (∀ next ∈ found, ∃ offset run,
        RunAt operatorCharacters.contains (mask query) offset run ∧
          Within offset run next.offset next.value.1.toList) ∧
      (∀ offset run, RunAt operatorCharacters.contains (mask query) offset run →
        (Malformed run ↔ ∃ next ∈ found, Within offset run next.offset next.value.1.toList)) ∧
      (remarksOf .comparisonOperators query = [] ↔
        ∀ before c after, query = before ++ '=' :: c :: after → Even (before.count '\'') →
          c ∉ afterEquals) := by
  refine ⟨occurrences misspelled (mask query), comparison_operators_eq,
    fun next hnext => stands_misspelled hnext, ?_,
    fun next hnext => exists_run_of_stands (stands_misspelled hnext), fun offset run hrun => ?_,
    comparison_operators_eq_nil_iff⟩
  · refine (occurrences_apart consumes_misspelled).imp_of_mem fun {next later} hnext _ hapart => ?_
    obtain ⟨front, taken, rest, hsplit, -, hplace, hholds⟩ :=
      taken_of_occurrence consumes_misspelled hnext
    have hoperator : taken = next.value.1.toList :=
      List.append_cancel_right (mem_of_misspelled hholds).2
    have hle := hapart front taken rest hsplit hplace hholds
    rwa [byte_length_append, ← hplace, hoperator] at hle
  · constructor
    · exact exists_within hrun
    · rintro ⟨next, hnext, hwithin⟩
      exact malformed_of_within hrun (stands_misspelled hnext) hwithin

end Ariel.Validation
