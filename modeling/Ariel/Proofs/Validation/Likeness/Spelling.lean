import Ariel.Proofs.Validation.Likeness.Comparison
import Ariel.Proofs.Validation.Likeness.Outline
import Ariel.Validation.Check.Spelling

/-!
# The spelling of queries that are alike

Words and names are looked up by their capitals, and quoted as they are written. They hold no
blanks, so that they are the same in texts that are alike.
-/

namespace Ariel.Text.Likeness

open Ariel.Validation Ariel.Catalog

variable {l : Likeness} {cs ds : List Char}

/-- A word that is quoted, and what is meant. -/
def SameTypo (l : Likeness) : List Char × String → List Char × String → Prop :=
  fun x y => l.Same x.1 y.1 ∧ x.2 = y.2

theorem respects_typo : l.Respects l.SameTypo typo := fun hbefore h =>
  have hword := same_of_alike (alike_take_while h blind_is_word_character) fun _ hc =>
    is_blank_of_word_character (List.mem_takeWhile_imp hc)
  rel_guard (begins_word_eq hbefore) <|
    rel_bind (rel_of_eq (congrArg (typos.lookup <| String.ofList ·) (capitals_eq hword)))
      fun hmeant => .some ⟨⟨hword, hmeant⟩, alike_drop_while h blind_is_word_character⟩

theorem common_typos_same (h : l.Alike cs ds) :
    l.SameRemarks (commonTypos cs) (commonTypos ds) := by
  refine List.rel_map ?_ (occurrences_beside respects_typo h)
  intro found found' hbeside
  obtain ⟨hoffset, hword, hmeant⟩ := hbeside
  have hmessage := same_text_append (same_text_append (same_quotation "Possible typo '"
    "': did you mean '" hword) (same_refl_text found.value.2.toList)) (same_refl_text "'?".toList)
  show l.SameRemark ((possibleTypo found.value.1 found.value.2).placed found.offset)
    ((possibleTypo found'.value.1 found'.value.2).placed found'.offset)
  rw [← hmeant]
  exact (same_message hmessage).placed hoffset

theorem alike_qualified_name (h : l.Alike cs ds) :
    Option.Rel (l.Found l.Same) (qualifiedName? cs) (qualifiedName? ds) := by
  refine rel_bind (alike_name h) ?_
  intro found found' hfound
  obtain ⟨name, rest⟩ := found
  obtain ⟨name', rest'⟩ := found'
  obtain ⟨hname, hrest⟩ := hfound
  have hliteral : Option.Rel l.Alike (literal? "::" rest) (literal? "::" rest') :=
    alike_literal hrest (by decide)
  rcases rel_cases (rel_bind hliteral alike_name) with
    ⟨hcs, hds⟩ | ⟨⟨second, behind⟩, ⟨second', behind'⟩, hcs, hds, hsecond, hbehind⟩
  · simp only [bind] at hcs hds
    simp only [hcs, hds]
    exact .some ⟨hname, hrest⟩
  · simp only [bind] at hcs hds
    simp only [hcs, hds]
    exact .some ⟨List.rel_append (List.rel_append hname (same_refl_text _)) hsecond, hbehind⟩

theorem respects_call : l.Respects l.Same call := fun hbefore h =>
  rel_guard (begins_word_eq hbefore) <|
    rel_bind (alike_qualified_name h) fun hname =>
      rel_bind (alike_literal (alike_drop_blanks hname.2) (by decide)) fun h => .some ⟨hname.1, h⟩

/-- The first calls of unknown functions correspond, since functions are known by their capitals. -/
theorem unknown_calls_beside {calls others : List (Occurrence (List Char))}
    (h : List.Forall₂ (Beside l.Same) calls others) (seen : List String) :
    List.Forall₂ (Beside l.Same) (unknownCalls seen calls) (unknownCalls seen others) := by
  induction h generalizing seen with
  | nil => exact .nil
  | cons hbeside _ ih =>
      simp only [unknownCalls, capitals_eq hbeside.2]
      split
      · exact ih seen
      · exact .cons hbeside (ih _)

theorem unknown_functions_same (h : l.Alike cs ds) :
    l.SameRemarks (unknownFunctions cs) (unknownFunctions ds) := by
  refine List.rel_map ?_ (unknown_calls_beside (occurrences_beside respects_call h) [])
  intro found found' hbeside
  exact (same_message (same_quotation _ _ hbeside.2)).placed hbeside.1

theorem alike_matching_word {operator : String} {before before' : Option Char}
    (hoperator : Filled operator.toList)
    (hbefore : Option.Rel l.like before before') (h : l.Alike cs ds) :
    Option.Rel l.Alike (matchingWord? operator before cs) (matchingWord? operator before' ds) :=
  rel_guard (begins_word_eq hbefore) <|
    rel_bind (alike_matching_operator h hoperator) fun h => rel_guard (ends_word_eq h) (.some h)

theorem alike_value_operator {operator : Option Char → List Char → Option (List Char)}
    (hmem : operator ∈ valueOperators) {before before' : Option Char}
    (hbefore : Option.Rel l.like before before') (h : l.Alike cs ds) :
    Option.Rel l.Alike (operator before cs) (operator before' ds) := by
  rcases List.mem_append.mp hmem with hmem | hmem
  · have hmarks : ∀ text ∈ ["!=", "<>", "<=", ">=", "=", "<", ">"], Marks text.toList := by decide
    obtain ⟨text, htext, rfl⟩ := List.mem_map.mp hmem
    exact alike_literal h (hmarks text htext)
  · rcases List.mem_pair.mp hmem with rfl | rfl
    · exact alike_matching_word (by decide) hbefore h
    · exact alike_matching_word (by decide) hbefore h

theorem respects_double_quoted_value : l.Respects Eq doubleQuotedValue := fun hbefore h =>
  rel_find_some fun operator hoperator =>
    rel_bind (alike_value_operator hoperator hbefore h) fun hrest =>
      have hquote := alike_drop_blanks hrest
      rel_bind (alike_literal hquote (by decide)) fun hbehind =>
        .some ⟨bytes_up_to_eq hquote h, hbehind⟩

theorem double_quoted_literals_eq (h : l.Alike cs ds) :
    doubleQuotedLiterals cs = doubleQuotedLiterals ds := by
  rw [doubleQuotedLiterals, doubleQuotedLiterals, occurrences_eq respects_double_quoted_value h]

end Ariel.Text.Likeness
