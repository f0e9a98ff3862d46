import Ariel.Proofs.Validation.Likeness.Basic
import Ariel.Proofs.Validation.Pattern

/-!
# The comparisons of queries that are alike

What the checks of comparisons quote is an operator with its literal. In a text that is wrapped in
front of words only, such a quotation is the same.
-/

namespace Ariel.Text.Likeness

open Ariel.Validation

variable {l : Likeness} {cs ds rest : List Char} {operator : String} {before : Option Char}

theorem respects_malformed_operator : l.Respects Eq malformedOperator := fun _ h =>
  rel_find_some fun entry hentry =>
    rel_map (alike_literal h (by revert entry; decide)) fun h => ⟨rfl, h⟩

theorem comparison_operators_eq (h : l.Alike cs ds) :
    comparisonOperators cs = comparisonOperators ds := by
  rw [comparisonOperators, comparisonOperators, occurrences_eq respects_malformed_operator h]

/-- A comparison with an operator and a literal. -/
def SameCompared (l : Likeness) : String × List Char → String × List Char → Prop :=
  fun x y => x.1 = y.1 ∧ l.Alike x.2 y.2

theorem alike_compared_literal (h : l.Alike cs ds) :
    Option.Rel (l.Found l.SameCompared) (comparedLiteral? cs) (comparedLiteral? ds) :=
  rel_find_some fun operator hoperator =>
    rel_bind (alike_literal h (by revert operator; decide)) fun h =>
      rel_bind (alike_quoted_text (alike_drop_blanks h)) fun h => .some ⟨⟨rfl, h.1⟩, h.2⟩

/-- A comparison, with the size of the character before its operator. -/
def SameEquality (l : Likeness) : Nat × String × List Char → Nat × String × List Char → Prop :=
  fun x y => x.1 = y.1 ∧ l.SameCompared x.2 y.2

theorem alike_compared_behind (h : l.Alike cs ds) :
    Option.Rel (l.Found l.SameEquality) (comparedBehind? cs) (comparedBehind? ds) := by
  have hmarks : Marks ['<', '>', '!', '='] := by decide
  have hlonger : Blind (['<', '>', '!', '='].contains ·) :=
    blind_of_marks fun c hc => hmarks c (List.contains_iff_mem.mp hc)
  cases h with
  | nil => exact .none
  | cons hlike hrest =>
      rw [comparedBehind?, comparedBehind?, hlike.eq_of_blind hlonger]
      split
      · exact .none
      · have hsize := hlike.eq_of_blind blind_utf8_size
        exact rel_map (alike_compared_literal hrest) fun hfound => ⟨⟨hsize, hfound.1⟩, hfound.2⟩

theorem respects_equality_with_literal : l.Respects l.SameEquality equalityWithLiteral := by
  intro before before' cs ds hbefore h
  have hnone : before.isNone = before'.isNone := by
    rw [← Option.not_isSome, is_some_eq_of_rel hbefore, Option.not_isSome]
  rw [equality_with_literal_eq, equality_with_literal_eq, hnone]
  refine rel_or ?_ (alike_compared_behind h)
  split
  · exact rel_map (alike_compared_literal h) fun hfound => ⟨⟨rfl, hfound.1⟩, hfound.2⟩
  · exact .none

theorem wildcard_with_equals_eq (h : l.Alike cs ds) :
    wildcardWithEquals cs = wildcardWithEquals ds := by
  refine filter_map_eq (occurrences_beside respects_equality_with_literal h) ?_
  intro found found' hbeside
  obtain ⟨hoffset, hgap, hoperator, htext⟩ := hbeside
  have hpercent := contains_eq '%' htext (by decide) (by decide)
  simp only [hoffset, hgap, hoperator, hpercent]

theorem alike_matching_operator (h : l.Alike cs ds) (hoperator : Filled operator.toList) :
    Option.Rel l.Alike (matchingOperator? operator cs) (matchingOperator? operator ds) :=
  rel_or (alike_any_case h (filled_cons.mpr ⟨by decide, hoperator⟩))
    (alike_any_case h hoperator)

theorem respects_matched_literal (hoperator : Filled operator.toList) :
    l.Respects l.Alike (matchedLiteral operator) := fun hbefore h =>
  rel_guard (begins_word_eq hbefore) <|
    rel_bind (alike_matching_operator h hoperator) fun h =>
      rel_bind (alike_blanks h) fun h => alike_quoted_text h

theorem like_without_wildcard_eq (h : l.Alike cs ds) :
    likeWithoutWildcard cs = likeWithoutWildcard ds := by
  have hwildcard : Blind fun c => c == '%' || c == '_' :=
    (blind_mark (by decide) (by decide)).pair (blind_mark (by decide) (by decide)) _
  refine filter_map_eq (occurrences_beside (respects_matched_literal (by decide)) h) ?_
  intro found found' hbeside
  simp only [hbeside.1, any_eq hbeside.2 hwildcard]

/-- A matching operator with its literal: a word, blanks, and a quotation. -/
theorem matched_literal_split {text : List Char} (hoperator : Filled operator.toList)
    (h : matchedLiteral operator before cs = some (text, rest)) :
    ∃ word gap, cs = word ++ (gap ++ ('\'' :: text ++ ['\''] ++ rest)) ∧
      Filled word ∧ ∀ c ∈ gap, isBlank c = true := by
  simp only [matchedLiteral, bind, Option.bind_eq_some_iff] at h
  obtain ⟨-, -, after, hmatching, tail, hgap, hquoted⟩ := h
  obtain ⟨gap, rfl, -, hblank, -⟩ := blanks_eq_some_iff.mp hgap
  obtain ⟨rfl, -⟩ := quoted_text_eq_some_iff.mp hquoted
  have hletters : Filled ('I' :: operator.toList) := filled_cons.mpr ⟨by decide, hoperator⟩
  obtain ⟨word, rfl, hword⟩ : ∃ word, cs = word ++ (gap ++ ('\'' :: text ++ '\'' :: rest)) ∧
      Filled word := by
    rcases Option.or_eq_some_iff.mp hmatching with hcase | ⟨-, hcase⟩
    · obtain ⟨word, hword, heq⟩ := any_case_eq_some_iff.mp hcase
      exact ⟨word, heq, filled_of_letters hletters hword⟩
    · obtain ⟨word, hword, heq⟩ := any_case_eq_some_iff.mp hcase
      exact ⟨word, heq, filled_of_letters hoperator hword⟩
  exact ⟨word, gap, by simp, hword, hblank⟩

/-- What stands in front of a tail goes up to each tail of its length. -/
theorem up_to_of_length {front tail rest : List Char} (h : tail.length = rest.length) :
    upTo tail (front ++ rest) = front := by
  simp [upTo, h]

/-- In a text that is wrapped in front of words only, an operator is quoted with its literal as in
the other one, when the literal has no blanks. -/
theorem respects_matches_everything {everything : List Char → Bool}
    (hoperator : Filled operator.toList)
    (halike : ∀ {t u}, l.Alike t u → everything t = everything u)
    (hfilled : ∀ t, everything t = true → Filled t) :
    l.RespectsOn l.Wraps l.Same (matchesEverything operator everything) := by
  intro before before' cs ds hbefore h
  unfold matchesEverything
  rcases rel_cases (respects_matched_literal hoperator hbefore h.alike) with
    ⟨hcs, hds⟩ | ⟨⟨text, rest⟩, ⟨text', rest'⟩, hcs, hds, htext, hrest⟩
  · rw [hcs, hds]
    exact .none
  · rw [hcs, hds]
    dsimp only [bind, Option.bind_some]
    cases heverything : everything text with
    | false =>
        rw [← halike htext, heverything]
        exact .none
    | true =>
        rw [← halike htext, heverything]
        refine .some ⟨?_, hrest⟩
        obtain ⟨word, gap, rfl, hword, hgap⟩ := matched_literal_split hoperator hcs
        obtain ⟨word', behind, rfl, hword', h⟩ := h.split_filled hword
        obtain ⟨gap', behind, rfl, hgap', h⟩ := h.split_gap hgap (by rfl)
        have hquoted : Filled ('\'' :: text ++ ['\'']) := by
          rw [filled_append, filled_cons]
          exact ⟨⟨by decide, hfilled text heverything⟩, by decide⟩
        obtain ⟨quoted', behind, rfl, hquoted', h⟩ := h.split_filled hquoted
        have hlength : rest'.length = behind.length :=
          hrest.length_eq.symm.trans h.alike.length_eq
        have hsplit : ∀ word gap quoted rest : List Char,
            word ++ (gap ++ (quoted ++ rest)) = word ++ gap ++ quoted ++ rest := by simp
        dsimp only
        rw [hsplit, hsplit, up_to_of_length rfl, up_to_of_length hlength]
        exact List.rel_append (List.rel_append hword' hgap') hquoted'

theorem same_matches_everything (operator : String) (everything : List Char → Bool)
    (hoperator : Filled operator.toList)
    (halike : ∀ {t u}, l.Alike t u → everything t = everything u)
    (hfilled : ∀ t, everything t = true → Filled t) (h : l.Wraps cs ds) :
    List.Forall₂ (Beside l.Same) (occurrences (matchesEverything operator everything) cs)
      (occurrences (matchesEverything operator everything) ds) :=
  occurrences_from_beside (T := l.Wraps) (respects_matches_everything hoperator halike hfilled)
    (fun h => h.alike) (fun h => h.tail) .none h 0 0

/-- A pattern of nothing but wildcards. -/
theorem same_matches_percents (h : l.Wraps cs ds) : List.Forall₂ (Beside l.Same)
    (occurrences (matchesEverything "LIKE" fun t => !t.isEmpty && t.all (· == '%')) cs)
    (occurrences (matchesEverything "LIKE" fun t => !t.isEmpty && t.all (· == '%')) ds) := by
  refine same_matches_everything _ _ (by decide) (fun {t u} htext => ?_) (fun t ht c hc => ?_) h
  · rw [is_empty_eq htext, all_eq htext (blind_mark (by decide) (by decide))]
  · rw [Bool.and_eq_true, List.all_eq_true] at ht
    rw [eq_of_beq (ht.2 c hc)]
    decide

/-- The regular expression of everything. -/
theorem same_matches_any (h : l.Wraps cs ds) : List.Forall₂ (Beside l.Same)
    (occurrences (matchesEverything "MATCHES" (· == ['.', '*'])) cs)
    (occurrences (matchesEverything "MATCHES" (· == ['.', '*'])) ds) := by
  refine same_matches_everything _ _ (by decide) (fun {t u} htext => ?_) (fun t ht => ?_) h
  · rw [Bool.eq_iff_iff, beq_iff_eq, beq_iff_eq]
    exact marks_eq_iff htext (by decide)
  · rw [eq_of_beq ht]
    decide

theorem match_all_patterns_same (h : l.Wraps cs ds) :
    l.SameRemarks (matchAllPatterns cs (mask cs)) (matchAllPatterns ds (mask ds)) := by
  have hlimit : l.Respects Eq (wholeWord "LIMIT") := respects_whole_word (by decide)
  have hmask := alike_mask h.alike
  have hmatching := List.rel_append (same_matches_percents h) (same_matches_any h)
  dsimp only [matchAllPatterns]
  rw [first_occurrence_eq ?select hmask, occurs_eq hlimit hmask]
  · refine List.rel_append (same_sort (List.rel_map ?_ hmatching)) (same_remarks_refl _)
    intro found found' hbeside
    exact (same_message (same_quotation _ _ hbeside.2)).placed hbeside.1
  case select =>
    exact fun hbefore h =>
      rel_bind (respects_word_start (by decide) hbefore h) fun h =>
        rel_bind (alike_blanks h.2) fun h =>
          rel_bind (alike_literal h (by decide)) fun h => .some ⟨rfl, h⟩

end Ariel.Text.Likeness
