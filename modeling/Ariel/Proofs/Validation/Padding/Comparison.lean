import Ariel.Proofs.Validation.Padding.Basic
import Ariel.Proofs.Validation.Pattern

/-!
# The comparisons of a query with blanks around it

A comparison with an operator for equality is found one character before its operator, which may be
a blank in front of the text. Its operator stands behind that blank all the same, and it is the
operator that is reported (`operators_in_front`). All other comparisons follow the text.
-/

namespace Ariel.Validation

open Ariel.Text

variable {gap cs ds : List Char} {operator : String} {before : Option Char}

theorem ignores_malformed_operator : IgnoresBlanks malformedOperator where
  at_blank hc before cs := by
    refine List.findSome?_eq_none_iff.mpr fun entry hentry => ?_
    have hword : ∀ entry ∈ malformedOperators, Word entry.1.toList := by decide
    dsimp only
    rw [literal_eq_none (hword entry hentry) (by simpa using hc)]
    rfl
  behind_blank _ _ := rfl
  before_gap h := rel_find_some fun entry hentry =>
    have hfilled : ∀ entry ∈ malformedOperators, Filled entry.1.toList := by decide
    rel_map (trails_literal (hfilled entry hentry) h) fun hrest => ⟨rfl, .inl hrest⟩

theorem follows_comparison_operators : RemarksFollow comparisonOperators :=
  (follows_occurrences ignores_malformed_operator).map fun _ _ => rfl

section Equality

/-- No comparison begins with a blank. -/
theorem compared_literal_eq_none (h : ∀ c ∈ cs.head?, isBlank c = true) :
    comparedLiteral? cs = none := by
  refine List.findSome?_eq_none_iff.mpr fun operator hoperator => ?_
  have hword : ∀ operator ∈ equalityOperators, Word operator.toList := by decide
  rw [literal_eq_none (hword operator hoperator) h]
  rfl

theorem leaves_compared_literal (h : Trails gap cs ds) :
    Option.Rel (Leaves gap) (comparedLiteral? cs) (comparedLiteral? ds) :=
  rel_find_some fun operator hoperator =>
    have hfilled : ∀ operator ∈ equalityOperators, Filled operator.toList := by decide
    rel_bind (trails_literal (hfilled operator hoperator) h) fun hrest =>
      rel_bind (rel_drop_blanks rfl rfl trails_quoted_text hrest) fun hquoted =>
        .some ⟨Prod.ext rfl hquoted.1, hquoted.2⟩

/-- A comparison covers at least one character. -/
theorem length_of_compared_literal {found : String × List Char} {rest : List Char}
    (h : comparedLiteral? cs = some (found, rest)) : rest.length < cs.length := by
  obtain ⟨operator, hmem, hfound⟩ := List.exists_of_findSome?_eq_some h
  simp only [bind, Option.bind_eq_some_iff, Prod.exists, pure, Option.some.injEq,
    Prod.mk.injEq] at hfound
  obtain ⟨tail, hliteral, text, _, hquoted, -, rfl⟩ := hfound
  obtain ⟨blanks, htail, -⟩ := drop_blanks_spec tail
  obtain ⟨hquote, -⟩ := quoted_text_eq_some_iff.mp hquoted
  rw [literal_eq_some_iff.mp hliteral, htail, hquote]
  simp only [List.length_append, List.length_cons]
  omega

theorem compared_behind_blank {c : Char} (hc : isBlank c = true) (cs : List Char) :
    comparedBehind? (c :: cs) =
      (comparedLiteral? cs).map fun found => ((c.utf8Size, found.1), found.2) := by
  have hmarks : Filled ['<', '>', '!', '='] := by decide
  refine if_neg fun hmem => ?_
  rw [hmarks c (List.contains_iff_mem.mp hmem)] at hc
  cases hc

/-- Behind a blank of a gap no comparison begins. -/
theorem compared_behind_gap (hgap : ∀ c ∈ gap, isBlank c = true) : comparedBehind? gap = none := by
  cases gap with
  | nil => rfl
  | cons c gap =>
      rw [List.forall_mem_cons] at hgap
      have hnext : comparedLiteral? gap = none :=
        compared_literal_eq_none fun d hd => hgap.2 d (List.mem_of_mem_head? hd)
      rw [compared_behind_blank hgap.1, hnext]
      rfl

/-- In a gap no comparison is found. -/
theorem equality_in_gap (hgap : ∀ c ∈ gap, isBlank c = true) :
    equalityWithLiteral before gap = none := by
  have hfirst : comparedLiteral? gap = none :=
    compared_literal_eq_none fun c hc => hgap c (List.mem_of_mem_head? hc)
  rw [equality_with_literal_eq, hfirst, compared_behind_gap hgap]
  split <;> rfl

theorem leaves_compared_behind (h : Trails gap cs ds) :
    Option.Rel (Leaves gap) (comparedBehind? cs) (comparedBehind? ds) := by
  obtain ⟨hblank, rfl⟩ := h
  cases cs with
  | nil =>
      rw [List.nil_append, compared_behind_gap hblank]
      exact .none
  | cons c cs =>
      have hrest : Trails gap cs (cs ++ gap) := ⟨hblank, rfl⟩
      rw [List.cons_append, comparedBehind?, comparedBehind?]
      split
      · exact .none
      · exact rel_map (leaves_compared_literal hrest) fun hfound =>
          ⟨Prod.ext rfl hfound.1, hfound.2⟩

theorem leaves_equality (h : Trails gap cs ds) :
    Option.Rel (Leaves gap) (equalityWithLiteral before cs) (equalityWithLiteral before ds) := by
  rw [equality_with_literal_eq, equality_with_literal_eq]
  refine rel_or ?_ (leaves_compared_behind h)
  split
  · exact rel_map (leaves_compared_literal h) fun hfound => ⟨Prod.ext rfl hfound.1, hfound.2⟩
  · exact .none

/-- The same comparison, with its operator so many bytes further behind. -/
def StandsBehind (n : Nat) (found found' : Occurrence (Nat × String × List Char)) : Prop :=
  found.offset + found.value.1 = n + (found'.offset + found'.value.1) ∧
    found.value.2 = found'.value.2

/-- A blank in front of a text moves the operators of its comparisons. -/
theorem operators_in_front {c : Char} (hc : isBlank c = true) (cs : List Char) :
    List.Forall₂ (StandsBehind c.utf8Size) (occurrences equalityWithLiteral (c :: cs))
      (occurrences equalityWithLiteral cs) := by
  have hmoved : ∀ before offset skipped cs, List.Forall₂ (StandsBehind c.utf8Size)
      (occurrencesFrom equalityWithLiteral before (c.utf8Size + offset) skipped cs)
      (occurrencesFrom equalityWithLiteral before offset skipped cs) := by
    intro before offset skipped cs
    rw [occurrences_from_add, List.forall₂_map_left_iff, List.forall₂_same]
    exact fun found _ => ⟨Nat.add_assoc .., rfl⟩
  have hblank : equalityWithLiteral none (c :: cs) =
      (comparedLiteral? cs).map fun found => ((c.utf8Size, found.1), found.2) := by
    have hnone : comparedLiteral? (c :: cs) = none := compared_literal_eq_none (by simpa using hc)
    rw [equality_with_literal_eq, hnone, compared_behind_blank hc]
    rfl
  rw [occurrences, occurrences, occurrencesFrom, hblank]
  cases hfound : comparedLiteral? cs with
  | none =>
      -- The text does not begin with a comparison, with a blank before it or without.
      have hsame : occurrencesFrom equalityWithLiteral (some c) (0 + c.utf8Size) 0 cs =
          occurrencesFrom equalityWithLiteral none (c.utf8Size + 0) 0 cs := by
        cases cs with
        | nil => rfl
        | cons d cs =>
            rw [occurrencesFrom, occurrencesFrom, equality_with_literal_eq,
              equality_with_literal_eq, hfound, Nat.add_comm 0]
            rfl
      show List.Forall₂ _ (occurrencesFrom equalityWithLiteral (some c) (0 + c.utf8Size) 0 cs) _
      rw [hsame]
      exact hmoved ..
  | some found =>
      -- The comparison at the beginning of the text is found at the blank.
      obtain ⟨found, rest⟩ := found
      have hlength := length_of_compared_literal hfound
      cases cs with
      | nil => cases hlength
      | cons d cs =>
          have hskipped : (d :: cs).length - rest.length = cs.length - rest.length + 1 := by
            rw [List.length_cons] at hlength ⊢
            omega
          have hbeginning : equalityWithLiteral none (d :: cs) = some ((0, found), rest) := by
            rw [equality_with_literal_eq, hfound]
            rfl
          show List.Forall₂ _ (⟨0, (c.utf8Size, found)⟩ :: occurrencesFrom equalityWithLiteral
            (some c) (0 + c.utf8Size) ((d :: cs).length - rest.length) (d :: cs)) _
          rw [hskipped, occurrencesFrom, occurrencesFrom, hbeginning, Nat.zero_add, Nat.zero_add]
          exact .cons ⟨Nat.zero_add _, rfl⟩ (hmoved ..)

theorem follows_wildcard_with_equals : RemarksFollow wildcardWithEquals where
  in_front {c} hc cs := by
    rw [wildcardWithEquals, wildcardWithEquals, List.map_filterMap]
    refine filter_map_eq (operators_in_front hc cs) fun {found found'} hbehind => ?_
    obtain ⟨offset, gap, operator, text⟩ := found
    obtain ⟨offset', gap', operator', text'⟩ := found'
    obtain ⟨hoffset, hsame⟩ := hbehind
    obtain ⟨rfl, rfl⟩ := Prod.mk.inj hsame
    simp only at hoffset ⊢
    rw [hoffset]
    split <;> rfl
  behind h := congrArg (List.filterMap _) (occurrences_from_trails equality_in_gap
    (fun h => covers_of_leaves (leaves_equality h)) h ..)

end Equality

section Matching

theorem trails_matching_operator (hoperator : Filled operator.toList) (h : Trails gap cs ds) :
    Option.Rel (Trails gap) (matchingOperator? operator cs) (matchingOperator? operator ds) :=
  rel_or (trails_any_case (filled_cons.mpr ⟨by decide, hoperator⟩) h) (trails_any_case hoperator h)

theorem matching_operator_eq_none (hoperator : Word operator.toList)
    (hcs : ∀ c ∈ cs.head?, isBlank c = true) : matchingOperator? operator cs = none := by
  have hletters : Word ('I' :: operator.toList) :=
    ⟨List.cons_ne_nil _ _, filled_cons.mpr ⟨by decide, hoperator.2⟩⟩
  rw [matchingOperator?, any_case_eq_none hletters hcs, any_case_eq_none hoperator hcs]
  rfl

/-- A matching operator, blanks and a quotation. -/
theorem leaves_matched_quotation (hoperator : Filled operator.toList) (h : Trails gap cs ds) :
    Option.Rel (Leaves gap) (do quotedText? (← blanks? (← matchingOperator? operator cs)))
      (do quotedText? (← blanks? (← matchingOperator? operator ds))) :=
  rel_bind (trails_matching_operator hoperator h) (rel_blanks rfl rfl trails_quoted_text)

theorem leaves_matched_literal (hoperator : Filled operator.toList) (h : Trails gap cs ds) :
    Option.Rel (Leaves gap) (matchedLiteral operator before cs)
      (matchedLiteral operator before ds) :=
  rel_guard rfl (leaves_matched_quotation hoperator h)

theorem ignores_matched_literal (hoperator : Word operator.toList) :
    IgnoresBlanks (matchedLiteral operator) := by
  refine ignores_at_word (fun {c} hc cs => ?_) fun h =>
    covers_of_leaves (leaves_matched_quotation hoperator.2 h)
  have hnone : matchingOperator? operator (c :: cs) = none :=
    matching_operator_eq_none hoperator (by simpa using hc)
  rw [hnone]
  rfl

theorem follows_like_without_wildcard : RemarksFollow likeWithoutWildcard := by
  refine (follows_occurrences (ignores_matched_literal (by decide))).filter_map fun n found => ?_
  rw [apply_ite (Option.map (Remark.shifted n))]
  rfl

theorem ignores_matches_everything {everything : List Char → Bool}
    (hoperator : Word operator.toList) :
    IgnoresBlanks (matchesEverything operator everything) :=
  ignores_behind (ignores_matched_literal hoperator) (leaves_matched_literal hoperator.2)
    fun h hxy => rel_guard (congrArg everything hxy.1)
      (.some ⟨h.up_to_eq hxy.2, .inl hxy.2⟩)

/-- SELECT and the mark for all columns. -/
def selectAll : Pattern Unit := fun before cs => do
  let (_, rest) ← wordStart "SELECT" before cs
  pure ((), ← literal? "*" (← blanks? rest))

theorem ignores_select_all : IgnoresBlanks selectAll :=
  ignores_behind (ignores_word_start (by decide)) (leaves_word_start (by decide)) fun _ hxy =>
    rel_blanks rfl rfl (fun h => rel_bind (trails_literal (by decide) h) fun hrest =>
      .some ⟨rfl, .inl hrest⟩) hxy.2

/-- The remark on all columns of all rows, when there is no limit. -/
def unlimited (text : List Char) : List Remark :=
  match firstOccurrence? selectAll text with
  | none => []
  | some select =>
      if occurs (wholeWord "LIMIT") text then []
      else [(Remark.suggestion ("SELECT * without LIMIT can return very large result sets; "
        ++ "consider adding LIMIT")).placed select.offset]

theorem follows_unlimited : RemarksFollow unlimited := by
  have hselect := follows_first_occurrence ignores_select_all
  have hword : Word "LIMIT".toList := by decide
  have hlimit := stays_occurs (ignores_whole_word hword)
  refine ⟨fun hc cs => ?_, fun h => ?_⟩
  · rw [unlimited, unlimited, hselect.in_front hc, hlimit.in_front hc]
    cases firstOccurrence? selectAll cs with
    | none => rfl
    | some select =>
        rw [apply_ite (List.map _)]
        rfl
  · rw [unlimited, unlimited, hselect.behind h, hlimit.behind h]

/-- The remarks on operators whose literals let every value through. -/
def matchingEverything (query : List Char) : List Remark :=
  (occurrences (matchesEverything "LIKE" fun t => !t.isEmpty && t.all (· == '%')) query
    ++ occurrences (matchesEverything "MATCHES" (· == ['.', '*'])) query).map fun found =>
      (Remark.warning
        ("'" ++ String.ofList found.value
          ++ "' matches every value; the condition has no effect")).placed found.offset

theorem follows_matching_everything : RemarksFollow matchingEverything :=
  ((follows_occurrences (ignores_matches_everything (by decide))).append
    (follows_occurrences (ignores_matches_everything (by decide)))).map fun _ _ => rfl

theorem follows_match_all_patterns :
    RemarksFollow fun query => matchAllPatterns query (mask query) := by
  have hplaced : ∀ cs, ∀ remark ∈ matchingEverything cs, remark.position.isSome = true := by
    intro cs remark hremark
    obtain ⟨found, -, rfl⟩ := List.mem_map.mp hremark
    rfl
  show RemarksFollow fun query =>
    Remark.sortByPosition (matchingEverything query) ++ unlimited (mask query)
  exact (follows_sort follows_matching_everything hplaced).append (follows_mask follows_unlimited)

end Matching

end Ariel.Validation
