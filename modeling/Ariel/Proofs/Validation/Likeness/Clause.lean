import Ariel.Proofs.Validation.Likeness.Condition
import Ariel.Proofs.Validation.Likeness.Outline
import Ariel.Validation.Check.Clause

/-!
# The clauses of queries that are alike

Clauses are found at the same offsets in texts that are alike. Their amounts, units and limits are
runs of characters without blanks, so that they are the same there.
-/

namespace Ariel.Text.Likeness

open Ariel.Validation Ariel.Catalog

variable {l : Likeness} {cs ds : List Char}

/-- The parts of two relative time clauses that are the same. -/
structure SameLast (l : Likeness) (clause other : LastClause) : Prop where
  amountOffset : clause.amountOffset = other.amountOffset
  amount : l.Same clause.amount other.amount
  unitOffset : clause.unitOffset = other.unitOffset
  unit : l.Same clause.unit other.unit

theorem respects_last_clause : l.Respects l.SameLast lastClause := fun hbefore h =>
  rel_bind (respects_word_start (by decide) hbefore h) fun hrest =>
    rel_bind (alike_blanks hrest.2) fun hamount =>
      have hdigits := same_of_alike (alike_take_while hamount blind_is_decimal_digit) fun _ hc =>
        is_blank_of_decimal_digit (List.mem_takeWhile_imp hc)
      rel_guard (congrArg not (is_empty_eq hdigits)) <|
        rel_bind (alike_blanks (alike_drop_while hamount blind_is_decimal_digit)) fun hunit =>
          have hletters := same_of_alike (alike_take_while hunit blind_is_alpha) fun _ hc =>
            is_blank_of_alpha (List.mem_takeWhile_imp hc)
          have hbehind := alike_drop_while hunit blind_is_alpha
          rel_guard (congrArg not (is_empty_eq hletters)) <|
            rel_guard (ends_word_eq hbehind) <|
              .some ⟨⟨bytes_up_to_eq hamount h, hdigits, bytes_up_to_eq hunit h, hletters⟩, hbehind⟩

theorem zero_amount_eq {found found' : Occurrence LastClause} (h : Beside l.SameLast found found') :
    zeroAmount found = zeroAmount found' := by
  have hmark : Blind (· == '0') := blind_mark (by decide) (by decide)
  have hzero := all_eq (alike_of_same h.2.amount) hmark
  rw [zeroAmount, zeroAmount, hzero, h.1, h.2.amountOffset]

theorem time_unit_eq {found found' : Occurrence LastClause} (h : Beside l.SameLast found found') :
    timeUnit found = timeUnit found' := by
  rw [timeUnit, timeUnit, capitals_eq h.2.unit, h.1, h.2.unitOffset]

theorem time_clause_same (h : l.Alike cs ds) : l.SameRemarks (timeClause cs) (timeClause ds) := by
  have hrelative := occurrences_beside respects_last_clause h
  have habsolute : l.Respects Eq (firstOf [wholeWord "START", wholeWord "STOP"]) :=
    respects_first_of_pair (respects_whole_word (by decide)) (respects_whole_word (by decide))
  simp only [timeClause, all_blank_eq h, is_empty_eq hrelative, occurs_eq habsolute h]
  split
  · exact .nil
  · refine List.rel_append (List.rel_flatMap hrelative ?_) (same_remarks_refl _)
    intro found found' hbeside
    dsimp only
    rw [zero_amount_eq hbeside, time_unit_eq hbeside]
    exact same_remarks_refl _

theorem respects_whole_phrase {first second : String} (hfirst : Filled first.toList)
    (hsecond : Filled second.toList) :
    l.Respects Eq (wholePhrase first second) := fun hbefore h =>
  rel_guard (begins_word_eq hbefore) <|
    rel_bind (alike_phrase h hfirst hsecond) fun h => .some ⟨rfl, h⟩

theorem respects_last_amount : l.Respects Eq lastAmount := fun hbefore h =>
  rel_guard (begins_word_eq hbefore) <|
    rel_bind (alike_last_amount h) fun h => .some ⟨rfl, h⟩

/-- The keywords of every clause stand at the same places. -/
theorem respects_clauses_in_order : ∀ clause ∈ clausesInOrder, l.Respects Eq clause.2 := by
  simp only [clausesInOrder, List.forall_mem_cons]
  exact ⟨respects_whole_word (by decide), respects_whole_word (by decide),
    respects_whole_word (by decide), respects_whole_phrase (by decide) (by decide),
    respects_whole_word (by decide), respects_whole_phrase (by decide) (by decide),
    respects_whole_word (by decide),
    respects_first_of_pair respects_last_amount (respects_whole_word (by decide)),
    List.forall_mem_nil _⟩

theorem clause_order_eq (h : l.Alike cs ds) : clauseOrder cs = clauseOrder ds := by
  refine congrArg misplaced (List.filterMap_congr fun clause hclause => ?_)
  dsimp only
  rw [first_occurrence_eq (respects_clauses_in_order clause hclause) h]

theorem respects_limit_clause : l.Respects (Option.Rel l.SameName) limitClause := by
  intro before before' cs ds hbefore h
  refine rel_bind (respects_whole_word (by decide) hbefore h) ?_
  intro found found' hfound
  obtain ⟨u, rest⟩ := found
  obtain ⟨u', rest'⟩ := found'
  have hrest : l.Alike rest rest' := hfound.2
  have hfilled : Blind fun c => !isBlank c := blind_is_blank.comp not
  rcases rel_cases (alike_blanks hrest) with ⟨hcs, hds⟩ | ⟨value, value', hcs, hds, hvalue⟩
  · simp only [hcs, hds]
    exact .some ⟨.none, hrest⟩
  · simp only [hcs, hds]
    cases value with
    | nil =>
        rw [List.forall₂_nil_left_iff.mp hvalue]
        exact .some ⟨.none, hrest⟩
    | cons c value =>
        obtain ⟨d, value', hlike, hbehind, rfl⟩ := List.forall₂_cons_left_iff.mp hvalue
        refine .some ⟨.some ⟨bytes_up_to_eq hvalue h, ?_⟩, alike_drop_while hvalue hfilled⟩
        refine same_of_alike (alike_take_while hvalue hfilled) fun b hb => ?_
        simpa using List.mem_takeWhile_imp hb

theorem bad_limit_same (h : l.Same cs ds) :
    Option.Rel l.SameRemark (badLimit? cs) (badLimit? ds) := by
  rw [badLimit?, badLimit?, numeral_eq (alike_of_same h), is_empty_eq h]
  split
  · exact .none
  · split
    · exact .some (same_remark_refl _)
    · exact .some (same_message (same_quotation _ _ h))

/-- A limit without the semicolons behind it. -/
theorem same_drop_last_semicolons (h : l.Same cs ds) :
    l.Same (dropLastSemicolons cs) (dropLastSemicolons ds) :=
  List.rel_reverse <| rel_drop_while (List.rel_reverse h) fun hsame =>
    like.eq_of_blind (.inl hsame) (blind_mark (by decide) (by decide))

theorem limit_value_same (h : l.Alike cs ds) : l.SameRemarks (limitValue cs) (limitValue ds) := by
  refine List.rel_filterMap ?_ (occurrences_beside respects_limit_clause h)
  intro found found' hbeside
  obtain ⟨hoffset, hlimit⟩ := hbeside
  have hvalue : l.Same
      ((found.value.map fun limit => dropLastSemicolons limit.2).getD [])
      ((found'.value.map fun limit => dropLastSemicolons limit.2).getD []) := by
    rcases rel_cases hlimit with ⟨hcs, hds⟩ | ⟨limit, limit', hcs, hds, hsame⟩
    · rw [hcs, hds]
      exact .nil
    · rw [hcs, hds]
      exact same_drop_last_semicolons hsame.2
  exact rel_map (bad_limit_same hvalue) fun hremark => hremark.placed hoffset

theorem respects_aggregate_call : l.Respects Eq aggregateCall := fun hbefore h =>
  rel_guard (begins_word_eq hbefore) <|
    rel_find_some fun name hname =>
      rel_bind (alike_keyword h (by revert name; decide)) fun h =>
        rel_bind (alike_literal (alike_drop_blanks h) (by decide)) fun h => .some ⟨rfl, h⟩

theorem aggregation_usage_eq (h : l.Alike cs ds) : aggregationUsage cs = aggregationUsage ds := by
  have hgroups : l.Respects Eq (wholePhrase "GROUP" "BY") :=
    respects_whole_phrase (by decide) (by decide)
  have hhaving : l.Respects Eq (wholeWord "HAVING") := respects_whole_word (by decide)
  rw [aggregationUsage, aggregationUsage, first_occurrence_eq hgroups h,
    first_occurrence_eq hhaving h, occurs_eq respects_aggregate_call h]

end Ariel.Text.Likeness
