import Ariel.Validation.Check

/-!
# Which checks find errors

Half of the checks only ever warn or suggest: `no_error_of_lenient` says so for every query. The
others decide whether a query is valid.
-/

namespace Ariel.Validation

open Ariel.Text

variable {β : Type} {remark : Remark} {remarks more : List Remark} {found : List β}

/-- No remark makes the query invalid. -/
def NoError (remarks : List Remark) : Prop :=
  ∀ remark ∈ remarks, remark.severity ≠ .error

section Lists

theorem no_error_nil : NoError [] :=
  fun _ h => absurd h List.not_mem_nil

theorem no_error_one (h : remark.severity ≠ .error) : NoError [remark] := by
  intro r hr
  obtain rfl := List.mem_singleton.mp hr
  exact h

theorem NoError.append (h : NoError remarks) (hmore : NoError more) :
    NoError (remarks ++ more) := by
  intro r hr
  exact (List.mem_append.mp hr).elim (h r) (hmore r)

/-- Sorting remarks does not change how grave they are. -/
theorem NoError.sort (h : NoError remarks) : NoError (Remark.sortByPosition remarks) := by
  intro r hr
  exact h r (List.mem_mergeSort.mp hr)

/-- Remarks made one for each of several findings are no errors when none of them is. -/
theorem no_error_map {f : β → Remark} (h : ∀ b, (f b).severity ≠ .error) :
    NoError (found.map f) := by
  intro r hr
  obtain ⟨b, -, rfl⟩ := List.mem_map.mp hr
  exact h b

/-- Remarks made for some of several findings are no errors when none of them is. -/
theorem no_error_filter_map {f : β → Option Remark} (h : ∀ b, NoError (f b).toList) :
    NoError (found.filterMap f) := by
  intro r hr
  obtain ⟨b, -, hf⟩ := List.mem_filterMap.mp hr
  exact h b r (by simp [hf])

/-- A remark that is made or not is no error when it is none where it is made. -/
theorem no_error_ite {p : Prop} [Decidable p] (h : NoError remarks) (hmore : NoError more) :
    NoError (if p then remarks else more) := by
  split
  · exact h
  · exact hmore

end Lists

section Checks

theorem wildcard_with_equals_no_error (query : List Char) :
    NoError (wildcardWithEquals query) := by
  refine no_error_filter_map fun found => ?_
  obtain ⟨offset, gap, operator, text⟩ := found
  dsimp only
  split
  · exact no_error_one Severity.noConfusion
  · exact no_error_nil

theorem like_without_wildcard_no_error (query : List Char) :
    NoError (likeWithoutWildcard query) := by
  refine no_error_filter_map fun found => ?_
  split
  · exact no_error_nil
  · exact no_error_one Severity.noConfusion

theorem match_all_patterns_no_error (query text : List Char) :
    NoError (matchAllPatterns query text) := by
  unfold matchAllPatterns
  refine (no_error_map fun _ => Severity.noConfusion).sort.append ?_
  split
  · exact no_error_nil
  · exact no_error_ite no_error_nil (no_error_one Severity.noConfusion)

theorem empty_conditions_no_error (text : List Char) : NoError (emptyConditions text) := by
  have hmap : ∀ {β : Type} {found : List β} {message : β → String} {offset : β → Nat},
      NoError (found.map fun b => (Remark.warning (message b)).placed (offset b)) :=
    no_error_map fun _ => Severity.noConfusion
  exact ((((hmap.append hmap).append hmap).append hmap).append hmap).sort

theorem whitespace_and_terminator_no_error (query : List Char) :
    NoError (whitespaceAndTerminator query) := by
  have hwarning : ∀ {p : Prop} [Decidable p] {message : String},
      NoError (if p then [.warning message] else []) :=
    no_error_ite (no_error_one Severity.noConfusion) no_error_nil
  refine no_error_ite no_error_nil ((hwarning.append hwarning).append ?_)
  exact no_error_ite (no_error_one Severity.noConfusion) no_error_nil

/-- The checks that only warn or suggest. -/
def Check.isLenient : Check → Bool
  | .wildcardWithEquals | .likeWithoutWildcard | .matchAllPatterns | .emptyConditions
  | .whitespaceAndTerminator | .commonTypos | .unknownFunctions | .doubleQuotedLiterals => true
  | .emptyQuery | .leadingSelect | .fromClause | .balancedQuotes | .balancedParentheses
  | .comparisonOperators | .timeClause | .clauseOrder | .limitValue | .aggregationUsage => false

/-- A check that only warns or suggests finds no error in any query. -/
theorem no_error_of_lenient {check : Check} (h : check.isLenient = true) (query : List Char) :
    NoError (remarksOf check query) := by
  cases check with
  | wildcardWithEquals => exact wildcard_with_equals_no_error query
  | likeWithoutWildcard => exact like_without_wildcard_no_error query
  | matchAllPatterns => exact match_all_patterns_no_error query (mask query)
  | emptyConditions => exact empty_conditions_no_error (mask query)
  | whitespaceAndTerminator => exact whitespace_and_terminator_no_error query
  | commonTypos => exact no_error_map fun _ => Severity.noConfusion
  | unknownFunctions => exact no_error_map fun _ => Severity.noConfusion
  | doubleQuotedLiterals => exact no_error_map fun _ => Severity.noConfusion
  | emptyQuery | leadingSelect | fromClause | balancedQuotes | balancedParentheses
  | comparisonOperators | timeClause | clauseOrder | limitValue | aggregationUsage => cases h

end Checks

end Ariel.Validation
