import Ariel.Proofs.Validation.Likeness.Balance
import Ariel.Proofs.Validation.Likeness.Clause
import Ariel.Proofs.Validation.Likeness.Spelling
import Ariel.Validation.Report

/-!
# Queries that are alike are judged alike

Every check makes the same remarks on two queries that are the same up to blanks in front of words,
so that their findings correspond one by one.
-/

namespace Ariel.Text.Likeness

open Ariel.Validation

variable {l : Likeness} {cs ds : List Char} {query other : String}

/-- The remarks of every check are the same, in the same order. -/
theorem remarks_same (check : Check) (h : l.Wraps cs ds) :
    l.SameRemarks (remarksOf check cs) (remarksOf check ds) := by
  have halike := h.alike
  have hmask := alike_mask halike
  have heq : ∀ {remarks others : List Remark}, remarks = others → l.SameRemarks remarks others :=
    fun heq => heq ▸ same_remarks_refl _
  cases check with
  | emptyQuery => exact empty_query_same halike
  | leadingSelect => exact leading_select_same hmask
  | fromClause => exact from_clause_same hmask
  | balancedQuotes => exact heq (balanced_quotes_eq halike)
  | balancedParentheses => exact heq (balanced_parentheses_eq hmask)
  | comparisonOperators => exact heq (comparison_operators_eq hmask)
  | wildcardWithEquals => exact heq (wildcard_with_equals_eq halike)
  | likeWithoutWildcard => exact heq (like_without_wildcard_eq halike)
  | matchAllPatterns => exact match_all_patterns_same h
  | emptyConditions => exact heq (empty_conditions_eq hmask)
  | whitespaceAndTerminator => exact whitespace_and_terminator_same halike
  | commonTypos => exact common_typos_same hmask
  | unknownFunctions => exact unknown_functions_same hmask
  | doubleQuotedLiterals => exact heq (double_quoted_literals_eq hmask)
  | timeClause => exact time_clause_same hmask
  | clauseOrder => exact heq (clause_order_eq hmask)
  | limitValue => exact limit_value_same hmask
  | aggregationUsage => exact heq (aggregation_usage_eq hmask)

/-- Findings that say the same of the same place, with excerpts that are alike. -/
structure SameFinding (l : Likeness) (finding other : Finding) : Prop where
  check : finding.check = other.check
  severity : finding.severity = other.severity
  message : l.Same finding.message.toList other.message.toList
  position : finding.position = other.position
  excerpt : Option.Rel (fun s t => l.Alike s.toList t.toList) finding.excerpt other.excerpt

theorem same_finding {remark remark' : Remark} (check : Check) (h : l.Alike cs ds)
    (hremark : l.SameRemark remark remark') :
    l.SameFinding (.ofRemark cs check remark) (.ofRemark ds check remark') where
  check := rfl
  severity := hremark.severity
  message := hremark.message
  position := hremark.position
  excerpt := rel_map (rel_of_eq hremark.position) fun hposition => by
    rw [hposition]
    exact alike_excerpt h _

/-- The findings of a list of checks correspond one by one. -/
theorem findings_same (checks : List Check) (h : l.Wraps query.toList other.toList) :
    List.Forall₂ l.SameFinding (validateWith checks query).findings
      (validateWith checks other).findings := by
  unfold validateWith
  induction checks with
  | nil => exact .nil
  | cons check checks ih =>
      simp only [List.flatMap_cons]
      refine List.rel_append (List.rel_map ?_ (remarks_same check h)) ih
      exact fun _ _ hremark => same_finding check h.alike hremark

end Ariel.Text.Likeness
