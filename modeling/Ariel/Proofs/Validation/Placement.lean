import Ariel.Proofs.Validation.Placement.Balance
import Ariel.Proofs.Validation.Placement.Clause
import Ariel.Proofs.Validation.Placement.Comparison
import Ariel.Proofs.Validation.Placement.Condition
import Ariel.Proofs.Validation.Placement.Outline
import Ariel.Proofs.Validation.Placement.Spelling

/-!
# Where checks place their remarks

Every check places its remarks at characters of the query that are no blanks. Checks that look at
the mask of a query place them in the query itself all the same (`remarks_placed`).
-/

namespace Ariel.Validation

open Ariel.Text

/-- Every check places its remarks at characters of the query that are no blanks. -/
theorem remarks_placed (check : Check) (query : List Char) :
    PlacedIn query (remarksOf check query) := by
  cases check with
  | emptyQuery => exact empty_query_placed query
  | leadingSelect => exact placed_of_mask (leading_select_placed _)
  | fromClause => exact placed_of_mask (from_clause_placed _)
  | balancedQuotes => exact balanced_quotes_placed query
  | balancedParentheses => exact placed_of_mask (balanced_parentheses_placed _)
  | comparisonOperators => exact placed_of_mask (comparison_operators_placed _)
  | wildcardWithEquals => exact wildcard_with_equals_placed query
  | likeWithoutWildcard => exact like_without_wildcard_placed query
  | matchAllPatterns => exact match_all_patterns_placed query
  | emptyConditions => exact placed_of_mask (empty_conditions_placed _)
  | whitespaceAndTerminator => exact whitespace_and_terminator_placed query
  | commonTypos => exact placed_of_mask (common_typos_placed _)
  | unknownFunctions => exact placed_of_mask (unknown_functions_placed _)
  | doubleQuotedLiterals => exact placed_of_mask (double_quoted_literals_placed _)
  | timeClause => exact placed_of_mask (time_clause_placed _)
  | clauseOrder => exact placed_of_mask (clause_order_placed _)
  | limitValue => exact placed_of_mask (limit_value_placed _)
  | aggregationUsage => exact placed_of_mask (aggregation_usage_placed _)

end Ariel.Validation
