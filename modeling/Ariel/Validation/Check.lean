import Ariel.Validation.Check.Balance
import Ariel.Validation.Check.Clause
import Ariel.Validation.Check.Comparison
import Ariel.Validation.Check.Condition
import Ariel.Validation.Check.Outline
import Ariel.Validation.Check.Spelling
import Ariel.Validation.Mask

/-!
# Checks

The eighteen checks of a query. Each looks at the query by itself and assumes nothing of the
others; most look at the mask of the query only.
-/

namespace Ariel.Validation

/-- The checks, in their usual order. -/
inductive Check where
  | emptyQuery
  | leadingSelect
  | fromClause
  | balancedQuotes
  | balancedParentheses
  | comparisonOperators
  | wildcardWithEquals
  | likeWithoutWildcard
  | matchAllPatterns
  | emptyConditions
  | whitespaceAndTerminator
  | commonTypos
  | unknownFunctions
  | doubleQuotedLiterals
  | timeClause
  | clauseOrder
  | limitValue
  | aggregationUsage
  deriving DecidableEq, Repr

namespace Check

/-- Every check, in the usual order. -/
def all : List Check := [
  .emptyQuery, .leadingSelect, .fromClause, .balancedQuotes, .balancedParentheses,
  .comparisonOperators, .wildcardWithEquals, .likeWithoutWildcard, .matchAllPatterns,
  .emptyConditions, .whitespaceAndTerminator, .commonTypos, .unknownFunctions,
  .doubleQuotedLiterals, .timeClause, .clauseOrder, .limitValue, .aggregationUsage]

/-- The name of a check. -/
def name : Check → String
  | .emptyQuery => "empty_query"
  | .leadingSelect => "leading_select"
  | .fromClause => "from_clause"
  | .balancedQuotes => "balanced_quotes"
  | .balancedParentheses => "balanced_parentheses"
  | .comparisonOperators => "comparison_operators"
  | .wildcardWithEquals => "wildcard_with_equals"
  | .likeWithoutWildcard => "like_without_wildcard"
  | .matchAllPatterns => "match_all_patterns"
  | .emptyConditions => "empty_conditions"
  | .whitespaceAndTerminator => "whitespace_and_terminator"
  | .commonTypos => "common_typos"
  | .unknownFunctions => "unknown_functions"
  | .doubleQuotedLiterals => "double_quoted_literals"
  | .timeClause => "time_clause"
  | .clauseOrder => "clause_order"
  | .limitValue => "limit_value"
  | .aggregationUsage => "aggregation_usage"

/-- The check with a name. -/
def ofName? (name : String) : Option Check :=
  all.find? fun check => check.name == name

end Check

/-- What a check remarks on a query. -/
def remarksOf (check : Check) (query : List Char) : List Remark :=
  match check with
  | .emptyQuery => emptyQuery query
  | .leadingSelect => leadingSelect (mask query)
  | .fromClause => fromClause (mask query)
  | .balancedQuotes => balancedQuotes query
  | .balancedParentheses => balancedParentheses (mask query)
  | .comparisonOperators => comparisonOperators (mask query)
  | .wildcardWithEquals => wildcardWithEquals query
  | .likeWithoutWildcard => likeWithoutWildcard query
  | .matchAllPatterns => matchAllPatterns query (mask query)
  | .emptyConditions => emptyConditions (mask query)
  | .whitespaceAndTerminator => whitespaceAndTerminator query
  | .commonTypos => commonTypos (mask query)
  | .unknownFunctions => unknownFunctions (mask query)
  | .doubleQuotedLiterals => doubleQuotedLiterals (mask query)
  | .timeClause => timeClause (mask query)
  | .clauseOrder => clauseOrder (mask query)
  | .limitValue => limitValue (mask query)
  | .aggregationUsage => aggregationUsage (mask query)

end Ariel.Validation
