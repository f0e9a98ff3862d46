import Ariel.Proofs.Validation.Padding.Balance
import Ariel.Proofs.Validation.Padding.Clause
import Ariel.Proofs.Validation.Padding.Spelling
import Ariel.Validation.Report

/-!
# Blanks around a query

Only one check is about the blanks around a query. All others say of it what they say of its trimmed
part, about the same places: `validate_padded`.
-/

namespace Ariel.Validation

open Ariel.Text

/-- The remarks of every check but the one about blanks follow the query. -/
theorem remarks_follow {check : Check} (h : check ≠ .whitespaceAndTerminator) :
    RemarksFollow (remarksOf check) := by
  cases check with
  | emptyQuery => exact follows_empty_query
  | leadingSelect => exact follows_mask follows_leading_select
  | fromClause => exact follows_mask follows_from_clause
  | balancedQuotes => exact follows_balanced_quotes
  | balancedParentheses => exact follows_mask follows_balanced_parentheses
  | comparisonOperators => exact follows_mask follows_comparison_operators
  | wildcardWithEquals => exact follows_wildcard_with_equals
  | likeWithoutWildcard => exact follows_like_without_wildcard
  | matchAllPatterns => exact follows_match_all_patterns
  | emptyConditions => exact follows_mask follows_empty_conditions
  | whitespaceAndTerminator => exact absurd rfl h
  | commonTypos => exact follows_mask follows_common_typos
  | unknownFunctions => exact follows_mask follows_unknown_functions
  | doubleQuotedLiterals => exact follows_mask follows_double_quoted_literals
  | timeClause => exact follows_mask follows_time_clause
  | clauseOrder => exact follows_mask follows_clause_order
  | limitValue => exact follows_mask follows_limit_value
  | aggregationUsage => exact follows_mask follows_aggregation_usage

/-- The remarks on a query with blanks around it are those on the query, moved. -/
theorem remarks_around {check : Check} (h : check ≠ .whitespaceAndTerminator)
    {left right : List Char} (hleft : ∀ c ∈ left, isBlank c = true)
    (hright : ∀ c ∈ right, isBlank c = true) (query : List Char) :
    remarksOf check (left ++ query ++ right) =
      (remarksOf check query).map (Remark.shifted (byteLength left)) := by
  refine (remarks_follow h).around (fun remark => ?_) (fun m n remark => ?_) hleft hright query
  · simp [Remark.shifted]
  · simp [Remark.shifted, Function.comp_def, Nat.add_assoc]

/-- The finding as made behind so many more bytes. -/
def Finding.shifted (n : Nat) (finding : Finding) : Finding :=
  { finding with position := finding.position.map (n + ·) }

/-- A finding shows the same text when there are blanks around the query. -/
theorem finding_shifted {left right : List Char} (hleft : ∀ c ∈ left, isBlank c = true)
    (hright : ∀ c ∈ right, isBlank c = true) (query : List Char) (check : Check)
    (remark : Remark) :
    Finding.ofRemark (left ++ query ++ right) check (remark.shifted (byteLength left)) =
      (Finding.ofRemark query check remark).shifted (byteLength left) := by
  obtain ⟨severity, message, _ | position⟩ := remark
  · rfl
  · simp only [Finding.ofRemark, Finding.shifted, Remark.shifted, Option.map_some,
      excerpt_around_blanks hleft hright]

/-- How many bytes of blanks stand in front of a query. -/
def leadingBytes (query : String) : Nat :=
  byteLength (query.toList.takeWhile isBlank)

/-- A query is its trimmed part behind its leading blanks, with more blanks behind it. -/
theorem exists_right (query : String) : ∃ right, query.toList =
    query.toList.takeWhile isBlank ++ (trim query).toList ++ right ∧
      ∀ c ∈ right, isBlank c = true := by
  obtain ⟨right, hdrop, hright⟩ := drop_last_blanks_spec (dropBlanks query.toList)
  refine ⟨right, ?_, hright⟩
  rw [to_list_trim, List.append_assoc, trimmed, ← hdrop, dropBlanks,
    List.takeWhile_append_dropWhile]

/-- Every check but the one about blanks makes the same findings on a query as on its trimmed part,
in the same order: with the same severity, message and excerpt, and with the position behind as many
more bytes as the blanks in front take. -/
theorem validate_padded {checks : List Check} (h : .whitespaceAndTerminator ∉ checks)
    (query : String) : (validateWith checks query).findings =
      (validateWith checks (trim query)).findings.map (Finding.shifted (leadingBytes query)) := by
  obtain ⟨right, hquery, hright⟩ := exists_right query
  have hleft : ∀ c ∈ query.toList.takeWhile isBlank, isBlank c = true := fun _ hc =>
    List.mem_takeWhile_imp hc
  unfold validateWith leadingBytes
  rw [List.map_flatMap]
  refine List.flatMap_congr fun check hmem => ?_
  have hcheck : check ≠ .whitespaceAndTerminator := by
    rintro rfl
    exact h hmem
  conv_lhs => rw [hquery]
  rw [remarks_around hcheck hleft hright, List.map_map, List.map_map]
  exact List.map_congr_left fun remark _ => finding_shifted hleft hright _ check remark

/-- A comparison right behind an ideographic space, and a literal that is not closed in front of a
space that breaks no line. -/
theorem validate_padded_open :
    .whitespaceAndTerminator ∉ [Check.wildcardWithEquals, Check.balancedQuotes] ∧
    leadingBytes "\u3000= 'x%' 'y\u00a0" = 3 ∧
    (validateWith [.wildcardWithEquals, .balancedQuotes] "\u3000= 'x%' 'y\u00a0").findings.map
        Finding.position = [some 3, some 10] ∧
    (validateWith [.wildcardWithEquals, .balancedQuotes] "\u3000= 'x%' 'y\u00a0").findings =
      (validateWith [.wildcardWithEquals, .balancedQuotes]
        (trim "\u3000= 'x%' 'y\u00a0")).findings.map
          (Finding.shifted (leadingBytes "\u3000= 'x%' 'y\u00a0")) :=
  ⟨by decide, by decide, by decide +kernel, validate_padded (by decide) _⟩

end Ariel.Validation
