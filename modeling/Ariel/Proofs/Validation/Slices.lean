import Ariel.Proofs.Validation.Excerpt
import Ariel.Proofs.Validation.Placement
import Ariel.Validation.Report

/-!
# Validation by slices

The texts that remarks show, and the excerpts of findings, can be cut out of the query at byte
offsets that were found in its mask. `validateBySlices?` does so and fails where an offset lies
behind the end or inside of a character. It never fails and makes the same report as `validateWith`,
whose findings all point into the query: `validate_within_query`.
-/

namespace Ariel.Validation

open Ariel.Text

/-- The text of a query where its mask shows a run of characters. -/
def shown? (query : List Char) (offset : Nat) (run : List Char) : Option (List Char) :=
  slice? offset (offset + byteLength run) query

/-- The number before a number. -/
def previous? : Nat → Option Nat
  | 0 => none
  | n + 1 => some n

/-- The check of the table, with the name of an unknown table cut out of the query. -/
def fromClauseBySlices? (query : List Char) : Option (List Remark) :=
  if (mask query).all isBlank then some []
  else match firstOccurrence? fromTable (mask query) with
    | none => some [.error "Query is missing FROM clause"]
    | some ⟨offset, none⟩ =>
        some [(Remark.error "FROM clause is missing a table name").placed offset]
    | some ⟨offset, some (gap, name)⟩ =>
        if ["EVENTS", "FLOWS"].contains (String.ofList (capitals name)) then some []
        else (shown? query (offset + gap) name).map fun name =>
          [(unknownTable name).placed (offset + gap)]

/-- The check of one kind of quote, with the last one looked up by its index. -/
def unmatchedQuoteByIndex? (mark : Char) (kind : String) (query : List Char) :
    Option (List Remark) :=
  let offsets := offsetsFrom mark 0 query
  if offsets.length % 2 = 0 then some []
  else do
    let last ← offsets[← previous? offsets.length]?
    pure [(unmatched kind).placed last]

/-- The check of quotes, with the last ones looked up by their indices. -/
def balancedQuotesByIndex? (query : List Char) : Option (List Remark) := do
  pure ((← unmatchedQuoteByIndex? '\'' "single" query)
    ++ (← unmatchedQuoteByIndex? '"' "double" query))

/-- The check of the ends of a query, with the terminator one byte before the end of its body. -/
def terminatorByOffset? (query : List Char) : Option (List Remark) :=
  if query.all isBlank then some []
  else
    let body := dropLastBlanks query
    if body.getLast? = some ';' then
      (previous? (byteLength body)).map fun offset =>
        outerBlanks query ++ [terminator.placed offset]
    else some (outerBlanks query)

/-- The check of spelling, with the mistyped keywords cut out of the query. -/
def commonTyposBySlices? (query : List Char) : Option (List Remark) :=
  (occurrences typo (mask query)).mapM fun found =>
    (shown? query found.offset found.value.1).map fun word =>
      (possibleTypo word found.value.2).placed found.offset

/-- What a limit is read from, cut out of the query. -/
def limitBySlice? (query : List Char) (found : Occurrence (Option (Nat × List Char))) :
    Option (List Char) :=
  match found.value with
  | none => some []
  | some (gap, value) => (shown? query (found.offset + gap) value).map dropLastSemicolons

/-- The check of limits, with their values cut out of the query. -/
def limitValueBySlices? (query : List Char) : Option (List Remark) := do
  let remarks ← (occurrences limitClause (mask query)).mapM fun found =>
    (limitBySlice? query found).map fun value =>
      (badLimit? value).map fun remark => remark.placed found.offset
  pure (remarks.filterMap id)

/-- What a check remarks on a query, with all texts and places cut out of the query or looked up. -/
def remarksBySlices? (check : Check) (query : List Char) : Option (List Remark) :=
  match check with
  | .fromClause => fromClauseBySlices? query
  | .balancedQuotes => balancedQuotesByIndex? query
  | .whitespaceAndTerminator => terminatorByOffset? query
  | .commonTypos => commonTyposBySlices? query
  | .limitValue => limitValueBySlices? query
  | _ => some (remarksOf check query)

/-- The finding that a remark makes, with its excerpt cut out of the query. -/
def findingBySlice? (query : List Char) (check : Check) (remark : Remark) : Option Finding :=
  match remark.position with
  | none => some ⟨check, remark.severity, remark.message, none, none⟩
  | some position => (excerptBySlice? query position).map fun text =>
      ⟨check, remark.severity, remark.message, some position, some text⟩

/-- Run checks over a query, with everything that is shown of it cut out of it. -/
def validateBySlices? (checks : List Check) (query : String) : Option Report := do
  let findings ← checks.mapM fun check => do
    (← remarksBySlices? check query.toList).mapM (findingBySlice? query.toList check)
  pure ⟨findings.flatten⟩

/-- Steps that all succeed give the list of their results. -/
theorem map_m_eq_some {α β : Type} {f : α → Option β} {g : α → β} {as : List α}
    (h : ∀ a ∈ as, f a = some (g a)) : as.mapM f = some (as.map g) := by
  induction as with
  | nil => rfl
  | cons a as ih =>
      have hrest : ∀ b ∈ as, f b = some (g b) := fun b hb => h b (List.mem_cons_of_mem _ hb)
      simp [List.mapM_cons, h a List.mem_cons_self, ih hrest]

variable {query run : List Char} {offset : Nat}

/-- A run that stands in a mask is cut out of the query as it stands. -/
theorem shown_eq_some (h : StandsAt (mask query) offset run) :
    shown? query offset run = some run := by
  obtain ⟨front, tail, hsplit, rfl⟩ := h.of_mask.split
  exact slice_eq_some_iff.mpr ⟨front, tail, hsplit, rfl, byte_length_append _ _⟩

theorem from_clause_by_slices_eq (query : List Char) :
    fromClauseBySlices? query = some (fromClause (mask query)) := by
  unfold fromClauseBySlices? fromClause
  split
  · rfl
  · cases hfound : firstOccurrence? fromTable (mask query) with
    | none => rfl
    | some found =>
        obtain ⟨offset, _ | ⟨gap, name⟩⟩ := found
        · rfl
        · have hname : StandsAt (mask query) (offset + gap) name :=
            stands_at_of_occurrence (List.mem_of_mem_head? hfound)
              fun _ _ _ htable => stands_at_of_from_table htable
          simp only [shown_eq_some hname, Option.map_some]
          split <;> rfl

theorem unmatched_quote_by_index_eq (mark : Char) (kind : String) (query : List Char) :
    unmatchedQuoteByIndex? mark kind query = some (unmatchedQuote mark kind query) := by
  simp only [unmatchedQuoteByIndex?, unmatchedQuote]
  rcases List.eq_nil_or_concat' (offsetsFrom mark 0 query) with hnil | ⟨offsets, last, hlast⟩
  · rw [hnil]
    rfl
  · have hlength : (offsets ++ [last]).length = offsets.length + 1 := by simp
    have hindex : (offsets ++ [last])[offsets.length]? = some last := by simp
    have hend : (offsets ++ [last]).getLast? = some last := by simp
    rw [hlast, hlength, hend]
    split
    · rfl
    · simp [previous?]

theorem balanced_quotes_by_index_eq (query : List Char) :
    balancedQuotesByIndex? query = some (balancedQuotes query) := by
  simp [balancedQuotesByIndex?, balancedQuotes, unmatched_quote_by_index_eq]

theorem terminator_by_offset_eq (query : List Char) :
    terminatorByOffset? query = some (whitespaceAndTerminator query) := by
  simp only [terminatorByOffset?, whitespaceAndTerminator]
  split
  · rfl
  · split
    · next hlast =>
      obtain ⟨front, hbody⟩ := List.getLast?_eq_some_iff.mp hlast
      have hlength : byteLength (dropLastBlanks query) = byteLength front + 1 := by
        rw [hbody, byte_length_append, byte_length_cons, byte_length_nil]
        rfl
      rw [hlength]
      rfl
    · simp

theorem common_typos_by_slices_eq (query : List Char) :
    commonTyposBySlices? query = some (commonTypos (mask query)) := by
  refine map_m_eq_some fun found hfound => ?_
  obtain ⟨offset, word, meant⟩ := found
  have hword : StandsAt (mask query) (offset + 0) word :=
    stands_at_of_occurrence hfound fun _ _ _ htypo => stands_at_of_typo htypo
  have hshown : shown? query offset word = some word := shown_eq_some hword
  simp only [hshown, Option.map_some]

/-- What a limit is read from is cut out of the query as it stands in the mask. -/
theorem limit_by_slice_eq {found : Occurrence (Option (Nat × List Char))}
    (h : found ∈ occurrences limitClause (mask query)) :
    limitBySlice? query found =
      some ((found.value.map fun (_, value) => dropLastSemicolons value).getD []) := by
  obtain ⟨offset, _ | ⟨gap, value⟩⟩ := found
  · rfl
  · have hvalue : StandsAt (mask query) (offset + gap) value :=
      stands_at_of_occurrence h fun _ _ _ hlimit => stands_at_of_limit hlimit
    simp only [limitBySlice?, shown_eq_some hvalue, Option.map_some, Option.getD_some]

theorem limit_value_by_slices_eq (query : List Char) :
    limitValueBySlices? query = some (limitValue (mask query)) := by
  have hremarks : ∀ found ∈ occurrences limitClause (mask query),
      ((limitBySlice? query found).map fun value =>
        (badLimit? value).map fun remark => remark.placed found.offset) =
      some ((badLimit?
        ((found.value.map fun (_, value) => dropLastSemicolons value).getD [])).map
          fun remark => remark.placed found.offset) := by
    intro found hfound
    rw [limit_by_slice_eq hfound, Option.map_some]
  unfold limitValueBySlices? limitValue
  rw [map_m_eq_some hremarks]
  simp [List.filterMap_map]

/-- No check fails on a slice, and the slices do not change its remarks. -/
theorem remarks_by_slices_eq (check : Check) (query : List Char) :
    remarksBySlices? check query = some (remarksOf check query) := by
  cases check with
  | fromClause => exact from_clause_by_slices_eq query
  | balancedQuotes => exact balanced_quotes_by_index_eq query
  | whitespaceAndTerminator => exact terminator_by_offset_eq query
  | commonTypos => exact common_typos_by_slices_eq query
  | limitValue => exact limit_value_by_slices_eq query
  | _ => rfl

/-- The excerpt of a finding is cut out of the query where the remark is anchored. -/
theorem finding_by_slice_eq {check : Check} {remark : Remark}
    (h : ∀ offset ∈ remark.position, Anchored query offset) :
    findingBySlice? query check remark = some (Finding.ofRemark query check remark) := by
  obtain ⟨severity, message, _ | offset⟩ := remark
  · rfl
  · obtain ⟨before, c, after, rfl, rfl, -⟩ := anchored_iff.mp (h offset rfl)
    simp only [findingBySlice?, excerpt_by_slice_eq, Option.map_some, Finding.ofRemark]

/-- Validation by slices makes the report of validation. -/
theorem validate_by_slices_eq (checks : List Check) (query : String) :
    validateBySlices? checks query = some (validateWith checks query) := by
  have hfindings : ∀ check ∈ checks, (do
      (← remarksBySlices? check query.toList).mapM (findingBySlice? query.toList check)) =
        some ((remarksOf check query.toList).map (Finding.ofRemark query.toList check)) := by
    intro check _
    simp only [remarks_by_slices_eq, bind, Option.bind_some]
    exact map_m_eq_some fun remark hremark =>
      finding_by_slice_eq (remarks_placed check query.toList remark hremark)
  unfold validateBySlices?
  rw [map_m_eq_some hfindings]
  rfl

/-- Where a finding has a position, it lies within the query on a boundary, a character that is no
blank stands there, and the excerpt is the part of the query around it that shows the character,
with at most fifteen bytes on either side. -/
def Finding.PointsInto (query : String) (finding : Finding) : Prop :=
  ∀ position, finding.position = some position →
    position < query.utf8ByteSize ∧ (⟨position⟩ : String.Pos.Raw).IsValid query ∧
    ∃ front left c right tail,
      query.toList = front ++ (left ++ c :: right) ++ tail ∧
      byteLength (front ++ left) = position ∧ isBlank c = false ∧
      finding.excerpt = some (String.ofList (left ++ c :: right)) ∧
      byteLength left ≤ 15 ∧ byteLength (c :: right) ≤ 15

/-- A remark makes a finding that points into the query. -/
theorem points_into_of_remark {text : String} {check : Check} {remark : Remark}
    (h : ∀ offset ∈ remark.position, Anchored text.toList offset) :
    (Finding.ofRemark text.toList check remark).PointsInto text := by
  intro position hposition
  have hremark : remark.position = some position := hposition
  obtain ⟨before, c, after, hsplit, rfl, hc⟩ := anchored_iff.mp (h position hremark)
  obtain ⟨front, left, right, tail, rfl, rfl, hexcerpt, hleft, hright⟩ :=
    excerpt_split hc before after
  refine ⟨?_, is_valid_of_split hsplit, front, left, c, right, tail, ?_, rfl, hc, ?_, hleft,
    hright⟩
  · have hpos := c.utf8Size_pos
    rw [← byte_length_to_list, hsplit]
    simp only [byte_length_append, byte_length_cons]
    omega
  · rw [hsplit]
    simp
  · simp only [Finding.ofRemark, hremark, Option.map_some, hsplit, hexcerpt]

/-- Whatever the query and the list of checks: no slice of the query fails, and every finding points
at a character of the query itself that is no blank and shows a bounded part of the query around
it. -/
theorem validate_within_query (checks : List Check) (query : String) :
    validateBySlices? checks query = some (validateWith checks query) ∧
    ∀ finding ∈ (validateWith checks query).findings, finding.PointsInto query := by
  refine ⟨validate_by_slices_eq checks query, fun finding hfinding => ?_⟩
  obtain ⟨check, -, hremarks⟩ := List.mem_flatMap.mp hfinding
  obtain ⟨remark, hremark, rfl⟩ := List.mem_map.mp hremarks
  exact points_into_of_remark (remarks_placed check query.toList remark hremark)

/-- The name of an unknown table behind a literal whose character takes two bytes. -/
theorem validate_within_query_behind_literal :
    (validateWith [.fromClause] "SELECT 'é' FROM nowhere").findings =
      [⟨.fromClause, .error, "Unknown table 'nowhere'. Use 'events' or 'flows'", some 17,
        some "T 'é' FROM nowhere"⟩] ∧
    validateBySlices? [.fromClause] "SELECT 'é' FROM nowhere" =
      some (validateWith [.fromClause] "SELECT 'é' FROM nowhere") ∧
    ∀ finding ∈ (validateWith [.fromClause] "SELECT 'é' FROM nowhere").findings,
      finding.PointsInto "SELECT 'é' FROM nowhere" :=
  ⟨by decide +kernel, validate_within_query _ _⟩

end Ariel.Validation
