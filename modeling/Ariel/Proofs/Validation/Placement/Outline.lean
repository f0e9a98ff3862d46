import Ariel.Proofs.Validation.Placement.Basic

/-!
# Placement of the checks of the outline

Missing keywords have no place; everything else that is reported stands in the query.
-/

namespace Ariel.Validation

open Ariel.Text

variable {cs rest name : List Char} {before : Option Char} {gap : Nat}

/-- A plain name is taken whole, and holds no blanks. -/
theorem stands_at_of_name (h : name? cs = some (name, rest)) : StandsAt cs 0 name := by
  obtain ⟨rfl, hbegins, hname, -⟩ := name_eq_some_iff.mp h
  refine ⟨?_, fun c hc => is_blank_of_continues_name (hname c hc), [], rest, rfl, rfl⟩
  rintro rfl
  cases hbegins

/-- The name after FROM stands behind the reported gap. -/
theorem stands_at_of_from_table (h : fromTable before cs = some (some (gap, name), rest)) :
    StandsAt cs gap name := by
  obtain ⟨-, word, blanks, rfl, -, -, -, rfl, hname⟩ := from_table_eq_some_iff.mp h
  have hbytes := (stands_at_of_name hname).append (word ++ blanks)
  rwa [List.append_assoc] at hbytes

theorem anchored_of_from_table {found : Option (Nat × List Char)}
    (h : fromTable before cs = some (found, rest)) : Anchored cs 0 := by
  obtain ⟨after, hword⟩ := whole_word_of_from_table h
  exact anchored_of_whole_word hword (by decide)

theorem empty_query_placed (query : List Char) : PlacedIn query (emptyQuery query) := by
  unfold emptyQuery
  split
  · exact unplaced rfl
  · exact placed_nil

theorem leading_select_placed (text : List Char) : PlacedIn text (leadingSelect text) := by
  unfold leadingSelect
  split
  · exact placed_nil
  · split
    · exact unplaced rfl
    · next select hselect =>
      split
      · exact placed_nil
      · exact placed_one (anchored_of_occurrence (List.mem_of_mem_head? hselect)
          fun _ _ _ hword => anchored_of_whole_word hword (by decide))

theorem from_clause_placed (text : List Char) : PlacedIn text (fromClause text) := by
  unfold fromClause
  split
  · exact placed_nil
  · split
    · exact unplaced rfl
    · next offset hfound =>
      exact placed_one (anchored_of_occurrence (List.mem_of_mem_head? hfound)
        fun _ _ _ hword => anchored_of_from_table hword)
    · next offset gap name hfound =>
      split
      · exact placed_nil
      · exact placed_one (anchored_of_occurrence (List.mem_of_mem_head? hfound)
          fun _ _ _ hname => ⟨name, stands_at_of_from_table hname⟩)

theorem whitespace_and_terminator_placed (query : List Char) :
    PlacedIn query (whitespaceAndTerminator query) := by
  unfold whitespaceAndTerminator
  split
  · exact placed_nil
  · refine placed_append ?_ ?_
    · refine placed_append ?_ ?_ <;> split
      · exact unplaced rfl
      · exact placed_nil
      · exact unplaced rfl
      · exact placed_nil
    · split
      · next hlast =>
        obtain ⟨gap, hquery, -⟩ := drop_last_blanks_spec query
        obtain ⟨front, hbody⟩ := List.getLast?_eq_some_iff.mp hlast
        refine placed_one (anchored_iff.mpr ⟨front, ';', gap, ?_, ?_, by decide⟩)
        · rw [hquery, hbody]
          simp
        · rw [hbody, byte_length_append, byte_length_cons, byte_length_nil]
          rfl
      · exact placed_nil

end Ariel.Validation
