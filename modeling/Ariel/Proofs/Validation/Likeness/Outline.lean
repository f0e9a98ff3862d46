import Ariel.Proofs.Validation.Likeness.Basic
import Ariel.Proofs.Validation.Pattern

/-!
# The outline of queries that are alike

The checks of the outline make the same remarks on texts that are alike.
-/

namespace Ariel.Text.Likeness

open Ariel.Validation

variable {l : Likeness} {cs ds : List Char}

theorem all_blank_eq (h : l.Alike cs ds) : cs.all isBlank = ds.all isBlank :=
  all_eq h blind_is_blank

theorem empty_query_same (h : l.Alike cs ds) : l.SameRemarks (emptyQuery cs) (emptyQuery ds) := by
  rw [emptyQuery, emptyQuery, all_blank_eq h]
  exact same_remarks_refl _

theorem leading_select_same (h : l.Alike cs ds) :
    l.SameRemarks (leadingSelect cs) (leadingSelect ds) := by
  rw [leadingSelect, leadingSelect, all_blank_eq h]
  split
  · exact .nil
  · have hselect : l.Respects Eq (wholeWord "SELECT") := respects_whole_word (by decide)
    have hfront : Option.Rel l.Alike (keyword? "SELECT" (dropBlanks cs))
        (keyword? "SELECT" (dropBlanks ds)) := alike_keyword (alike_drop_blanks h) (by decide)
    rw [first_occurrence_eq hselect h, is_some_eq_of_rel hfront]
    exact same_remarks_refl _

theorem blind_begins_name : Blind beginsName :=
  blind_is_alpha.pair (blind_mark (by decide) (by decide)) _

theorem blind_continues_name : Blind continuesName :=
  (blind_is_alpha.pair blind_is_digit _).pair (blind_mark (by decide) (by decide)) _

/-- A character of a name is no blank. -/
theorem alike_name (h : l.Alike cs ds) :
    Option.Rel (l.Found l.Same) (name? cs) (name? ds) := by
  cases h with
  | nil => exact .none
  | @cons c d cs ds hlike hrest =>
      simp only [name?, ← hlike.eq_of_blind blind_begins_name]
      split
      next hbegins =>
        have hname := l.alike_take_while hrest blind_continues_name
        refine .some ⟨same_of_alike (.cons hlike hname) ?_,
          alike_drop_while hrest blind_continues_name⟩
        rw [filled_cons]
        exact ⟨is_blank_of_continues_name (continues_name_of_begins_name hbegins),
          fun e he => is_blank_of_continues_name (List.mem_takeWhile_imp he)⟩
      next => exact .none

/-- The name of a table, and how far behind its keyword it stands. -/
def SameName (l : Likeness) : Nat × List Char → Nat × List Char → Prop :=
  fun x y => x.1 = y.1 ∧ l.Same x.2 y.2

theorem respects_from_table : l.Respects (Option.Rel l.SameName) fromTable := by
  intro before before' cs ds hbefore h
  refine rel_bind (respects_whole_word (by decide) hbefore h) ?_
  intro found found' hfound
  obtain ⟨u, rest⟩ := found
  obtain ⟨u', rest'⟩ := found'
  have hrest : l.Alike rest rest' := hfound.2
  rcases rel_cases (alike_blanks hrest) with ⟨hcs, hds⟩ | ⟨gap, gap', hcs, hds, hgap⟩
  · simp only [hcs, hds]
    exact .some ⟨.none, hrest⟩
  · rcases rel_cases (alike_name hgap) with ⟨hname, hname'⟩ | ⟨name, name', hname, hname', hsame⟩
    · simp only [hcs, hds, hname, hname']
      exact .some ⟨.none, hrest⟩
    · simp only [hcs, hds, hname, hname']
      exact .some ⟨.some ⟨bytes_up_to_eq hgap h, hsame.1⟩, hsame.2⟩

theorem from_clause_same (h : l.Alike cs ds) : l.SameRemarks (fromClause cs) (fromClause ds) := by
  rw [fromClause, fromClause, all_blank_eq h]
  split
  · exact .nil
  · rcases rel_cases (first_occurrence_beside respects_from_table h) with
      ⟨hcs, hds⟩ | ⟨⟨offset, name⟩, ⟨offset', name'⟩, hcs, hds, rfl, hname⟩
    · rw [hcs, hds]
      exact same_remarks_refl _
    · rw [hcs, hds]
      cases hname with
      | none => exact same_remarks_refl _
      | @some x y hxy =>
          obtain ⟨gap, name⟩ := x
          obtain ⟨gap', name'⟩ := y
          obtain ⟨rfl, hsame⟩ := hxy
          simp only [capitals_eq hsame]
          split
          · exact .nil
          · exact same_one ((same_message (same_quotation _ _ hsame)).placed rfl)

theorem alike_drop_last_blanks (h : l.Alike cs ds) :
    l.Alike (dropLastBlanks cs) (dropLastBlanks ds) :=
  List.rel_reverse (alike_drop_blanks (List.rel_reverse h))

theorem rel_last (h : l.Alike cs ds) : Option.Rel l.like cs.getLast? ds.getLast? := by
  rw [← List.head?_reverse, ← List.head?_reverse]
  exact rel_head (List.rel_reverse h)

theorem whitespace_and_terminator_same (h : l.Alike cs ds) :
    l.SameRemarks (whitespaceAndTerminator cs) (whitespaceAndTerminator ds) := by
  have hbody := alike_drop_last_blanks h
  have hblank : ∀ {c d : Char}, l.like c d → isBlank c = isBlank d := fun hlike =>
    hlike.eq_of_blind blind_is_blank
  have hhead := any_eq_of_rel (rel_head h) hblank
  have hlast := any_eq_of_rel (rel_last h) hblank
  have hmark : (dropLastBlanks cs).getLast? = some ';' ↔
      (dropLastBlanks ds).getLast? = some ';' := by
    rcases rel_cases (rel_last hbody) with ⟨hcs, hds⟩ | ⟨c, d, hcs, hds, hlike⟩
    · rw [hcs, hds]
    · rw [hcs, hds, Option.some.injEq, Option.some.injEq]
      exact like.mark_iff hlike (by decide) (by decide)
  simp only [whitespaceAndTerminator, outerBlanks, all_blank_eq h, hhead, hlast, hmark,
    byte_length_eq hbody]
  exact same_remarks_refl _

end Ariel.Text.Likeness
