import Ariel.Proofs.Validation.Padding.Basic
import Ariel.Proofs.Validation.Pattern

/-!
# The outline of a query with blanks around it

The first checks follow the text that they look at.
-/

namespace Ariel.Validation

open Ariel.Text

variable {gap cs ds : List Char}

/-- Blanks around a text do not make it blank, nor something else. -/
theorem stays_all_blank : Stays (List.all · isBlank) where
  in_front hc cs := by rw [List.all_cons, hc, Bool.true_and]
  behind h := by rw [h.split, List.all_append, List.all_eq_true.mpr h.blank, Bool.and_true]

theorem follows_empty_query : RemarksFollow emptyQuery where
  in_front hc cs := by
    rw [emptyQuery, emptyQuery, stays_all_blank.in_front hc]
    split <;> rfl
  behind h := by rw [emptyQuery, emptyQuery, stays_all_blank.behind h]

/-- Whether a text begins with a keyword, blanks apart, does not depend on blanks around it. -/
theorem stays_leading {keyword : String} (hkeyword : Word keyword.toList) :
    Stays fun cs => (keyword? keyword (dropBlanks cs)).isSome where
  in_front {c} hc cs := by
    have hdrop : dropBlanks (c :: cs) = dropBlanks cs := List.dropWhile_cons_of_pos hc
    rw [hdrop]
  behind h := by
    have hend : keyword? keyword [] = none := keyword_eq_none hkeyword (by simp)
    exact (is_some_eq_of_rel (rel_drop_blanks hend hend (trails_keyword hkeyword.2) h)).symm

theorem follows_leading_select : RemarksFollow leadingSelect := by
  have hword : Word "SELECT".toList := by decide
  have hselect := follows_first_occurrence (ignores_whole_word hword)
  have hleading := stays_leading hword
  refine ⟨fun hc cs => ?_, fun h => ?_⟩
  · rw [leadingSelect, leadingSelect, stays_all_blank.in_front hc, hselect.in_front hc,
      hleading.in_front hc]
    split
    · rfl
    · cases firstOccurrence? (wholeWord "SELECT") cs with
      | none => rfl
      | some select =>
          simp only [Option.map_some]
          split <;> rfl
  · rw [leadingSelect, leadingSelect, stays_all_blank.behind h, hselect.behind h,
      hleading.behind h]

theorem name_at_blank {c : Char} (h : isBlank c = true) (cs : List Char) :
    name? (c :: cs) = none := by
  rw [name?, begins_name_of_blank h]
  rfl

theorem leaves_name (h : Trails gap cs ds) : Option.Rel (Leaves gap) (name? cs) (name? ds) := by
  obtain ⟨hblank, rfl⟩ := h
  cases cs with
  | nil =>
      cases gap with
      | nil => exact .none
      | cons c gap =>
          rw [List.nil_append, name_at_blank (hblank c List.mem_cons_self)]
          exact .none
  | cons c cs =>
      have hrest : Trails gap cs (cs ++ gap) := ⟨hblank, rfl⟩
      obtain ⟨hname, hbehind⟩ := hrest.run continues_name_of_blank
      rw [List.cons_append, name?, name?, hname]
      split
      · exact .some ⟨rfl, hbehind⟩
      · exact .none

theorem ignores_from_table : IgnoresBlanks fromTable := by
  refine ignores_behind (ignores_whole_word (by decide)) (leaves_whole_word (by decide)) ?_
  intro gap cs ds x y h hxy
  obtain ⟨u, rest⟩ := x
  obtain ⟨u', rest'⟩ := y
  have hrest : Trails gap rest rest' := hxy.2
  rcases hrest.blanks with ⟨more, more', hcs, hds, hmore, -⟩ | ⟨hcs, hds⟩
  · rcases rel_cases (leaves_name hmore) with
      ⟨hname, hname'⟩ | ⟨⟨name, behind⟩, ⟨name', behind'⟩, hname, hname', hsame, hbehind⟩
    · simp only [hcs, hds, hname, hname']
      exact .some ⟨rfl, .inl hrest⟩
    · obtain rfl : name = name' := hsame
      simp only [hcs, hds, hname, hname', h.bytes_up_to_eq hmore]
      exact .some ⟨rfl, .inl hbehind⟩
  · -- Where only blanks are left, no name follows.
    rcases hcs with hcs | hcs <;> rcases hds with hds | hds <;> simp only [hcs, hds, name?] <;>
      exact .some ⟨rfl, .inl hrest⟩

theorem follows_from_clause : RemarksFollow fromClause := by
  have htable := follows_first_occurrence ignores_from_table
  refine ⟨fun {c} hc cs => ?_, fun h => ?_⟩
  · rw [fromClause, fromClause, stays_all_blank.in_front hc, htable.in_front hc]
    split
    · rfl
    · cases firstOccurrence? fromTable cs with
      | none => rfl
      | some found =>
          obtain ⟨offset, _ | ⟨gap, name⟩⟩ := found
          · rfl
          · simp only [Option.map_some, Occurrence.shifted, Nat.add_assoc]
            split <;> rfl
  · rw [fromClause, fromClause, stays_all_blank.behind h, htable.behind h]

end Ariel.Validation
