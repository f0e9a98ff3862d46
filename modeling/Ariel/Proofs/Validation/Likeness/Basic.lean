import Ariel.Proofs.Text.Likeness.Pattern
import Ariel.Validation.Mask
import Ariel.Validation.Remark

/-!
# Remarks on queries that are alike

Masks and excerpts of texts that are alike are alike. `SameRemark` says when two remarks correspond,
and what is made in the same way of things that correspond does so, too.
-/

namespace Ariel.Text.Likeness

open Ariel.Validation

variable {l : Likeness} {cs ds : List Char}

/-- Two texts that are alike have masks that are. -/
theorem alike_mask_from (h : l.Alike cs ds) (inside : Bool) :
    l.Alike (maskFrom inside cs) (maskFrom inside ds) := by
  induction h generalizing inside with
  | nil => exact .nil
  | @cons c d cs ds hlike _ ih =>
      unfold maskFrom
      simp only [quote_like hlike, hlike.eq_of_blind blind_utf8_size]
      split
      · exact .cons hlike (ih _)
      · split
        · exact List.rel_append (alike_refl _) (ih _)
        · exact .cons hlike (ih _)

theorem alike_mask (h : l.Alike cs ds) : l.Alike (mask cs) (mask ds) :=
  alike_mask_from h false

theorem alike_around (h : l.Alike cs ds) (position offset : Nat) :
    l.Alike (around position offset cs) (around position offset ds) := by
  induction h generalizing offset with
  | nil => exact .nil
  | @cons c d cs ds hlike _ ih =>
      simp only [around, hlike.eq_of_blind blind_utf8_size]
      split
      · exact .cons hlike (ih _)
      · exact ih _

/-- What stands around a place of two texts that are alike is alike. -/
theorem alike_excerpt (h : l.Alike cs ds) (position : Nat) :
    l.Alike (excerpt cs position).toList (excerpt ds position).toList := by
  rw [excerpt, excerpt, String.toList_ofList, String.toList_ofList]
  exact alike_trimmed (alike_around h position 0)

/-- Remarks of the same severity at the same position, whose messages are the same text. -/
structure SameRemark (l : Likeness) (remark other : Remark) : Prop where
  severity : remark.severity = other.severity
  position : remark.position = other.position
  message : l.Same remark.message.toList other.message.toList

/-- Remarks that correspond one by one. -/
abbrev SameRemarks (l : Likeness) : List Remark → List Remark → Prop :=
  List.Forall₂ l.SameRemark

section Remark

variable {remark other : Remark} {s s' t t' : String}

theorem same_remark_refl (remark : Remark) : l.SameRemark remark remark :=
  ⟨rfl, rfl, same_refl_text _⟩

theorem same_remarks_refl (remarks : List Remark) : l.SameRemarks remarks remarks :=
  List.forall₂_same.mpr fun remark _ => same_remark_refl remark

theorem same_message {severity : Severity} (h : l.Same s.toList s'.toList) :
    l.SameRemark { severity, message := s } { severity, message := s' } :=
  ⟨rfl, rfl, h⟩

theorem SameRemark.placed (h : l.SameRemark remark other) {position position' : Nat}
    (hposition : position = position') :
    l.SameRemark (remark.placed position) (other.placed position') :=
  ⟨h.severity, congrArg some hposition, h.message⟩

theorem same_one (h : l.SameRemark remark other) : l.SameRemarks [remark] [other] :=
  .cons h .nil

theorem same_text_append (h : l.Same s.toList s'.toList) (h' : l.Same t.toList t'.toList) :
    l.Same (s ++ t).toList (s' ++ t').toList := by
  rw [String.toList_append, String.toList_append]
  exact List.rel_append h h'

/-- A message that quotes one of two texts that are the same. -/
theorem same_quotation (left right : String) (h : l.Same cs ds) :
    l.Same (left ++ String.ofList cs ++ right).toList
      (left ++ String.ofList ds ++ right).toList := by
  refine same_text_append (same_text_append (same_refl_text _) ?_) (same_refl_text _)
  rwa [String.toList_ofList, String.toList_ofList]

/-- Sorting puts remarks that correspond in corresponding places. -/
theorem same_sort {remarks others : List Remark} (h : l.SameRemarks remarks others) :
    l.SameRemarks (Remark.sortByPosition remarks) (Remark.sortByPosition others) := by
  obtain ⟨hlength, hpairs⟩ := List.forall₂_iff_zip.mp h
  -- Both lists are sorted as the list of their pairs is, by the position that a pair has in common.
  let before : Remark → Remark → Bool := fun a b => a.position.getD 0 ≤ b.position.getD 0
  let pairs := (remarks.zip others).mergeSort fun a b => before a.1 b.1
  have hleft : Remark.sortByPosition remarks = pairs.map Prod.fst := by
    rw [List.map_mergeSort (s := before) (f := Prod.fst) fun _ _ _ _ => rfl,
      List.map_fst_zip hlength.le]
    rfl
  have hright : Remark.sortByPosition others = pairs.map Prod.snd := by
    have hsame : ∀ a ∈ remarks.zip others, ∀ b ∈ remarks.zip others,
        before a.1 b.1 = before a.2 b.2 := by
      intro a ha b hb
      simp only [before, (hpairs ha).position, (hpairs hb).position]
    rw [List.map_mergeSort (s := before) (f := Prod.snd) hsame, List.map_snd_zip hlength.ge]
    rfl
  rw [hleft, hright, SameRemarks, List.forall₂_map_left_iff, List.forall₂_map_right_iff,
    List.forall₂_same]
  exact fun pair hpair => hpairs (List.mem_mergeSort.mp hpair)

end Remark

end Ariel.Text.Likeness
