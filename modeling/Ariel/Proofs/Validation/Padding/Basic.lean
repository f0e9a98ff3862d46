import Ariel.Proofs.Text.Padding.Pattern
import Ariel.Proofs.Validation.Excerpt
import Ariel.Proofs.Validation.Mask

/-!
# Remarks on a query with blanks around it

The mask of a query with blanks around it is the mask of the query with blanks around it, also where
a literal without an end takes in those behind (`follows_mask`). Around a place of the query the
same text is shown (`excerpt_around_blanks`). Remarks follow a text when a blank in front of it
moves their positions and blanks behind it do not change them.
-/

namespace Ariel.Validation

open Ariel.Text

variable {α : Type} {gap cs ds left right : List Char} {inside : Bool}

section Mask

/-- A blank is no quote. -/
theorem ne_quote_of_blank {c : Char} (h : isBlank c = true) : c ≠ '\'' := by
  rintro rfl
  cases h

/-- Blanks are shown as blanks, inside of literals and outside of them. -/
theorem mask_from_blank (h : ∀ c ∈ gap, isBlank c = true) :
    ∀ c ∈ maskFrom inside gap, isBlank c = true := by
  induction gap with
  | nil => exact h
  | cons d gap ih =>
      rw [List.forall_mem_cons] at h
      have hd : ∀ c ∈ maskFrom inside [d], isBlank c = true := by
        rcases mask_from_singleton inside d with hsame | hblank
        · rw [hsame]
          simpa using h.1
        · exact hblank
      have hinside : endsInside inside [d] = inside := if_neg (ne_quote_of_blank h.1)
      rw [← List.singleton_append, mask_from_append, hinside]
      exact List.forall_mem_append.mpr ⟨hd, ih h.2⟩

/-- Blanks behind a text are blanks behind its mask. -/
theorem mask_trails (h : Trails gap cs ds) : ∃ gap', Trails gap' (mask cs) (mask ds) :=
  ⟨maskFrom (endsInside false cs) gap, mask_from_blank h.blank, by
    rw [h.split]
    exact mask_from_append ..⟩

/-- What follows the mask of a text follows the text. -/
theorem follows_mask {move : Nat → α → α} {f : List Char → α} (hf : Follows move f) :
    Follows move fun cs => f (mask cs) where
  in_front hc cs := by rw [mask_cons (ne_quote_of_blank hc), hf.in_front hc]
  behind h := by
    obtain ⟨gap', hmask⟩ := mask_trails h
    exact hf.behind hmask

end Mask

section Excerpt

/-- Only the distance from a position matters to its surroundings. -/
theorem around_add (n position offset : Nat) (cs : List Char) :
    around (n + position) (n + offset) cs = around position offset cs := by
  induction cs generalizing offset with
  | nil => rfl
  | cons c cs ih =>
      have hpos := c.utf8Size_pos
      have hinside : (n + position - excerptRadius < n + offset + c.utf8Size &&
            n + offset < n + position + excerptRadius) =
          (position - excerptRadius < offset + c.utf8Size &&
            offset < position + excerptRadius) := by
        rw [Bool.eq_iff_iff]
        simp only [Bool.and_eq_true, decide_eq_true_eq]
        omega
      rw [around, around, hinside, Nat.add_assoc, ih]

/-- The surroundings are part of the text. -/
theorem mem_of_mem_around {c : Char} {position offset : Nat} (h : c ∈ around position offset cs) :
    c ∈ cs := by
  induction cs generalizing offset with
  | nil => cases h
  | cons d cs ih =>
      unfold around at h
      split at h
      · rcases List.mem_cons.mp h with rfl | h
        · exact List.mem_cons_self
        · exact List.mem_cons_of_mem _ (ih h)
      · exact List.mem_cons_of_mem _ (ih h)

/-- Around a place of a text the same is shown when the text has blanks around it. -/
theorem excerpt_around_blanks (hleft : ∀ c ∈ left, isBlank c = true)
    (hright : ∀ c ∈ right, isBlank c = true) (cs : List Char) (position : Nat) :
    excerpt (left ++ cs ++ right) (byteLength left + position) = excerpt cs position := by
  have hmiddle : around (byteLength left + position) (0 + byteLength left) cs =
      around position 0 cs := by
    rw [Nat.add_comm 0]
    exact around_add ..
  rw [excerpt, excerpt, around_append, around_append, hmiddle]
  exact congrArg String.ofList (trimmed_around_blanks (fun c hc => hleft c (mem_of_mem_around hc))
    fun c hc => hright c (mem_of_mem_around hc))

end Excerpt

/-- The remark as made behind so many more bytes. -/
def Remark.shifted (n : Nat) (remark : Remark) : Remark :=
  { remark with position := remark.position.map (n + ·) }

/-- Remarks on a text follow it: a blank in front of the text moves their positions. -/
abbrev RemarksFollow (check : List Char → List Remark) : Prop :=
  EachFollows Remark.shifted check

/-- Remarks that all have a position are sorted in the same way behind more bytes. -/
theorem follows_sort {check : List Char → List Remark} (h : RemarksFollow check)
    (hplaced : ∀ cs, ∀ remark ∈ check cs, remark.position.isSome = true) :
    RemarksFollow fun cs => Remark.sortByPosition (check cs) where
  in_front {c} hc cs := by
    have hbefore : ∀ a ∈ check cs, ∀ b ∈ check cs,
        decide (a.position.getD 0 ≤ b.position.getD 0) =
          decide ((a.shifted c.utf8Size).position.getD 0 ≤
            (b.shifted c.utf8Size).position.getD 0) := by
      intro a ha b hb
      obtain ⟨m, hm⟩ := Option.isSome_iff_exists.mp (hplaced cs a ha)
      obtain ⟨n, hn⟩ := Option.isSome_iff_exists.mp (hplaced cs b hb)
      simp [Remark.shifted, hm, hn]
    rw [h.in_front hc]
    exact (List.map_mergeSort hbefore).symm
  behind hgap := by rw [h.behind hgap]

end Ariel.Validation
