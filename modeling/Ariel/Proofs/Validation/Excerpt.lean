import Ariel.Proofs.Text.Blank
import Ariel.Proofs.Text.Bytes
import Ariel.Validation.Remark

/-!
# Excerpts

The surroundings of a character are the characters between two byte offsets, widened to boundaries.
`Surrounds` describes them by what is left out on either side; from it follow how far an excerpt
reaches (`excerpt_split`) and that it is a slice of the text (`excerpt_by_slice_eq`).
-/

namespace Ariel.Validation

open Ariel.Text

variable {cs xs before after : List Char} {c : Char} {position offset : Nat}

/-- The surroundings of a position in a text in two parts. -/
theorem around_append (position offset : Nat) (cs ds : List Char) :
    around position offset (cs ++ ds) =
      around position offset cs ++ around position (offset + byteLength cs) ds := by
  induction cs generalizing offset with
  | nil => rfl
  | cons c cs ih =>
      simp only [List.cons_append, around, ih, byte_length_cons, ← Nat.add_assoc]
      split <;> rfl

/-- Characters between the two ends of the surroundings belong to them. -/
theorem around_inside (hstart : position - excerptRadius ≤ offset)
    (hstop : offset + byteLength cs ≤ position + excerptRadius) :
    around position offset cs = cs := by
  induction cs generalizing offset with
  | nil => rfl
  | cons c cs ih =>
      have hpos := c.utf8Size_pos
      rw [byte_length_cons] at hstop
      have hinside : (position - excerptRadius < offset + c.utf8Size &&
          offset < position + excerptRadius) = true := by
        simp only [Bool.and_eq_true, decide_eq_true_eq]
        omega
      unfold around
      rw [if_pos hinside, ih (by omega) (by omega)]

/-- Characters behind the surroundings do not belong to them. -/
theorem around_behind (h : position + excerptRadius ≤ offset) : around position offset cs = [] := by
  induction cs generalizing offset with
  | nil => rfl
  | cons c cs ih =>
      have houtside : ¬ (position - excerptRadius < offset + c.utf8Size &&
          offset < position + excerptRadius) = true := by
        simp only [Bool.and_eq_true, decide_eq_true_eq]
        omega
      unfold around
      rw [if_neg houtside, ih (by omega)]

/-- The surroundings on the left of a position, with what is left out before them. -/
theorem around_left (h : offset + byteLength cs = position) :
    ∃ front left, cs = front ++ left ∧ around position offset cs = left ∧
      (front = [] ∨ offset + byteLength front ≤ position - excerptRadius) ∧
      ∀ d ∈ left.head?, position - excerptRadius < offset + byteLength front + d.utf8Size := by
  induction cs generalizing offset with
  | nil => exact ⟨[], [], rfl, rfl, .inl rfl, by simp⟩
  | cons d cs ih =>
      rw [byte_length_cons] at h
      -- The first character that ends inside of the surroundings belongs to them, and so do all
      -- others up to the position.
      by_cases hreached : position - excerptRadius < offset + d.utf8Size
      · have hpos := d.utf8Size_pos
        have hd : (position - excerptRadius < offset + d.utf8Size &&
            offset < position + excerptRadius) = true := by
          simp only [Bool.and_eq_true, decide_eq_true_eq]
          omega
        have hrest : around position (offset + d.utf8Size) cs = cs :=
          around_inside (by omega) (by omega)
        refine ⟨[], d :: cs, rfl, ?_, .inl rfl, by simpa using hreached⟩
        unfold around
        rw [if_pos hd, hrest]
      · have hnext : offset + d.utf8Size + byteLength cs = position := by omega
        obtain ⟨front, left, rfl, hleft, hfront, hhead⟩ := ih hnext
        refine ⟨d :: front, left, rfl, ?_, .inr ?_, ?_⟩
        · unfold around
          rw [if_neg (by simp [hreached]), hleft]
        · rcases hfront with rfl | hfront
          · simp only [byte_length_cons, byte_length_nil]
            omega
          · rw [byte_length_cons]
            omega
        · intro e he
          have := hhead e he
          rw [byte_length_cons]
          omega

/-- The surroundings on the right of a position, with what is left out behind them. -/
theorem around_right (hstart : position ≤ offset) :
    ∃ right tail, cs = right ++ tail ∧ around position offset cs = right ∧
      (tail = [] ∨ position + excerptRadius ≤ offset + byteLength right) ∧
      ∀ d ∈ right.getLast?, offset + byteLength right < position + excerptRadius + d.utf8Size := by
  induction cs generalizing offset with
  | nil => exact ⟨[], [], rfl, rfl, .inl rfl, by simp⟩
  | cons d cs ih =>
      have hpos := d.utf8Size_pos
      -- A character belongs to the surroundings when it begins inside of them, even where it ends
      -- behind them.
      by_cases hreached : offset < position + excerptRadius
      · have hd : (position - excerptRadius < offset + d.utf8Size &&
            offset < position + excerptRadius) = true := by
          simp only [Bool.and_eq_true, decide_eq_true_eq]
          omega
        have hnext : position ≤ offset + d.utf8Size := by omega
        obtain ⟨right, tail, rfl, hright, htail, hlast⟩ := ih hnext
        refine ⟨d :: right, tail, rfl, ?_, ?_, ?_⟩
        · unfold around
          rw [if_pos hd, hright]
        · rw [byte_length_cons, ← Nat.add_assoc]
          exact htail
        · intro e he
          rw [byte_length_cons, ← Nat.add_assoc]
          cases right with
          | nil =>
              obtain rfl : d = e := by simpa using he
              rw [byte_length_nil]
              omega
          | cons b right => exact hlast e (by simpa [List.getLast?_cons_cons] using he)
      · exact ⟨[], d :: cs, rfl, around_behind (by omega), .inr (by simp; omega), by simp⟩

/-- How the surroundings of a character lie between the characters before and after it. What is left
out on either side ends at the boundary next to the end of the surroundings. -/
structure Surrounds (before : List Char) (c : Char) (after front left right tail : List Char) :
    Prop where
  before_eq : before = front ++ left
  after_eq : after = right ++ tail
  around_eq : around (byteLength before) 0 (before ++ c :: after) = left ++ c :: right
  front_le : byteLength front ≤ byteLength before - excerptRadius
  lt_left : ∀ d ∈ (left ++ [c]).head?,
    byteLength before - excerptRadius < byteLength front + d.utf8Size
  le_tail : tail = [] ∨ excerptRadius ≤ byteLength (c :: right)
  right_lt : ∀ d ∈ (c :: right).getLast?, byteLength (c :: right) < excerptRadius + d.utf8Size

/-- Every character has surroundings. -/
theorem exists_surrounds (before : List Char) (c : Char) (after : List Char) :
    ∃ front left right tail, Surrounds before c after front left right tail := by
  have hstart : 0 + byteLength before = byteLength before := Nat.zero_add _
  have hradius : excerptRadius = 12 := rfl
  obtain ⟨front, left, hbefore, hleft, hfront, hhead⟩ := around_left hstart
  obtain ⟨right, tail, hsplit, hright, htail, hlast⟩ :
      ∃ right tail, c :: after = right ++ tail ∧ _ :=
    around_right (Nat.le_refl (byteLength before))
  cases right with
  | nil =>
      rcases htail with rfl | htail
      · cases hsplit
      · rw [byte_length_nil] at htail
        omega
  | cons d right =>
      obtain ⟨rfl, hafter⟩ := List.cons.inj hsplit
      refine ⟨front, left, right, tail, hbefore, hafter, ?_, ?_, ?_, ?_, ?_⟩
      · rw [around_append, hleft, hstart, hright]
      · rcases hfront with rfl | hfront
        · exact Nat.zero_le _
        · omega
      · intro e he
        cases left with
        | nil =>
            have := e.utf8Size_pos
            rw [hbefore, List.append_nil]
            omega
        | cons b left =>
            have := hhead e (by simpa using he)
            omega
      · rcases htail with rfl | htail
        · exact .inl rfl
        · exact .inr (by omega)
      · intro e he
        have := hlast e he
        omega

section Surroundings

variable {front left right tail : List Char} (h : Surrounds before c after front left right tail)
include h

/-- Surroundings reach at most fifteen bytes to the left. -/
theorem Surrounds.left_le : byteLength left ≤ 15 := by
  have hradius : excerptRadius = 12 := rfl
  have hlength := congrArg byteLength h.before_eq
  rw [byte_length_append] at hlength
  cases left with
  | nil => exact Nat.zero_le _
  | cons d left =>
      have := h.lt_left d rfl
      have := d.utf8Size_le_four
      omega

/-- Surroundings reach at most fifteen bytes to the right. -/
theorem Surrounds.right_le : byteLength (c :: right) ≤ 15 := by
  have hradius : excerptRadius = 12 := rfl
  obtain ⟨d, hd⟩ : ∃ d, (c :: right).getLast? = some d :=
    ⟨_, List.getLast?_eq_some_getLast (List.cons_ne_nil c right)⟩
  have := h.right_lt d hd
  have := d.utf8Size_le_four
  omega

/-- The surroundings begin at the boundary that is found from their beginning outwards. -/
theorem Surrounds.floor_eq :
    floorBoundary (before ++ c :: after)
      (min (byteLength before - excerptRadius) (byteLength (before ++ c :: after))) =
        byteLength front := by
  have hmin : min (byteLength before - excerptRadius) (byteLength (before ++ c :: after)) =
      byteLength before - excerptRadius := by
    rw [byte_length_append]
    omega
  have hfront : before ++ c :: after = front ++ (left ++ c :: after) := by
    rw [h.before_eq, List.append_assoc]
  have hend : byteLength before - excerptRadius ≤ byteLength (before ++ c :: after) := by
    rw [byte_length_append]
    omega
  rw [hmin, hfront]
  refine floor_boundary_eq h.front_le (fun d hd => h.lt_left d ?_) (hfront ▸ hend)
  cases left with
  | nil => simpa using hd
  | cons b left => simpa using hd

/-- The text is what stands before the surroundings, the surroundings and what stands behind
them. -/
theorem Surrounds.split : before ++ c :: after = front ++ (left ++ c :: right) ++ tail := by
  rw [h.before_eq, h.after_eq]
  simp

/-- The surroundings end at the boundary that is found from their end outwards. -/
theorem Surrounds.ceil_eq :
    ceilBoundary (before ++ c :: after)
      (min (byteLength before + excerptRadius) (byteLength (before ++ c :: after))) =
        byteLength (front ++ (left ++ c :: right)) := by
  have htotal : byteLength (before ++ c :: after) =
      byteLength (front ++ (left ++ c :: right)) + byteLength tail := by
    rw [h.split, byte_length_append]
  have hlength : byteLength (front ++ (left ++ c :: right)) =
      byteLength before + byteLength (c :: right) := by
    rw [h.before_eq]
    simp [Nat.add_assoc]
  have hle : min (byteLength before + excerptRadius) (byteLength (before ++ c :: after)) ≤
      byteLength (front ++ (left ++ c :: right)) := by
    rcases h.le_tail with rfl | htail
    · rw [byte_length_nil] at htotal
      omega
    · omega
  generalize hmin :
    min (byteLength before + excerptRadius) (byteLength (before ++ c :: after)) = stop at hle ⊢
  rw [h.split]
  refine ceil_boundary_eq hle fun d hd => ?_
  have hd' : d ∈ (c :: right).getLast? := by
    simpa [List.getLast?_append, List.getLast?_cons] using hd
  have := h.right_lt d hd'
  have := c.utf8Size_pos
  have := d.utf8Size_pos
  have hcover : byteLength (c :: right) = c.utf8Size + byteLength right := byte_length_cons _ _
  omega

end Surroundings

/-- The excerpt around a character that is no blank is a part of the text that shows the character,
and at most fifteen bytes on either side of its beginning. -/
theorem excerpt_split (hc : isBlank c = false) (before after : List Char) :
    ∃ front left right tail, before = front ++ left ∧ after = right ++ tail ∧
      excerpt (before ++ c :: after) (byteLength before) = String.ofList (left ++ c :: right) ∧
      byteLength left ≤ 15 ∧ byteLength (c :: right) ≤ 15 := by
  obtain ⟨front, left, right, tail, h⟩ := exists_surrounds before c after
  obtain ⟨gap, hleft, -⟩ := drop_blanks_spec left
  obtain ⟨gap', hright, -⟩ := drop_last_blanks_spec right
  refine ⟨front ++ gap, dropBlanks left, dropLastBlanks right, gap' ++ tail, ?_, ?_, ?_, ?_, ?_⟩
  · rw [List.append_assoc, ← hleft, h.before_eq]
  · rw [← List.append_assoc, ← hright, h.after_eq]
  · rw [excerpt, h.around_eq, trimmed_around hc]
  · have hlength := congrArg byteLength hleft
    have := h.left_le
    rw [byte_length_append] at hlength
    omega
  · have hlength := congrArg byteLength hright
    have := h.right_le
    rw [byte_length_append] at hlength
    simp only [byte_length_cons] at *
    omega

/-- The excerpt as a slice: its ends are searched for from the ends of the surroundings outwards,
and the slice is trimmed. -/
def excerptBySlice? (cs : List Char) (position : Nat) : Option String :=
  let start := floorBoundary cs (min (position - excerptRadius) (byteLength cs))
  let stop := ceilBoundary cs (min (position + excerptRadius) (byteLength cs))
  (slice? start stop cs).map fun part => String.ofList (trimmed part)

/-- Around a character, the slice exists and is the excerpt. -/
theorem excerpt_by_slice_eq (before : List Char) (c : Char) (after : List Char) :
    excerptBySlice? (before ++ c :: after) (byteLength before) =
      some (excerpt (before ++ c :: after) (byteLength before)) := by
  obtain ⟨front, left, right, tail, h⟩ := exists_surrounds before c after
  have hslice : slice? (byteLength front) (byteLength (front ++ (left ++ c :: right)))
      (before ++ c :: after) = some (left ++ c :: right) :=
    slice_eq_some_iff.mpr ⟨front, tail, h.split, rfl, rfl⟩
  simp only [excerptBySlice?, h.floor_eq, h.ceil_eq, hslice, excerpt, h.around_eq, Option.map_some]

end Ariel.Validation
