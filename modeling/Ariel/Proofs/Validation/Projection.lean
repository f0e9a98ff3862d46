import Ariel.Proofs.Validation.Outside

/-!
# Masking is a projection

A mask shows each quote, and each character outside of literals, where it stands in the text, and
spaces in place of the others (`slice_mask`). What is shown once is shown again, so a mask is its
own mask (`mask_mask`). A mask goes on behind a text as the literals of the text leave off, outside
of them or inside of the last one. `mask_projection` says all of this.
-/

namespace Ariel.Validation

open Ariel.Text

variable {cs tail content : List Char}

/-- A text ends inside of a literal exactly when its number of quotes is odd. -/
theorem ends_inside_iff : endsInside false cs = true ↔ ¬ Even (cs.count '\'') := by
  constructor
  · intro hinside heven
    rw [ends_inside_of_even heven] at hinside
    cases hinside
  · intro hodd
    rw [← Bool.not_eq_false]
    exact fun houtside => hodd (even_of_ends_inside houtside)

/-- Masking a mask changes nothing, whether the text begins inside of a literal or outside. -/
theorem mask_from_mask_from (inside : Bool) (cs : List Char) :
    maskFrom inside (maskFrom inside cs) = maskFrom inside cs := by
  induction cs generalizing inside with
  | nil => rfl
  | cons c cs ih =>
      by_cases hquote : c = '\''
      · simp only [maskFrom, if_pos hquote, ih]
      · cases inside with
        | false => simp only [maskFrom, if_neg hquote, Bool.false_eq_true, if_false, ih]
        | true =>
            have hspaces : '\'' ∉ List.replicate c.utf8Size ' ' := by
              intro hmem
              exact absurd (List.eq_of_mem_replicate hmem) (by decide)
            have hmask : maskFrom true (c :: cs) =
                List.replicate c.utf8Size ' ' ++ maskFrom true cs := by
              rw [maskFrom, if_neg hquote, if_pos rfl]
            rw [hmask, mask_from_content hspaces, byte_length_spaces, ih]

/-- A mask is its own mask. -/
@[simp]
theorem mask_mask (cs : List Char) : mask (mask cs) = mask cs :=
  mask_from_mask_from false cs

/-- What a mask shows of a character that stands behind a text: the character itself, when it is a
quote or stands outside of literals, and otherwise as many spaces as it takes bytes. -/
def shownBehind (front : List Char) (c : Char) : List Char :=
  if c = '\'' ∨ Even (front.count '\'') then [c] else List.replicate c.utf8Size ' '

/-- A character is shown behind the mask of what stands in front of it. -/
theorem mask_append_cons (front : List Char) (c : Char) (tail : List Char) :
    ∃ right, mask (front ++ c :: tail) = mask front ++ (shownBehind front c ++ right) := by
  have hparts : mask (front ++ c :: tail) =
      mask front ++ maskFrom (endsInside false front) (c :: tail) := mask_from_append false front _
  rw [hparts]
  unfold shownBehind
  by_cases hquote : c = '\''
  · rw [if_pos (.inl hquote), maskFrom, if_pos hquote]
    exact ⟨_, rfl⟩
  · by_cases heven : Even (front.count '\'')
    · rw [if_pos (.inr heven), ends_inside_of_even heven, maskFrom, if_neg hquote,
        if_neg (by decide)]
      exact ⟨_, rfl⟩
    · rw [if_neg (not_or.mpr ⟨hquote, heven⟩), ends_inside_iff.mpr heven, maskFrom, if_neg hquote,
        if_pos rfl]
      exact ⟨_, rfl⟩

/-- What is shown of a character takes as many bytes as the character. -/
theorem byte_length_shown_behind (front : List Char) (c : Char) :
    byteLength (shownBehind front c) = c.utf8Size := by
  unfold shownBehind
  split
  · exact Nat.add_zero _
  · exact byte_length_spaces _

/-- The mask shows a character at the bytes that the character takes in the text. -/
theorem slice_mask (front : List Char) (c : Char) (tail : List Char) :
    slice? (byteLength front) (byteLength front + c.utf8Size) (mask (front ++ c :: tail)) =
      some (shownBehind front c) := by
  obtain ⟨right, hmask⟩ := mask_append_cons front c tail
  have hfront : byteLength (mask front) = byteLength front := byte_length_mask_from false front
  refine slice_eq_some_iff.mpr ⟨mask front, right, by rw [hmask, List.append_assoc], hfront, ?_⟩
  rw [byte_length_append, hfront, byte_length_shown_behind]

/-- Behind a text that ends inside of a literal, a text is blanked up to its first quote. -/
theorem mask_append_inside (hodd : ¬ Even (cs.count '\'')) (tail : List Char) :
    ∃ content, '\'' ∉ content ∧
      ((tail = content ∧
          mask (cs ++ tail) = mask cs ++ List.replicate (byteLength content) ' ') ∨
        ∃ rest, tail = content ++ '\'' :: rest ∧ mask (cs ++ tail) =
          mask cs ++ (List.replicate (byteLength content) ' ' ++ '\'' :: mask rest)) := by
  have hparts : mask (cs ++ tail) = mask cs ++ maskFrom (endsInside false cs) tail :=
    mask_from_append false cs tail
  rw [ends_inside_iff.mpr hodd] at hparts
  obtain ⟨content, hcontent, hsplit⟩ := exists_content tail
  refine ⟨content, hcontent, ?_⟩
  rcases hsplit with htail | ⟨rest, htail⟩
  · left
    rw [hparts, htail, mask_from_unclosed hcontent]
    exact ⟨rfl, rfl⟩
  · right
    rw [hparts, htail, mask_from_closing hcontent]
    exact ⟨rest, rfl, rfl⟩

/-- Masking keeps the number of bytes and shows each character where it stands, or spaces in its
place; masking twice is masking once; and the mask of two texts behind each other is made of the
masks of both, or of what is left of the second one behind the literal that the first one leaves
open. -/
theorem mask_projection (cs : List Char) :
    byteLength (mask cs) = byteLength cs ∧
    (∀ front c tail, cs = front ++ c :: tail →
      slice? (byteLength front) (byteLength front + c.utf8Size) (mask cs) =
        some (if c = '\'' ∨ Even (front.count '\'') then [c]
          else List.replicate c.utf8Size ' ')) ∧
    mask (mask cs) = mask cs ∧
    (Even (cs.count '\'') → ∀ tail, mask (cs ++ tail) = mask cs ++ mask tail) ∧
    (¬ Even (cs.count '\'') → ∀ tail, ∃ content, '\'' ∉ content ∧
      ((tail = content ∧
          mask (cs ++ tail) = mask cs ++ List.replicate (byteLength content) ' ') ∨
        ∃ rest, tail = content ++ '\'' :: rest ∧ mask (cs ++ tail) =
          mask cs ++ (List.replicate (byteLength content) ' ' ++ '\'' :: mask rest))) := by
  refine ⟨byte_length_mask_from false cs, ?_, mask_mask cs, ?_, mask_append_inside⟩
  · intro front c tail hsplit
    rw [hsplit]
    exact slice_mask front c tail
  · intro heven tail
    exact mask_append heven

/-- A character of two bytes in an open literal is shown as two spaces, and what follows is blanked
up to the quote that closes the literal. -/
theorem mask_projection_open_literal :
    slice? 5 7 (mask "a = 'é".toList) = some [' ', ' '] ∧
      ¬ Even ("a = 'é".toList.count '\'') ∧
      mask ("a = 'é".toList ++ "(b' OR c".toList) =
        mask "a = 'é".toList ++ ([' ', ' '] ++ '\'' :: mask " OR c".toList) := by
  have hodd : ¬ Even ("a = 'é".toList.count '\'') := by decide
  obtain ⟨-, hshown, -, -, hinside⟩ := mask_projection "a = 'é".toList
  refine ⟨hshown "a = '".toList 'é' [] (by decide), hodd, ?_⟩
  obtain ⟨content, hcontent, ⟨htail, -⟩ | ⟨rest, htail, hmask⟩⟩ := hinside hodd "(b' OR c".toList
  · rw [← htail] at hcontent
    exact absurd (by decide) hcontent
  · obtain ⟨rfl, rfl⟩ := content_inj (by decide : '\'' ∉ "(b".toList) hcontent htail
    exact hmask

end Ariel.Validation
