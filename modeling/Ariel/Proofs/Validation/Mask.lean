import Mathlib.Algebra.Group.Nat.Even
import Ariel.Proofs.Text.Bytes
import Ariel.Validation.Mask

/-!
# Masks

A mask is made from left to right, and its only memory is whether the text so far ends inside a
literal (`mask_from_append`). Byte offsets are the same in a text and in its mask, and a run of
characters that are no blanks stands at the same offset in both (`mask_split`).
-/

namespace Ariel.Validation

open Ariel.Text

variable {inside : Bool} {cs front word tail : List Char}

/-- Whether a text ends inside a literal, when it begins inside or outside of one. -/
def endsInside : (inside : Bool) → List Char → Bool
  | inside, [] => inside
  | inside, c :: cs => endsInside (if c = '\'' then !inside else inside) cs

/-- The mask of a text in two parts is made of the masks of the parts. -/
theorem mask_from_append (inside : Bool) (front tail : List Char) :
    maskFrom inside (front ++ tail) =
      maskFrom inside front ++ maskFrom (endsInside inside front) tail := by
  induction front generalizing inside with
  | nil => rfl
  | cons c front ih =>
      simp only [List.cons_append, maskFrom, endsInside, ih]
      split
      · rw [List.cons_append]
      · split
        · rw [List.append_assoc]
        · rw [List.cons_append]

/-- A text in two parts ends where the second does behind the first. -/
theorem ends_inside_append (inside : Bool) (front tail : List Char) :
    endsInside inside (front ++ tail) = endsInside (endsInside inside front) tail := by
  induction front generalizing inside with
  | nil => rfl
  | cons c front ih => exact ih _

/-- A literal without an end so far ends where the number of quotes is odd. -/
theorem ends_inside_eq (inside : Bool) (cs : List Char) :
    endsInside inside cs = (inside ^^ decide (cs.count '\'' % 2 = 1)) := by
  induction cs generalizing inside with
  | nil => simp [endsInside]
  | cons c cs ih =>
      rw [endsInside, ih, List.count_cons]
      by_cases hquote : c = '\''
      · have hparity :
            decide ((cs.count '\'' + 1) % 2 = 1) = !decide (cs.count '\'' % 2 = 1) := by
          rw [← decide_not, decide_eq_decide]
          omega
        rw [if_pos hquote, hquote, if_pos (beq_self_eq_true _), hparity]
        cases inside <;> simp
      · simp [hquote]

/-- A mask takes as many bytes as its text. -/
@[simp]
theorem byte_length_mask_from (inside : Bool) (cs : List Char) :
    byteLength (maskFrom inside cs) = byteLength cs := by
  induction cs generalizing inside with
  | nil => rfl
  | cons c cs ih =>
      simp only [maskFrom]
      split
      · simp [ih]
      · split <;> simp [ih]

/-- Inside of a literal, what stands in front of its closing quote is shown as spaces. -/
theorem mask_from_content (hcontent : '\'' ∉ front) :
    maskFrom true (front ++ tail) =
      List.replicate (byteLength front) ' ' ++ maskFrom true tail := by
  induction front with
  | nil => rfl
  | cons c front ih =>
      have hc : c ≠ '\'' := fun hquote => hcontent (by simp [hquote])
      have hfront : '\'' ∉ front := fun hmem => hcontent (by simp [hmem])
      rw [List.cons_append, maskFrom, if_neg hc, if_pos rfl, ih hfront, byte_length_cons,
        List.replicate_add, List.append_assoc]

/-- Inside of a literal, a text without quotes is shown as spaces. -/
theorem mask_inside_of_no_quote (h : '\'' ∉ cs) :
    maskFrom true cs = List.replicate (byteLength cs) ' ' := by
  have hmask := @mask_from_content cs [] h
  rwa [List.append_nil, maskFrom, List.append_nil] at hmask

/-- A character of a mask that is no blank is a character of the text, and one that is no quote
stands outside of literals. -/
theorem mask_from_eq_cons {c : Char} (h : maskFrom inside cs = c :: tail) (hc : isBlank c = false) :
    ∃ cs', cs = c :: cs' ∧ maskFrom (endsInside inside [c]) cs' = tail ∧
      (c = '\'' ∨ inside = false) := by
  cases cs with
  | nil => cases h
  | cons d cs =>
      unfold maskFrom at h
      split at h
      next hquote =>
        obtain ⟨rfl, hmask⟩ := List.cons.inj h
        exact ⟨cs, rfl, by simpa [endsInside, hquote] using hmask, .inl hquote⟩
      next hquote =>
        split at h
        next =>
          -- The mask begins with the spaces that stand for a character of a literal.
          obtain ⟨n, hn⟩ := Nat.exists_eq_succ_of_ne_zero (Nat.ne_of_gt d.utf8Size_pos)
          rw [hn, List.replicate_succ, List.cons_append] at h
          rw [← (List.cons.inj h).1] at hc
          exact absurd hc (by decide)
        next hinside =>
          obtain ⟨rfl, hmask⟩ := List.cons.inj h
          exact ⟨cs, rfl, by simpa [endsInside, hquote] using hmask, .inr (by simpa using hinside)⟩

/-- A run of characters that are no blanks at the beginning of a mask begins its text. -/
theorem mask_from_eq_append (h : maskFrom inside cs = word ++ tail)
    (hword : ∀ c ∈ word, isBlank c = false) :
    ∃ cs', cs = word ++ cs' ∧ maskFrom (endsInside inside word) cs' = tail := by
  induction word generalizing inside cs with
  | nil => exact ⟨cs, rfl, h⟩
  | cons c word ih =>
      obtain ⟨cs', rfl, hmask, -⟩ := mask_from_eq_cons h (hword c (by simp))
      obtain ⟨cs'', rfl, hrest⟩ := ih hmask fun d hd => hword d (by simp [hd])
      exact ⟨cs'', rfl, hrest⟩

/-- A run without quotes at the beginning of a mask begins its text, when that begins outside of
literals. -/
theorem mask_false_eq_append (h : maskFrom false cs = word ++ tail) (hword : '\'' ∉ word) :
    ∃ cs', cs = word ++ cs' ∧ maskFrom false cs' = tail := by
  induction word generalizing cs with
  | nil => exact ⟨cs, rfl, h⟩
  | cons c word ih =>
      have hc : c ≠ '\'' := fun hquote => hword (by simp [hquote])
      cases cs with
      | nil => cases h
      | cons d cs =>
          unfold maskFrom at h
          split at h
          next hquote => exact absurd ((List.cons.inj h).1.symm.trans hquote) hc
          next =>
            rw [if_neg (by decide)] at h
            obtain ⟨rfl, hmask⟩ := List.cons.inj h
            obtain ⟨cs', rfl, hrest⟩ := ih hmask fun hmem => hword (by simp [hmem])
            exact ⟨cs', rfl, hrest⟩

/-- The mask of one character is that character, or blanks. -/
theorem mask_from_singleton (inside : Bool) (c : Char) :
    maskFrom inside [c] = [c] ∨ ∀ d ∈ maskFrom inside [c], isBlank d = true := by
  unfold maskFrom
  split
  · exact .inl rfl
  · split
    · refine .inr fun d hd => ?_
      have hspace : d ∈ List.replicate c.utf8Size ' ' := by simpa [maskFrom] using hd
      rw [List.eq_of_mem_replicate hspace]
      rfl
    · exact .inl rfl

/-- Where a character of a mask is no blank, the text can be split as well. -/
theorem mask_from_split {c : Char} (h : maskFrom inside cs = front ++ c :: tail)
    (hc : isBlank c = false) :
    ∃ front' cs', cs = front' ++ cs' ∧ maskFrom inside front' = front ∧
      maskFrom (endsInside inside front') cs' = c :: tail := by
  induction cs generalizing inside front with
  | nil => simp [maskFrom] at h
  | cons d cs ih =>
      have hcons : maskFrom inside (d :: cs) =
          maskFrom inside [d] ++ maskFrom (endsInside inside [d]) cs :=
        mask_from_append inside [d] cs
      have hparts := hcons.symm.trans h
      rcases List.append_eq_append_iff.mp hparts with ⟨more, hfront, hmask⟩ | ⟨more, hfirst, hmask⟩
      · obtain ⟨front', cs', rfl, hfront', htail⟩ := ih hmask
        refine ⟨d :: front', cs', rfl, ?_, htail⟩
        rw [← List.singleton_append, mask_from_append, hfront', hfront]
      · cases more with
        | nil => exact ⟨[d], cs, rfl, by simpa using hfirst, hmask.symm⟩
        | cons b more =>
            obtain ⟨rfl, -⟩ := List.cons.inj hmask
            rcases mask_from_singleton inside d with hsame | hblank
            · -- Nothing stands before the character in its own mask.
              rw [hsame] at hfirst
              cases front with
              | nil => exact ⟨[], d :: cs, rfl, rfl, h⟩
              | cons e front => simp at hfirst
            · rw [hblank c (by simp [hfirst])] at hc
              cases hc

/-- A run of characters that are no blanks stands at the same offset in a text and in its mask. -/
theorem mask_split (h : mask cs = front ++ word ++ tail) (hne : word ≠ [])
    (hword : ∀ c ∈ word, isBlank c = false) :
    ∃ front' tail', cs = front' ++ word ++ tail' ∧ byteLength front' = byteLength front := by
  cases word with
  | nil => exact absurd rfl hne
  | cons c word =>
      have hsplit : mask cs = front ++ c :: (word ++ tail) := by simpa using h
      obtain ⟨front', rest, rfl, rfl, hmask⟩ := mask_from_split hsplit (hword c (by simp))
      have hrun : maskFrom (endsInside false front') rest = (c :: word) ++ tail := hmask
      obtain ⟨tail', rfl, -⟩ := mask_from_eq_append hrun hword
      exact ⟨front', tail', by simp, (byte_length_mask_from _ _).symm⟩

section Outside

/-- A text with an even number of quotes ends inside of a literal when it begins there. -/
theorem ends_inside_of_even_count (h : Even (cs.count '\'')) : endsInside inside cs = inside := by
  rw [ends_inside_eq, Nat.even_iff.mp h]
  simp

/-- An even number of quotes closes every literal that was begun. -/
theorem ends_inside_of_even (h : Even (cs.count '\'')) : endsInside false cs = false :=
  ends_inside_of_even_count h

/-- A text that ends outside of literals has an even number of quotes. -/
theorem even_of_ends_inside (h : endsInside false cs = false) : Even (cs.count '\'') := by
  rw [ends_inside_eq] at h
  simp only [Bool.false_bne, decide_eq_false_iff_not] at h
  exact Nat.even_iff.mpr (by omega)

/-- What does not occur occurs an even number of times. -/
theorem even_count_of_not_mem {mark : Char} (h : mark ∉ cs) : Even (cs.count mark) := by
  rw [List.count_eq_zero_of_not_mem h]
  exact ⟨0, rfl⟩

/-- No quote is a blank. -/
theorem quote_not_mem_blanks {gap : List Char} (hgap : ∀ c ∈ gap, isBlank c = true) :
    '\'' ∉ gap :=
  fun hmem => absurd (hgap _ hmem) (by decide)

/-- A literal that is closed has its closing quote. -/
theorem exists_close_of_ends_inside (h : endsInside true cs = false) :
    ∃ content rest,
      cs = content ++ '\'' :: rest ∧ '\'' ∉ content ∧ endsInside false rest = false := by
  induction cs with
  | nil => cases h
  | cons c cs ih =>
      by_cases hquote : c = '\''
      · rw [endsInside, if_pos hquote] at h
        exact ⟨[], cs, by rw [hquote]; rfl, List.not_mem_nil, h⟩
      · rw [endsInside, if_neg hquote] at h
        obtain ⟨content, rest, rfl, hcontent, hrest⟩ := ih h
        refine ⟨c :: content, rest, rfl, ?_, hrest⟩
        simp only [List.mem_cons, not_or]
        exact ⟨Ne.symm hquote, hcontent⟩

/-- A text in two parts, of which the first closes its literals, is masked part by part. -/
theorem mask_append (h : Even (front.count '\'')) :
    mask (front ++ tail) = mask front ++ mask tail := by
  rw [mask, mask_from_append, ends_inside_of_even h]
  rfl

/-- Outside of literals, a character that is no quote is its own mask. -/
theorem mask_cons {c : Char} (h : c ≠ '\'') (cs : List Char) : mask (c :: cs) = c :: mask cs := by
  show maskFrom false (c :: cs) = _
  rw [maskFrom, if_neg h, if_neg (by decide)]
  rfl

/-- A text without quotes is its own mask. -/
theorem mask_of_no_quote (h : '\'' ∉ cs) : mask cs = cs := by
  induction cs with
  | nil => rfl
  | cons c cs ih =>
      have hc : c ≠ '\'' := fun hquote => h (by simp [hquote])
      have hcs : '\'' ∉ cs := fun hmem => h (by simp [hmem])
      rw [mask_cons hc, ih hcs]

/-- Without quotes, the beginning of a text is that of its mask. -/
theorem mask_append_of_no_quote (h : '\'' ∉ front) : mask (front ++ tail) = front ++ mask tail := by
  rw [mask_append (even_count_of_not_mem h), mask_of_no_quote h]

/-- A run without quotes that stands outside of literals is shown by the mask. -/
theorem mask_run (heven : Even (front.count '\'')) (hword : '\'' ∉ word) :
    mask (front ++ (word ++ tail)) = mask front ++ (word ++ mask tail) := by
  rw [mask_append heven, mask_append_of_no_quote hword]

/-- Outside of literals, the first character of a mask is that of its text. -/
@[simp]
theorem head_mask (cs : List Char) : (maskFrom false cs).head? = cs.head? := by
  cases cs with
  | nil => rfl
  | cons c cs =>
      unfold maskFrom
      split <;> rfl

/-- Where a text ends outside of literals, its last character is that of its mask. -/
theorem last_mask (h : endsInside inside cs = false) :
    (maskFrom inside cs).getLast? = cs.getLast? := by
  rcases List.eq_nil_or_concat' cs with rfl | ⟨init, c, rfl⟩
  · rfl
  · have hmask : maskFrom (endsInside inside init) [c] = [c] := by
      by_cases hquote : c = '\''
      · rw [maskFrom, if_pos hquote]
        rfl
      · have hinit : endsInside inside init = false := by
          rwa [ends_inside_append, endsInside, if_neg hquote] at h
        rw [hinit, maskFrom, if_neg hquote, if_neg (by decide)]
        rfl
    rw [mask_from_append, hmask]
    simp

/-- A character of a mask that is neither a blank nor a quote stands outside of literals. -/
theorem exists_outside_of_mask {c : Char} (h : mask cs = front ++ c :: tail)
    (hsolid : isBlank c = false) (hquote : c ≠ '\'') :
    ∃ front' rest, cs = front' ++ c :: rest ∧ mask front' = front ∧ Even (front'.count '\'') ∧
      mask rest = tail := by
  obtain ⟨front', cs', rfl, hfront, hmask⟩ := mask_from_split h hsolid
  obtain ⟨rest, rfl, hrest, houtside⟩ := mask_from_eq_cons hmask hsolid
  have hinside : endsInside false front' = false := houtside.resolve_left hquote
  rw [hinside, endsInside, if_neg hquote, endsInside] at hrest
  exact ⟨front', rest, rfl, hfront, even_of_ends_inside hinside, hrest⟩

/-- A run without quotes that begins with no blank is shown by a mask where it stands in the text,
outside of literals. -/
theorem exists_run_of_mask (h : mask cs = front ++ (word ++ tail)) (hne : word ≠ [])
    (hsolid : ∀ c ∈ word.head?, isBlank c = false) (hword : '\'' ∉ word) :
    ∃ front' rest, cs = front' ++ (word ++ rest) ∧ mask front' = front ∧
      Even (front'.count '\'') ∧ mask rest = tail := by
  obtain ⟨c, more, rfl⟩ := List.exists_cons_of_ne_nil hne
  simp only [List.mem_cons, not_or] at hword
  obtain ⟨front', cs', rfl, hfront, heven, hmask⟩ :=
    exists_outside_of_mask h (hsolid c rfl) (Ne.symm hword.1)
  obtain ⟨rest, rfl, hrest⟩ := mask_false_eq_append hmask hword.2
  exact ⟨front', rest, rfl, hfront, heven, hrest⟩

end Outside

end Ariel.Validation
