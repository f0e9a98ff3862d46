import Ariel.Proofs.Validation.Mask
import Ariel.Proofs.Validation.Placement.Balance

/-!
# Balanced texts

`Balanced` is the grammar of texts whose parentheses match outside of single-quoted literals. Such a
text leaves the stack of open parentheses as it finds it (`parentheses_of_balanced`), so that the
check of parentheses has nothing to say of it.
-/

namespace Ariel.Validation

open Ariel.Text

variable {cs ds rest : List Char}

/-- Texts with matching parentheses, in which a single-quoted literal counts as a whole. -/
inductive Balanced : List Char → Prop where
  | nil : Balanced []
  | other {c : Char} {cs : List Char} :
      c ≠ '\'' → c ≠ '(' → c ≠ ')' → Balanced cs → Balanced (c :: cs)
  | literal {content cs : List Char} :
      '\'' ∉ content → Balanced cs → Balanced ('\'' :: (content ++ '\'' :: cs))
  | group {inner cs : List Char} :
      Balanced inner → Balanced cs → Balanced ('(' :: (inner ++ ')' :: cs))

/-- Balanced texts one after the other are balanced. -/
theorem Balanced.append (h : Balanced cs) (hds : Balanced ds) : Balanced (cs ++ ds) := by
  induction h with
  | nil => exact hds
  | other hquote hopen hclose _ ih => exact .other hquote hopen hclose ih
  | literal hcontent _ ih =>
      have := Balanced.literal hcontent ih
      simpa using this
  | group hinner _ _ ih =>
      have := Balanced.group hinner ih
      simpa using this

/-- A text without quotes and parentheses is balanced. -/
theorem balanced_of_plain (h : ∀ c ∈ cs, c ≠ '\'' ∧ c ≠ '(' ∧ c ≠ ')') : Balanced cs := by
  induction cs with
  | nil => exact .nil
  | cons c cs ih =>
      obtain ⟨hquote, hopen, hclose⟩ := h c (by simp)
      exact .other hquote hopen hclose (ih fun d hd => h d (by simp [hd]))

/-- The literals of a balanced text are closed. -/
theorem Balanced.even_quotes (h : Balanced cs) : Even (cs.count '\'') := by
  induction h with
  | nil => exact ⟨0, rfl⟩
  | other hquote _ _ _ ih => rwa [List.count_cons_of_ne hquote]
  | literal hcontent _ ih =>
      rw [List.count_cons_self, List.count_append, List.count_cons_self,
        List.count_eq_zero_of_not_mem hcontent]
      simp only [Nat.zero_add]
      rw [Nat.add_assoc]
      exact ih.add ⟨1, rfl⟩
  | group _ _ ihinner ih =>
      rw [List.count_cons_of_ne (by decide), List.count_append, List.count_cons_of_ne (by decide)]
      exact ihinner.add ih

/-- Characters that are no parentheses are passed over. -/
theorem parentheses_of_plain (h : ∀ c ∈ cs, c ≠ '(' ∧ c ≠ ')') (opened : List Nat) (offset : Nat)
    (rest : List Char) :
    parentheses opened offset (cs ++ rest) = parentheses opened (offset + byteLength cs) rest := by
  induction cs generalizing offset with
  | nil => rfl
  | cons c cs ih =>
      obtain ⟨hopen, hclose⟩ := h c (by simp)
      have hrest : ∀ d ∈ cs, d ≠ '(' ∧ d ≠ ')' := fun d hd => h d (by simp [hd])
      rw [List.cons_append, parentheses_cons, if_neg hopen, if_neg hclose, ih hrest,
        byte_length_cons, Nat.add_assoc]

/-- The mask of a literal shows its quotes and spaces between them. -/
theorem mask_literal (hcontent : '\'' ∉ cs) :
    mask ('\'' :: (cs ++ '\'' :: ds)) =
      '\'' :: (List.replicate (byteLength cs) ' ' ++ '\'' :: mask ds) := by
  show maskFrom false ('\'' :: (cs ++ '\'' :: ds)) = _
  rw [maskFrom, if_pos rfl]
  exact congrArg _ (mask_from_content hcontent)

/-- A balanced text leaves the open parentheses as they are. -/
theorem parentheses_of_balanced (h : Balanced cs) (opened : List Nat) (offset : Nat)
    (rest : List Char) :
    parentheses opened offset (mask cs ++ rest) =
      parentheses opened (offset + byteLength cs) rest := by
  induction h generalizing opened offset rest with
  | nil => rfl
  | @other c cs hquote hopen hclose _ ih =>
      rw [mask_cons hquote, List.cons_append, parentheses_cons, if_neg hopen, if_neg hclose, ih,
        byte_length_cons, Nat.add_assoc]
  | @literal content cs hcontent _ ih =>
      -- The mask shows no parenthesis that stands in the literal.
      have hplain : ∀ c ∈ '\'' :: (List.replicate (byteLength content) ' ' ++ ['\'']),
          c ≠ '(' ∧ c ≠ ')' := by
        intro c hc
        simp only [List.mem_cons, List.mem_append, List.mem_replicate, List.not_mem_nil,
          or_false] at hc
        rcases hc with rfl | ⟨-, rfl⟩ | rfl <;> decide
      have hsplit : mask ('\'' :: (content ++ '\'' :: cs)) ++ rest =
          ('\'' :: (List.replicate (byteLength content) ' ' ++ ['\''])) ++ (mask cs ++ rest) := by
        rw [mask_literal hcontent]
        simp
      rw [hsplit, parentheses_of_plain hplain, ih]
      simp [Nat.add_assoc]
  | @group inner cs hinner _ ihinner ih =>
      have hmask : mask ('(' :: (inner ++ ')' :: cs)) = '(' :: (mask inner ++ ')' :: mask cs) := by
        show maskFrom false ('(' :: (inner ++ ')' :: cs)) = _
        rw [maskFrom, if_neg (by decide), if_neg (by decide)]
        show '(' :: mask (inner ++ ')' :: cs) = _
        rw [mask_append hinner.even_quotes]
        rfl
      have hsplit : mask ('(' :: (inner ++ ')' :: cs)) ++ rest =
          '(' :: (mask inner ++ (')' :: (mask cs ++ rest))) := by
        rw [hmask]
        simp
      rw [hsplit, parentheses_cons, if_pos rfl, ihinner, parentheses_cons, if_neg (by decide),
        if_pos rfl]
      show parentheses opened _ (mask cs ++ rest) = _
      rw [ih]
      simp [Nat.add_assoc]

/-- Texts that close so many parentheses that are open before them, and are balanced otherwise. -/
inductive Closing : Nat → List Char → Prop where
  | balanced {cs : List Char} : Balanced cs → Closing 0 cs
  | close {inner cs : List Char} {opened : Nat} :
      Balanced inner → Closing opened cs → Closing (opened + 1) (inner ++ ')' :: cs)

/-- A balanced text can be put in front. -/
theorem Closing.prepend {opened : Nat} (h : Closing opened ds) (hcs : Balanced cs) :
    Closing opened (cs ++ ds) := by
  cases h with
  | balanced hds => exact .balanced (hcs.append hds)
  | close hinner hrest =>
      rw [← List.append_assoc]
      exact .close (hcs.append hinner) hrest

/-- An opening parenthesis in front takes the first closing one. -/
theorem Closing.group {opened : Nat} (h : Closing (opened + 1) cs) :
    Closing opened ('(' :: cs) := by
  cases h with
  | @close inner rest _ hinner hrest =>
      have hgroup := hrest.prepend (.group hinner .nil)
      simpa using hgroup

/-- A text of which the check has nothing to say closes what is open before it. -/
theorem closing_of_parentheses {opened : List Nat} {offset : Nat}
    (h : parentheses opened offset (mask cs) = []) (hcs : endsInside false cs = false) :
    Closing opened.length cs := by
  -- A literal is passed over as a whole, so the induction is on the length.
  induction hlength : cs.length using Nat.strong_induction_on generalizing opened offset cs with
  | _ n ih =>
    cases cs with
    | nil =>
        cases opened with
        | nil => exact .balanced .nil
        | cons last opened => cases h
    | cons c cs =>
        rw [List.length_cons] at hlength
        by_cases hquote : c = '\''
        · subst hquote
          obtain ⟨content, rest, rfl, hcontent, hrest⟩ := exists_close_of_ends_inside hcs
          have hliteral : Balanced ('\'' :: (content ++ '\'' :: [])) := .literal hcontent .nil
          have hsplit : '\'' :: (content ++ '\'' :: rest) =
              ('\'' :: (content ++ '\'' :: [])) ++ rest := by simp
          rw [hsplit, mask_append hliteral.even_quotes, parentheses_of_balanced hliteral] at h
          rw [List.length_append, List.length_cons] at hlength
          rw [hsplit]
          exact (ih rest.length (by omega) h hrest rfl).prepend hliteral
        · rw [endsInside, if_neg hquote] at hcs
          rw [mask_cons hquote, parentheses_cons] at h
          by_cases hopen : c = '('
          · subst hopen
            rw [if_pos rfl] at h
            exact (ih cs.length (by omega) h hcs rfl).group
          · rw [if_neg hopen] at h
            by_cases hclose : c = ')'
            · subst hclose
              rw [if_pos rfl] at h
              cases opened with
              | nil => cases h
              | cons last opened => exact .close .nil (ih cs.length (by omega) h hcs rfl)
            · rw [if_neg hclose] at h
              exact (ih cs.length (by omega) h hcs rfl).prepend (.other hquote hopen hclose .nil)

/-- The check of parentheses has nothing to say exactly of balanced texts, when their literals are
closed. -/
theorem balanced_iff : Balanced cs ↔
    Even (cs.count '\'') ∧ balancedParentheses (mask cs) = [] := by
  constructor
  · intro h
    refine ⟨h.even_quotes, ?_⟩
    have hrest := parentheses_of_balanced h [] 0 []
    rw [List.append_nil] at hrest
    rw [balancedParentheses, hrest]
    rfl
  · rintro ⟨heven, h⟩
    cases closing_of_parentheses h (ends_inside_of_even heven) with
    | balanced hcs => exact hcs

end Ariel.Validation
