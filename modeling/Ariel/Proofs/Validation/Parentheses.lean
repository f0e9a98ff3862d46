import Mathlib.Combinatorics.Enumerative.DyckWord
import Ariel.Proofs.Validation.Balance

/-!
# How parentheses are matched

The usual matching goes from left to right and gives each closing parenthesis the nearest opening
one before it that has none yet (`Matched`). The check of parentheses keeps a stack of those that
are open, which at every place holds the openings without a partner so far (`Stack`). What it
reports at the end are therefore the parentheses without a partner (`parentheses_matched`).
-/

namespace Ariel.Validation

open Ariel.Text

variable {mark : Char} {query text front tail : List Char} {offset : Nat}

/-- A character stands in a text at a byte offset. -/
def MarkIn (mark : Char) (text : List Char) (offset : Nat) : Prop :=
  ∃ front tail, text = front ++ mark :: tail ∧ byteLength front = offset

/-- A character stands in a query at a byte offset, outside of literals. -/
def MarkAt (mark : Char) (query : List Char) (offset : Nat) : Prop :=
  ∃ front tail, query = front ++ mark :: tail ∧ byteLength front = offset ∧
    Even (front.count '\'')

/-- Given the places of opening and of closing parentheses, each closing one is matched with the
nearest opening one before it that no earlier closing one is matched with. -/
def Matched (opens closes : Nat → Prop) (opening closing : Nat) : Prop :=
  closes closing ∧ opens opening ∧ opening < closing ∧
    (∀ earlier, (_ : earlier < closing) → ¬ Matched opens closes opening earlier) ∧
    ∀ between, opening < between → between < closing → opens between →
      ∃ earlier, ∃ _ : earlier < closing, Matched opens closes between earlier
termination_by closing

/-- An opening parenthesis without a partner stands at a place. -/
def LeftOpen (opens closes : Nat → Prop) (opening : Nat) : Prop :=
  opens opening ∧ ∀ closing, ¬ Matched opens closes opening closing

/-- A closing parenthesis without a partner stands at a place. -/
def Unexpected (opens closes : Nat → Prop) (closing : Nat) : Prop :=
  closes closing ∧ ∀ opening, ¬ Matched opens closes opening closing

/-- A list holds the places with a property, in increasing order. -/
structure Lists (places : List Nat) (property : Nat → Prop) : Prop where
  sorted : places.Pairwise (· < ·)
  mem_iff : ∀ place, place ∈ places ↔ property place

section Marks

/-- Within the bytes of one character no other character stands. -/
theorem eq_of_mark_in {c : Char} (h : MarkIn mark (front ++ c :: tail) offset)
    (hle : byteLength front ≤ offset) (hlt : offset < byteLength front + c.utf8Size) :
    offset = byteLength front ∧ c = mark := by
  obtain ⟨front', tail', hsplit, rfl⟩ := h
  have hnext : ∀ d ∈ (c :: tail).head?, byteLength front' < byteLength front + d.utf8Size := by
    intro d hd
    obtain rfl := Option.some.inj hd
    exact hlt
  obtain rfl := front_eq_of_offsets hsplit hle hnext
  exact ⟨rfl, (List.cons.inj (List.append_cancel_left hsplit)).1⟩

/-- Characters stand in front of the end of their text. -/
theorem MarkIn.lt (h : MarkIn mark text offset) : offset < byteLength text := by
  obtain ⟨front, tail, rfl, rfl⟩ := h
  have := mark.utf8Size_pos
  rw [byte_length_append, byte_length_cons]
  omega

/-- A character that is neither a blank nor a quote stands outside of literals where the mask shows
it. -/
theorem mark_at_eq (hsolid : isBlank mark = false) (hquote : mark ≠ '\'') (query : List Char) :
    MarkAt mark query = MarkIn mark (mask query) := by
  funext offset
  refine propext ⟨?_, ?_⟩
  · rintro ⟨front, tail, rfl, hoffset, heven⟩
    refine ⟨mask front, mask tail, ?_, ?_⟩
    · rw [mask_append heven, mask_cons hquote]
    · rw [mask, byte_length_mask_from, hoffset]
  · rintro ⟨front, tail, hsplit, hoffset⟩
    obtain ⟨front', rest, rfl, rfl, heven, -⟩ := exists_outside_of_mask hsplit hsolid hquote
    rw [mask, byte_length_mask_from] at hoffset
    exact ⟨front', rest, rfl, hoffset, heven⟩

end Marks

section Matching

variable {opens closes : Nat → Prop} {opening closing place next : Nat} {opened : List Nat}

/-- A stack holds the opening parentheses in front of a place that have no partner in front of it,
the last one first. -/
structure Stack (opens closes : Nat → Prop) (place : Nat) (opened : List Nat) : Prop where
  sorted : opened.Pairwise (· > ·)
  mem_iff : ∀ opening, opening ∈ opened ↔ opens opening ∧ opening < place ∧
    ∀ closing < place, ¬ Matched opens closes opening closing

/-- In front of a text the stack is empty. -/
theorem stack_nil : Stack opens closes 0 [] where
  sorted := List.Pairwise.nil
  mem_iff := by simp

/-- A closing parenthesis is matched with the last opening one of the stack. -/
theorem Stack.matched_iff (h : Stack opens closes place opened) (hcloses : closes place) :
    Matched opens closes opening place ↔ opened.head? = some opening := by
  rw [Matched]
  constructor
  · rintro ⟨-, hopens, hlt, hfirst, hnearest⟩
    have hmem : opening ∈ opened := (h.mem_iff opening).mpr ⟨hopens, hlt, hfirst⟩
    cases opened with
    | nil => cases hmem
    | cons last opened =>
        rcases List.mem_cons.mp hmem with rfl | hlater
        · rfl
        · -- The last opening one of the stack stands nearer and has no partner yet.
          have hnear : opening < last := List.rel_of_pairwise_cons h.sorted hlater
          obtain ⟨hlast, hbefore, hfree⟩ := (h.mem_iff last).mp List.mem_cons_self
          obtain ⟨earlier, hearlier, hmatched⟩ := hnearest last hnear hbefore hlast
          exact absurd hmatched (hfree earlier hearlier)
  · intro hhead
    obtain ⟨rest, rfl⟩ := List.head?_eq_some_iff.mp hhead
    obtain ⟨hopens, hlt, hfree⟩ := (h.mem_iff opening).mp List.mem_cons_self
    refine ⟨hcloses, hopens, hlt, hfree, fun between hlow hhigh hbetween => ?_⟩
    by_contra hnone
    have hmem : between ∈ opening :: rest := by
      refine (h.mem_iff between).mpr ⟨hbetween, hhigh, fun earlier hearlier hmatched => ?_⟩
      exact hnone ⟨earlier, hearlier, hmatched⟩
    rcases List.mem_cons.mp hmem with rfl | hlater
    · exact Nat.lt_irrefl between hlow
    · have hbelow : between < opening := List.rel_of_pairwise_cons h.sorted hlater
      omega

/-- A stack stays as it is where no parentheses stand. -/
theorem Stack.pass (h : Stack opens closes place opened) (hle : place ≤ next)
    (hopens : ∀ n, place ≤ n → n < next → ¬ opens n)
    (hcloses : ∀ n, place ≤ n → n < next → ¬ closes n) : Stack opens closes next opened where
  sorted := h.sorted
  mem_iff := by
    intro opening
    rw [h.mem_iff]
    constructor
    · rintro ⟨hopening, hlt, hfree⟩
      refine ⟨hopening, by omega, fun closing hclosing hmatched => ?_⟩
      by_cases hbefore : closing < place
      · exact hfree closing hbefore hmatched
      · rw [Matched] at hmatched
        exact hcloses closing (by omega) hclosing hmatched.1
    · rintro ⟨hopening, hlt, hfree⟩
      have hbefore : opening < place := by
        by_contra hbehind
        exact hopens opening (by omega) hlt hopening
      exact ⟨hopening, hbefore, fun closing hclosing => hfree closing (by omega)⟩

/-- An opening parenthesis is put on the stack. -/
theorem Stack.push (h : Stack opens closes place opened) (hopens : opens place)
    (hcloses : ¬ closes place) : Stack opens closes (place + 1) (place :: opened) where
  sorted := List.Pairwise.cons (fun opening hmem => ((h.mem_iff opening).mp hmem).2.1) h.sorted
  mem_iff := by
    intro opening
    rw [List.mem_cons, h.mem_iff]
    constructor
    · rintro (rfl | ⟨hopening, hlt, hfree⟩)
      · refine ⟨hopens, by omega, fun closing hclosing hmatched => ?_⟩
        rw [Matched] at hmatched
        omega
      · refine ⟨hopening, by omega, fun closing hclosing hmatched => ?_⟩
        rcases Nat.lt_succ_iff_lt_or_eq.mp hclosing with hbefore | rfl
        · exact hfree closing hbefore hmatched
        · rw [Matched] at hmatched
          exact hcloses hmatched.1
    · rintro ⟨hopening, hlt, hfree⟩
      rcases Nat.lt_succ_iff_lt_or_eq.mp hlt with hbefore | rfl
      · exact .inr ⟨hopening, hbefore, fun closing hclosing => hfree closing (by omega)⟩
      · exact .inl rfl

/-- A closing parenthesis takes the last opening one from the stack. -/
theorem Stack.pop (h : Stack opens closes place opened) (hcloses : closes place)
    (hopens : ¬ opens place) : Stack opens closes (place + 1) opened.tail where
  sorted := h.sorted.tail
  mem_iff := by
    intro opening
    have htail : opening ∈ opened.tail ↔ opening ∈ opened ∧ opened.head? ≠ some opening := by
      cases opened with
      | nil => simp
      | cons last opened =>
          have hbelow : opening ∈ opened → opening < last := List.rel_of_pairwise_cons h.sorted
          simp only [List.tail_cons, List.mem_cons, List.head?_cons, ne_eq, Option.some.injEq]
          constructor
          · intro hmem
            have := hbelow hmem
            exact ⟨.inr hmem, by omega⟩
          · rintro ⟨rfl | hmem, hne⟩
            · exact absurd rfl hne
            · exact hmem
    rw [htail, h.mem_iff, ne_eq, ← h.matched_iff hcloses]
    constructor
    · rintro ⟨⟨hopening, hlt, hfree⟩, hnot⟩
      refine ⟨hopening, by omega, fun closing hclosing => ?_⟩
      rcases Nat.lt_succ_iff_lt_or_eq.mp hclosing with hbefore | rfl
      · exact hfree closing hbefore
      · exact hnot
    · rintro ⟨hopening, hlt, hfree⟩
      have hbefore : opening < place := by
        rcases Nat.lt_succ_iff_lt_or_eq.mp hlt with hbefore | rfl
        · exact hbefore
        · exact absurd hopening hopens
      exact ⟨⟨hopening, hbefore, fun closing hclosing => hfree closing (by omega)⟩,
        hfree place (by omega)⟩

end Matching

section Lists

variable {places : List Nat} {place : Nat} {property other : Nat → Prop}

/-- A list of places depends on the places with the property only. -/
theorem Lists.of_iff (h : Lists places property) (hsame : ∀ n, other n ↔ property n) :
    Lists places other where
  sorted := h.sorted
  mem_iff := fun n => by rw [h.mem_iff, hsame]

/-- One more place in front of the others is put in front of the list. -/
theorem Lists.cons (h : Lists places property) (hbelow : ∀ n, property n → place < n) :
    Lists (place :: places) fun n => n = place ∨ property n where
  sorted := List.Pairwise.cons (fun n hmem => hbelow n ((h.mem_iff n).mp hmem)) h.sorted
  mem_iff := fun n => by rw [List.mem_cons, h.mem_iff]

end Lists

/-- The remark on a closing parenthesis without a partner. -/
def unexpectedClosing : Remark := .error "Unexpected closing parenthesis"

/-- The remark on so many opening parentheses without a partner. -/
def unclosedParentheses (count : Nat) : Remark :=
  .error (decimal count ++ " unclosed parenthesis")

/-- The remarks on parentheses without a partner: one on each closing one, and one on all opening
ones together, placed at the last of them. -/
def remarksOnUnmatched (unexpected leftOpen : List Nat) : List Remark :=
  unexpected.map unexpectedClosing.placed ++
    (leftOpen.getLast?.map (unclosedParentheses leftOpen.length).placed).toList

section Run

variable {opened : List Nat} {c : Char}

/-- At the end of a text the stack holds the opening parentheses that are left without a partner. -/
theorem Stack.left_open (h : Stack (MarkIn '(' text) (MarkIn ')' text) (byteLength text) opened) :
    Lists opened.reverse (LeftOpen (MarkIn '(' text) (MarkIn ')' text)) where
  sorted := List.pairwise_reverse.mpr h.sorted
  mem_iff := by
    intro opening
    rw [List.mem_reverse, h.mem_iff]
    constructor
    · rintro ⟨hopens, -, hfree⟩
      refine ⟨hopens, fun closing hmatched => ?_⟩
      have hcloses : MarkIn ')' text closing := by
        rw [Matched] at hmatched
        exact hmatched.1
      exact hfree closing hcloses.lt hmatched
    · rintro ⟨hopens, hfree⟩
      exact ⟨hopens, hopens.lt, fun closing _ => hfree closing⟩

/-- At the end of a text the stack is reported. -/
theorem parentheses_nil (opened : List Nat) (offset : Nat) :
    parentheses opened offset [] = remarksOnUnmatched [] opened.reverse := by
  cases opened with
  | nil => rfl
  | cons last opened =>
      simp [parentheses, remarksOnUnmatched, unclosedParentheses]

/-- The stack behind one more character. -/
def stacked (c : Char) (place : Nat) (opened : List Nat) : List Nat :=
  if c = '(' then place :: opened else if c = ')' then opened.tail else opened

/-- One more character is reported when it closes what is not open, and changes the stack. -/
theorem parentheses_step (c : Char) (opened : List Nat) (offset : Nat) (cs : List Char) :
    parentheses opened offset (c :: cs) =
      (if c = ')' ∧ opened = [] then [unexpectedClosing.placed offset] else []) ++
        parentheses (stacked c offset opened) (offset + c.utf8Size) cs := by
  rw [parentheses_cons, stacked]
  by_cases hopen : c = '('
  · subst hopen
    simp
  · by_cases hclose : c = ')'
    · subst hclose
      cases opened with
      | nil => rfl
      | cons last opened => simp
    · simp [hopen, hclose]

/-- One more character keeps the stack. -/
theorem Stack.step (htext : text = front ++ c :: tail)
    (h : Stack (MarkIn '(' text) (MarkIn ')' text) (byteLength front) opened) :
    Stack (MarkIn '(' text) (MarkIn ')' text) (byteLength front + c.utf8Size)
      (stacked c (byteLength front) opened) := by
  have hhere : ∀ {mark : Char} {n : Nat}, MarkIn mark text n → byteLength front ≤ n →
      n < byteLength front + c.utf8Size → c = mark := by
    intro mark n hmark hle hlt
    rw [htext] at hmark
    exact (eq_of_mark_in hmark hle hlt).2
  have hsize := c.utf8Size_pos
  by_cases hopen : c = '('
  · subst hopen
    have hopens : MarkIn '(' text (byteLength front) := ⟨front, tail, htext, rfl⟩
    have hcloses : ¬ MarkIn ')' text (byteLength front) := fun hmark =>
      absurd (hhere hmark (Nat.le_refl _) (by omega)) (by decide)
    exact h.push hopens hcloses
  by_cases hclose : c = ')'
  · subst hclose
    have hcloses : MarkIn ')' text (byteLength front) := ⟨front, tail, htext, rfl⟩
    have hopens : ¬ MarkIn '(' text (byteLength front) := fun hmark =>
      absurd (hhere hmark (Nat.le_refl _) (by omega)) (by decide)
    exact h.pop hcloses hopens
  · rw [stacked, if_neg hopen, if_neg hclose]
    exact h.pass (Nat.le_add_right _ _) (fun n hle hlt hmark => hopen (hhere hmark hle hlt))
      fun n hle hlt hmark => hclose (hhere hmark hle hlt)

/-- A character closes what is not open exactly when the stack in front of it is empty. -/
theorem Stack.unexpected_iff (htext : text = front ++ c :: tail)
    (h : Stack (MarkIn '(' text) (MarkIn ')' text) (byteLength front) opened) :
    Unexpected (MarkIn '(' text) (MarkIn ')' text) (byteLength front) ↔
      c = ')' ∧ opened = [] := by
  have hcloses : MarkIn ')' text (byteLength front) ↔ c = ')' := by
    constructor
    · intro hmark
      have hsize := c.utf8Size_pos
      rw [htext] at hmark
      exact (eq_of_mark_in hmark (Nat.le_refl _) (by omega)).2
    · rintro rfl
      exact ⟨front, tail, htext, rfl⟩
  rw [Unexpected, hcloses]
  refine and_congr_right fun hclose => ?_
  simp only [h.matched_iff (hcloses.mpr hclose)]
  cases opened with
  | nil => simp
  | cons last opened => simp

/-- What is without a partner from a character on is that character, or stands behind it. -/
theorem unexpected_from_iff (htext : text = front ++ c :: tail) (closing : Nat) :
    (byteLength front ≤ closing ∧ Unexpected (MarkIn '(' text) (MarkIn ')' text) closing) ↔
      (closing = byteLength front ∧
        Unexpected (MarkIn '(' text) (MarkIn ')' text) (byteLength front)) ∨
      (byteLength front + c.utf8Size ≤ closing ∧
        Unexpected (MarkIn '(' text) (MarkIn ')' text) closing) := by
  constructor
  · rintro ⟨hle, hunexpected⟩
    by_cases hbehind : byteLength front + c.utf8Size ≤ closing
    · exact .inr ⟨hbehind, hunexpected⟩
    · have hcloses := hunexpected.1
      rw [htext] at hcloses
      obtain ⟨rfl, -⟩ := eq_of_mark_in hcloses hle (by omega)
      exact .inl ⟨rfl, hunexpected⟩
  · rintro (⟨rfl, hunexpected⟩ | ⟨hbehind, hunexpected⟩)
    · exact ⟨Nat.le_refl _, hunexpected⟩
    · exact ⟨by omega, hunexpected⟩

/-- From a place on, the parentheses without a partner are reported: the closing ones behind the
place, and the opening ones of the whole text. -/
theorem parentheses_from (htext : text = front ++ tail)
    (h : Stack (MarkIn '(' text) (MarkIn ')' text) (byteLength front) opened) :
    ∃ unexpected leftOpen,
      Lists unexpected (fun closing => byteLength front ≤ closing ∧
        Unexpected (MarkIn '(' text) (MarkIn ')' text) closing) ∧
      Lists leftOpen (LeftOpen (MarkIn '(' text) (MarkIn ')' text)) ∧
      parentheses opened (byteLength front) tail = remarksOnUnmatched unexpected leftOpen := by
  induction tail generalizing front opened with
  | nil =>
      rw [List.append_nil] at htext
      subst htext
      refine ⟨[], opened.reverse, ⟨List.Pairwise.nil, fun closing => ?_⟩, h.left_open,
        parentheses_nil opened _⟩
      have hend : ¬ (byteLength text ≤ closing ∧
          Unexpected (MarkIn '(' text) (MarkIn ')' text) closing) := by
        rintro ⟨hle, hcloses, -⟩
        exact absurd hcloses.lt (Nat.not_lt.mpr hle)
      simp [hend]
  | cons c tail ih =>
      have hnext : text = (front ++ [c]) ++ tail := by rw [htext]; simp
      have hlength : byteLength (front ++ [c]) = byteLength front + c.utf8Size := by simp
      have hstack := h.step htext
      rw [← hlength] at hstack
      obtain ⟨unexpected, leftOpen, hunexpected, hleft, hremarks⟩ := ih hnext hstack
      rw [hlength] at hunexpected hremarks
      have hhere := h.unexpected_iff htext
      rw [parentheses_step, hremarks]
      by_cases hextra : c = ')' ∧ opened = []
      · have hcons : Lists (byteLength front :: unexpected) _ :=
          hunexpected.cons fun closing hlater => by
            have := c.utf8Size_pos
            omega
        refine ⟨byteLength front :: unexpected, leftOpen, hcons.of_iff fun closing => ?_, hleft, ?_⟩
        · rw [unexpected_from_iff htext, hhere]
          simp [hextra]
        · rw [if_pos hextra]
          rfl
      · refine ⟨unexpected, leftOpen, hunexpected.of_iff fun closing => ?_, hleft, ?_⟩
        · rw [unexpected_from_iff htext, hhere]
          simp [hextra]
        · rw [if_neg hextra]
          rfl

end Run

section Balance

open DyckStep

/-- The step up or down that a parenthesis stands for. -/
def step? : Char → Option DyckStep
  | '(' => some U
  | ')' => some D
  | _ => none

/-- The steps that the parentheses of a text stand for. -/
def steps (text : List Char) : List DyckStep := text.filterMap step?

/-- Steps lead from a height down to zero and never below it. -/
def Descends (height : Nat) (word : List DyckStep) : Prop :=
  height + word.count U = word.count D ∧
    ∀ i, (word.take i).count D ≤ height + (word.take i).count U

variable {height : Nat} {word : List DyckStep}

/-- Without steps the height is zero. -/
theorem descends_nil : Descends height [] ↔ height = 0 := by
  simp [Descends]

/-- Behind a step up the height is one more. -/
theorem descends_up : Descends height (U :: word) ↔ Descends (height + 1) word := by
  rw [Descends, Descends, ← Nat.and_forall_add_one]
  simp [Nat.add_assoc, Nat.add_comm 1]

/-- Behind a step down the height is one less, and from zero there is no step down. -/
theorem descends_down : Descends height (D :: word) ↔ ∃ lower, height = lower + 1 ∧
    Descends lower word := by
  cases height with
  | zero =>
      have hbelow : ¬ Descends 0 (D :: word) := by
        rintro ⟨-, hprefixes⟩
        exact absurd (hprefixes 1) (by simp)
      simp [hbelow]
  | succ lower =>
      have hsame : Descends (lower + 1) (D :: word) ↔ Descends lower word := by
        rw [Descends, Descends, ← Nat.and_forall_add_one]
        simp [Nat.add_right_comm lower 1]
      simp [hsame]

/-- Steps that begin and end at height zero and never go below it are a Dyck word. -/
theorem descends_zero_iff : Descends 0 word ↔ ∃ dyck : DyckWord, dyck.toList = word := by
  constructor
  · rintro ⟨hcount, hprefixes⟩
    refine ⟨⟨word, by omega, fun i => ?_⟩, rfl⟩
    have := hprefixes i
    omega
  · rintro ⟨dyck, rfl⟩
    have hcount := dyck.count_U_eq_count_D
    refine ⟨by omega, fun i => ?_⟩
    have := dyck.count_D_le_count_U i
    omega

/-- Nothing is reported when the parentheses lead from as many as are open down to none. -/
theorem parentheses_eq_nil_iff (opened : List Nat) (offset : Nat) (text : List Char) :
    parentheses opened offset text = [] ↔ Descends opened.length (steps text) := by
  induction text generalizing opened offset with
  | nil =>
      rw [steps, List.filterMap_nil, descends_nil]
      cases opened <;> simp [parentheses]
  | cons c cs ih =>
      rw [parentheses_step, List.append_eq_nil_iff, ih, stacked]
      by_cases hopen : c = '('
      · subst hopen
        have hsteps : steps ('(' :: cs) = U :: steps cs := rfl
        rw [hsteps, descends_up]
        simp
      · by_cases hclose : c = ')'
        · subst hclose
          have hsteps : steps (')' :: cs) = D :: steps cs := rfl
          rw [hsteps, descends_down]
          cases opened <;> simp
        · have hnone : step? c = none := by
            unfold step?
            split
            · exact absurd rfl hopen
            · exact absurd rfl hclose
            · rfl
          have hsteps : steps (c :: cs) = steps cs := List.filterMap_cons_none hnone
          rw [hsteps]
          simp [hopen, hclose]

end Balance

/-- The check of parentheses matches the opening and closing parentheses outside of literals, each
closing one with the nearest opening one before it that has no partner yet. It reports each closing
one that is left without a partner, in the order of their places, and then, if opening ones are
left, how many they are at the place of the last one. It is silent exactly when the parentheses
outside of literals are balanced. -/
theorem parentheses_matched (query : List Char) :
    ∃ unexpected leftOpen,
      Lists unexpected (Unexpected (MarkAt '(' query) (MarkAt ')' query)) ∧
      Lists leftOpen (LeftOpen (MarkAt '(' query) (MarkAt ')' query)) ∧
      remarksOf .balancedParentheses query = remarksOnUnmatched unexpected leftOpen ∧
      (remarksOf .balancedParentheses query = [] ↔
        ∃ word : DyckWord, word.toList = steps (mask query)) := by
  have hopens := mark_at_eq (show isBlank '(' = false by decide) (by decide) query
  have hcloses := mark_at_eq (show isBlank ')' = false by decide) (by decide) query
  have hcheck : remarksOf .balancedParentheses query = parentheses [] 0 (mask query) := rfl
  have hsplit : mask query = [] ++ mask query := rfl
  obtain ⟨unexpected, leftOpen, hunexpected, hleft, hremarks⟩ :=
    parentheses_from hsplit stack_nil
  refine ⟨unexpected, leftOpen, ?_, ?_, ?_, ?_⟩
  · rw [hopens, hcloses]
    refine hunexpected.of_iff fun closing => ?_
    simp
  · rw [hopens, hcloses]
    exact hleft
  · rw [hcheck]
    exact hremarks
  · rw [hcheck, parentheses_eq_nil_iff, List.length_nil, descends_zero_iff]

end Ariel.Validation
