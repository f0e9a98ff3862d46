import Ariel.Proofs.Text.Likeness
import Ariel.Proofs.Text.Reader
import Ariel.Proofs.Text.Related

/-!
# Reading texts that are alike

Readers take the front of a text, or nothing. From texts that are alike they take texts that are
alike, and leave such texts.
-/

namespace Ariel.Text

namespace Likeness

variable {l : Likeness} {cs ds : List Char} {before before' : Option Char}

theorem begins_word_eq (h : Option.Rel l.like before before') :
    beginsWord before = beginsWord before' :=
  congrArg not (any_eq_of_rel h fun hlike => hlike.eq_of_blind blind_is_word_character)

theorem ends_word_eq (h : l.Alike cs ds) : endsWord cs = endsWord ds :=
  begins_word_eq (rel_head h)

/-- A word without blanks is spelled by the capitals of texts that are alike, or of neither. -/
theorem capitals_eq_iff {letters : List Char} (h : l.Alike cs ds) (hletters : Filled letters) :
    capitals cs = letters ↔ capitals ds = letters := by
  induction h generalizing letters with
  | nil => rfl
  | @cons c d cs ds hlike _ ih =>
      cases letters with
      | nil => exact iff_of_false (List.cons_ne_nil _ _) (List.cons_ne_nil _ _)
      | cons letter letters =>
          rw [filled_cons] at hletters
          have hhead : c.toUpper = letter ↔ d.toUpper = letter := by
            have := hlike.eq_of_blind (blind_capital hletters.1)
            rw [← beq_iff_eq, this, beq_iff_eq]
          rw [capitals, capitals, List.map_cons, List.map_cons, List.cons.injEq, List.cons.injEq]
          exact and_congr hhead (ih hletters.2)

theorem alike_keyword {keyword : String} (h : l.Alike cs ds) (hkeyword : Filled keyword.toList) :
    Option.Rel l.Alike (keyword? keyword cs) (keyword? keyword ds) := by
  have htake := List.forall₂_take keyword.toList.length h
  dsimp only [keyword?]
  simp only [capitals_eq_iff htake hkeyword]
  split
  · exact .some (List.forall₂_drop _ h)
  · exact .none

/-- Marks that are neither blanks nor letters are spelled by both of two texts that are alike, or by
neither. -/
theorem marks_eq_iff {marks : List Char} (h : l.Alike cs ds)
    (hmarks : Marks marks) : cs = marks ↔ ds = marks := by
  induction h generalizing marks with
  | nil => rfl
  | cons hlike _ ih =>
      cases marks with
      | nil => exact iff_of_false (List.cons_ne_nil _ _) (List.cons_ne_nil _ _)
      | cons mark marks =>
          rw [marks_cons] at hmarks
          rw [List.cons.injEq, List.cons.injEq]
          exact and_congr (hlike.mark_iff hmarks.1.1 hmarks.1.2) (ih hmarks.2)

theorem alike_literal {text : String} (h : l.Alike cs ds) (htext : Marks text.toList) :
    Option.Rel l.Alike (literal? text cs) (literal? text ds) := by
  dsimp only [literal?]
  simp only [marks_eq_iff (List.forall₂_take text.toList.length h) htext]
  split
  · exact .some (List.forall₂_drop _ h)
  · exact .none

theorem alike_drop_blanks (h : l.Alike cs ds) : l.Alike (dropBlanks cs) (dropBlanks ds) :=
  alike_drop_while h blind_is_blank

theorem alike_blanks (h : l.Alike cs ds) : Option.Rel l.Alike (blanks? cs) (blanks? ds) := by
  cases h with
  | nil => exact .none
  | cons hlike hrest =>
      rw [blanks?, blanks?, hlike.eq_of_blind blind_is_blank]
      split
      · exact .some (alike_drop_blanks hrest)
      · exact .none

theorem alike_trimmed (h : l.Alike cs ds) : l.Alike (trimmed cs) (trimmed ds) :=
  List.rel_reverse (alike_drop_blanks (List.rel_reverse (alike_drop_blanks h)))

theorem alike_phrase {first second : String} (h : l.Alike cs ds) (hfirst : Filled first.toList)
    (hsecond : Filled second.toList) :
    Option.Rel l.Alike (phrase? first second cs) (phrase? first second ds) :=
  rel_bind (alike_keyword h hfirst) fun h =>
    rel_bind (alike_blanks h) fun h =>
      rel_bind (alike_keyword h hsecond) fun h =>
        rel_guard (ends_word_eq h) (.some h)

theorem alike_any_case {letters : List Char} (h : l.Alike cs ds) (hletters : Filled letters) :
    Option.Rel l.Alike (anyCase? letters cs) (anyCase? letters ds) := by
  induction letters generalizing cs ds with
  | nil => exact .some h
  | cons letter letters ih =>
      rw [filled_cons] at hletters
      cases h with
      | nil => exact .none
      | cons hlike hrest =>
          rw [anyCase?, anyCase?, hlike.eq_of_blind (blind_is_letter hletters.1)]
          split
          · exact ih hrest hletters.2
          · exact .none

/-- A quote stands for itself. -/
theorem quote_like {c d : Char} (h : l.like c d) : c = '\'' ↔ d = '\'' :=
  h.mark_iff (by decide) (by decide)

/-- A text in quotes begins with a quote. -/
theorem quoted_text_of_ne {c : Char} (h : c ≠ '\'') (cs : List Char) :
    quotedText? (c :: cs) = none := by
  refine Option.eq_none_iff_forall_ne_some.mpr fun found hfound => ?_
  exact h (List.cons.inj (quoted_text_eq_some_iff.mp hfound).1).1

theorem alike_quoted_text (h : l.Alike cs ds) :
    Option.Rel (fun x y => l.Alike x.1 y.1 ∧ l.Alike x.2 y.2) (quotedText? cs)
      (quotedText? ds) := by
  have hquote : Blind (· != '\'') := (blind_mark (by decide) (by decide)).comp not
  cases h with
  | nil => exact .none
  | @cons c d cs ds hlike hrest =>
      by_cases hc : c = '\''
      · obtain rfl := hc
        obtain rfl := (quote_like hlike).mp rfl
        have hclosing := alike_drop_while hrest hquote
        simp only [quotedText?]
        cases hcs : cs.dropWhile (· != '\'') with
        | nil =>
            rw [hcs] at hclosing
            rw [List.forall₂_nil_left_iff.mp hclosing]
            exact .none
        | cons quote rest =>
            rw [hcs] at hclosing
            obtain ⟨quote', rest', -, hafter, hds⟩ := List.forall₂_cons_left_iff.mp hclosing
            rw [hds]
            exact .some ⟨alike_take_while hrest hquote, hafter⟩
      · rw [quoted_text_of_ne hc, quoted_text_of_ne (mt (quote_like hlike).mpr hc)]
        exact .none

/-- A number without a sign. -/
def unsigned? (below : Nat) (digits : List Char) : Option Nat :=
  if digits.isEmpty || !digits.all Char.isDigit then none
  else if digitsValue digits < below then some (digitsValue digits) else none

/-- What does not begin with a plus sign is read without a sign. -/
theorem numeral_of_ne {below : Nat} {c : Char} (h : c ≠ '+') :
    numeral? below (c :: cs) = unsigned? below (c :: cs) := by
  unfold numeral?
  split
  next heq => exact absurd (List.cons.inj heq).1 h
  next => rfl

theorem unsigned_eq (h : l.Alike cs ds) (below : Nat) :
    unsigned? below cs = unsigned? below ds := by
  rw [unsigned?, unsigned?, is_empty_eq h, all_eq h blind_is_digit]
  split
  · rfl
  next hdigits =>
    simp only [Bool.or_eq_true, Bool.not_eq_true', not_or, Bool.not_eq_false,
      List.all_eq_true] at hdigits
    have hmarks : Marks ds := fun k hk =>
      ⟨is_blank_of_digit (hdigits.2 k hk), is_alpha_of_digit (hdigits.2 k hk)⟩
    rw [(marks_eq_iff h hmarks).mpr rfl]

/-- A number is read from both of two texts that are alike, or from neither. -/
theorem numeral_eq (h : l.Alike cs ds) (below : Nat) : numeral? below cs = numeral? below ds := by
  cases h with
  | nil => rfl
  | @cons c d cs ds hlike hrest =>
      have hplus : c = '+' ↔ d = '+' := hlike.mark_iff (by decide) (by decide)
      by_cases hc : c = '+'
      · obtain rfl := hc
        obtain rfl := hplus.mp rfl
        exact unsigned_eq hrest below
      · rw [numeral_of_ne hc, numeral_of_ne (mt hplus.mpr hc)]
        exact unsigned_eq (.cons hlike hrest) below

end Likeness

end Ariel.Text
