import Ariel.Proofs.Validation.Likeness.Basic
import Ariel.Validation.Check.Balance

/-!
# The balance of queries that are alike

Quotes and parentheses stand for themselves, at the same offsets in texts that are alike.
-/

namespace Ariel.Text.Likeness

open Ariel.Validation

variable {l : Likeness} {cs ds : List Char}

/-- A mark that is neither a blank nor a letter stands at the same offsets. -/
theorem offsets_from_eq {mark : Char} (hblank : isBlank mark = false)
    (halpha : mark.isAlpha = false) (h : l.Alike cs ds) (offset : Nat) :
    offsetsFrom mark offset cs = offsetsFrom mark offset ds := by
  induction h generalizing offset with
  | nil => rfl
  | @cons c d cs ds hlike _ ih =>
      simp only [offsetsFrom, hlike.mark_iff hblank halpha, hlike.eq_of_blind blind_utf8_size, ih]

theorem balanced_quotes_eq (h : l.Alike cs ds) : balancedQuotes cs = balancedQuotes ds := by
  have hsingle : offsetsFrom '\'' 0 cs = offsetsFrom '\'' 0 ds :=
    offsets_from_eq (by decide) (by decide) h 0
  have hdouble : offsetsFrom '"' 0 cs = offsetsFrom '"' 0 ds :=
    offsets_from_eq (by decide) (by decide) h 0
  simp only [balancedQuotes, unmatchedQuote, hsingle, hdouble]

theorem parentheses_eq (h : l.Alike cs ds) (opened : List Nat) (offset : Nat) :
    parentheses opened offset cs = parentheses opened offset ds := by
  induction h generalizing opened offset with
  | nil => rfl
  | @cons c d cs ds hlike _ ih =>
      have hopening : c = '(' ↔ d = '(' := hlike.mark_iff (by decide) (by decide)
      have hclosing : c = ')' ↔ d = ')' := hlike.mark_iff (by decide) (by decide)
      have hsize : c.utf8Size = d.utf8Size := hlike.eq_of_blind blind_utf8_size
      unfold parentheses
      simp only [hopening, hclosing, hsize, ih]

theorem balanced_parentheses_eq (h : l.Alike cs ds) :
    balancedParentheses cs = balancedParentheses ds :=
  parentheses_eq h [] 0

end Ariel.Text.Likeness
