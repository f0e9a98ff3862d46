import Ariel.Proofs.Validation.Placement.Basic

/-!
# Placement of the checks of balance

Quotes and parentheses are reported at themselves.
-/

namespace Ariel.Validation

open Ariel.Text

/-- The offsets of a character are those where it stands. -/
theorem exists_of_mem_offsets {mark : Char} {cs : List Char} {start offset : Nat}
    (h : offset ∈ offsetsFrom mark start cs) :
    ∃ front tail, cs = front ++ mark :: tail ∧ offset = start + byteLength front := by
  induction cs generalizing start with
  | nil => cases h
  | cons c cs ih =>
      have hlater : offset ∈ offsetsFrom mark (start + c.utf8Size) cs →
          ∃ front tail, c :: cs = front ++ mark :: tail ∧ offset = start + byteLength front := by
        intro hoffset
        obtain ⟨front, tail, rfl, rfl⟩ := ih hoffset
        exact ⟨c :: front, tail, rfl, by rw [byte_length_cons]; omega⟩
      simp only [offsetsFrom] at h
      split at h
      · next hmark =>
        rcases List.mem_cons.mp h with rfl | h
        · exact ⟨[], cs, by rw [hmark]; rfl, rfl⟩
        · exact hlater h
      · exact hlater h

theorem unmatched_quote_placed {mark : Char} (hmark : isBlank mark = false) (kind : String)
    (query : List Char) : PlacedIn query (unmatchedQuote mark kind query) := by
  simp only [unmatchedQuote]
  split
  · exact placed_nil
  · next last hlast =>
    split
    · exact placed_nil
    · obtain ⟨front, tail, hsplit, hoffset⟩ :=
        exists_of_mem_offsets (List.mem_of_getLast? hlast)
      exact placed_one (anchored_iff.mpr ⟨front, mark, tail, hsplit, by omega, hmark⟩)

theorem balanced_quotes_placed (query : List Char) : PlacedIn query (balancedQuotes query) :=
  placed_append (unmatched_quote_placed (by decide) _ _) (unmatched_quote_placed (by decide) _ _)

/-- One character read while matching parentheses. -/
theorem parentheses_cons (opened : List Nat) (offset : Nat) (c : Char) (cs : List Char) :
    parentheses opened offset (c :: cs) =
      if c = '(' then parentheses (offset :: opened) (offset + c.utf8Size) cs
      else if c = ')' then
        match opened with
        | [] =>
            (Remark.error "Unexpected closing parenthesis").placed offset ::
              parentheses [] (offset + c.utf8Size) cs
        | _ :: opened => parentheses opened (offset + c.utf8Size) cs
      else parentheses opened (offset + c.utf8Size) cs := by
  cases opened <;> rfl

/-- The remarks on a tail are placed in the text when the open parentheses are. -/
theorem parentheses_placed {text before cs : List Char} {opened : List Nat}
    (htext : text = before ++ cs) (hopened : ∀ offset ∈ opened, Anchored text offset) :
    PlacedIn text (parentheses opened (byteLength before) cs) := by
  induction cs generalizing before opened with
  | nil =>
      cases opened with
      | nil => exact placed_nil
      | cons last opened => exact placed_one (hopened last (by simp))
  | cons c cs ih =>
      have hnext : text = (before ++ [c]) ++ cs := by simpa using htext
      have hoffset : byteLength before + c.utf8Size = byteLength (before ++ [c]) := by simp
      -- Parentheses alone are kept or reported, and they are no blanks.
      have hc : isBlank c = false → Anchored text (byteLength before) :=
        fun hc => anchored_iff.mpr ⟨before, c, cs, htext, rfl, hc⟩
      rw [parentheses_cons, hoffset]
      split
      · next hopen =>
        refine ih hnext fun offset hmem => ?_
        rcases List.mem_cons.mp hmem with rfl | hmem
        · exact hc (by rw [hopen]; decide)
        · exact hopened offset hmem
      · split
        · next hclose =>
          split
          · have hhere : Anchored text (byteLength before) := hc (by rw [hclose]; decide)
            exact placed_append (placed_one hhere) (ih hnext hopened)
          · exact ih hnext fun offset hmem => hopened offset (by simp [hmem])
        · exact ih hnext hopened

theorem balanced_parentheses_placed (text : List Char) :
    PlacedIn text (balancedParentheses text) := by
  have hwhole : text = [] ++ text := rfl
  exact parentheses_placed hwhole (by simp)

end Ariel.Validation
