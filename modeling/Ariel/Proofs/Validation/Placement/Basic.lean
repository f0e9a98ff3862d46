import Ariel.Proofs.Validation.Anchor
import Ariel.Proofs.Validation.Pattern

/-!
# Placed remarks

Remarks are placed in a text when they have their positions at its characters that are no blanks.
What is placed in the mask of a query is placed in the query (`placed_of_mask`).
-/

namespace Ariel.Validation

open Ariel.Text

section Placed

variable {cs : List Char} {remark : Remark} {remarks : List Remark} {offset : Nat}

/-- Remarks that have a position have it at a character of a text that is no blank. -/
def PlacedIn (cs : List Char) (remarks : List Remark) : Prop :=
  ∀ remark ∈ remarks, ∀ offset ∈ remark.position, Anchored cs offset

theorem placed_nil : PlacedIn cs [] :=
  fun _ h => absurd h List.not_mem_nil

theorem placed_one (h : Anchored cs offset) : PlacedIn cs [remark.placed offset] := by
  intro r hr p hp
  obtain rfl := List.mem_singleton.mp hr
  obtain rfl : offset = p := by simpa [Remark.placed] using hp
  exact h

/-- A remark without a position can stand in any text. -/
theorem unplaced (h : remark.position = none) : PlacedIn cs [remark] := by
  intro r hr p hp
  obtain rfl := List.mem_singleton.mp hr
  rw [h] at hp
  cases hp

theorem placed_append {more : List Remark} (h : PlacedIn cs remarks) (hmore : PlacedIn cs more) :
    PlacedIn cs (remarks ++ more) := by
  intro r hr
  exact (List.mem_append.mp hr).elim (h r) (hmore r)

/-- Sorting remarks does not move them. -/
theorem placed_sort (h : PlacedIn cs remarks) : PlacedIn cs (Remark.sortByPosition remarks) := by
  intro r hr
  exact h r (List.mem_mergeSort.mp hr)

/-- What is placed in a mask is placed in its text. -/
theorem placed_of_mask (h : PlacedIn (mask cs) remarks) : PlacedIn cs remarks := by
  intro r hr p hp
  exact (h r hr p hp).of_mask

/-- Remarks made one for each of several findings are placed when each of them is. -/
theorem placed_map {β : Type} {found : List β} {f : β → Remark}
    (h : ∀ b ∈ found, PlacedIn cs [f b]) : PlacedIn cs (found.map f) := by
  intro r hr
  obtain ⟨b, hb, rfl⟩ := List.mem_map.mp hr
  exact h b hb (f b) (List.mem_singleton.mpr rfl)

/-- Remarks made for some of several findings are placed when each of them is. -/
theorem placed_filter_map {β : Type} {found : List β} {f : β → Option Remark}
    (h : ∀ b ∈ found, PlacedIn cs (f b).toList) : PlacedIn cs (found.filterMap f) := by
  intro r hr
  obtain ⟨b, hb, hf⟩ := List.mem_filterMap.mp hr
  exact h b hb r (by simp [hf])

/-- Remarks made list by list are placed when each list is. -/
theorem placed_flat_map {β : Type} {found : List β} {f : β → List Remark}
    (h : ∀ b ∈ found, PlacedIn cs (f b)) : PlacedIn cs (found.flatMap f) := by
  intro r hr
  obtain ⟨b, hb, hf⟩ := List.mem_flatMap.mp hr
  exact h b hb r hf

end Placed

section Word

variable {keyword first second : String} {before : Option Char} {cs rest : List Char} {u : Unit}

theorem anchored_of_word_start (h : wordStart keyword before cs = some (u, rest))
    (hk : keyword.toList.head?.any Char.isAlpha = true) : Anchored cs 0 := by
  obtain ⟨-, word, hsplit, hword⟩ := word_start_eq_some_iff.mp h
  exact anchored_of_keyword (keyword_eq_some_iff.mpr ⟨word, hsplit, hword⟩) hk

theorem anchored_of_whole_word (h : wholeWord keyword before cs = some (u, rest))
    (hk : keyword.toList.head?.any Char.isAlpha = true) : Anchored cs 0 := by
  obtain ⟨-, -, word, hsplit, hword⟩ := whole_word_eq_some_iff.mp h
  exact anchored_of_keyword (keyword_eq_some_iff.mpr ⟨word, hsplit, hword⟩) hk

theorem anchored_of_whole_phrase (h : wholePhrase first second before cs = some (u, rest))
    (hk : first.toList.head?.any Char.isAlpha = true) : Anchored cs 0 := by
  obtain ⟨-, hphrase⟩ := whole_phrase_eq_some_iff.mp h
  obtain ⟨-, word, gap, word', hsplit, hword, -⟩ := phrase_eq_some_iff.mp hphrase
  exact anchored_of_keyword (keyword_eq_some_iff.mpr ⟨word, hsplit, hword⟩) hk

/-- Behind a blank gap that is taken, a text is anchored where it does not end. -/
theorem anchored_of_gap {front gap : List Char} (hcs : cs = front ++ rest)
    (hgap : blanks? rest = some gap) (hne : gap ≠ []) : Anchored cs (bytesUpTo gap cs) := by
  obtain ⟨run, rfl, -, -, hstop⟩ := blanks_eq_some_iff.mp hgap
  obtain ⟨c, more, rfl⟩ := List.exists_cons_of_ne_nil hne
  have hc : isBlank c = false := hstop c rfl
  have hsplit : cs = (front ++ run) ++ (c :: more) := by simpa using hcs
  rw [bytes_up_to_of_split hsplit, hsplit]
  exact (anchored_zero hc more).append (front ++ run)

end Word

end Ariel.Validation
