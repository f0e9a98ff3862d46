import Ariel.Proofs.Text.Likeness.Reader

/-!
# Patterns in texts that are alike

A pattern respects a likeness when it holds at a place of one text exactly when it holds at that
place of another, and reports there what corresponds. Its occurrences in the two texts then
correspond one by one, at the same offsets.
-/

namespace Ariel.Text

namespace Likeness

variable {l : Likeness} {α β : Type} {R : α → α → Prop} {cs ds : List Char}

/-- What a pattern reports, and the text that it leaves, correspond. -/
def Found (l : Likeness) (R : α → α → Prop) : α × List Char → α × List Char → Prop :=
  fun x y => R x.1 y.1 ∧ l.Alike x.2 y.2

/-- A pattern holds in both of two texts that are related, or in neither. -/
def RespectsOn (l : Likeness) (T : List Char → List Char → Prop) (R : α → α → Prop)
    (p : Pattern α) : Prop :=
  ∀ {before before' cs ds}, Option.Rel l.like before before' → T cs ds →
    Option.Rel (l.Found R) (p before cs) (p before' ds)

/-- A pattern holds in both of two texts that are alike, or in neither. -/
abbrev Respects (l : Likeness) (R : α → α → Prop) (p : Pattern α) : Prop :=
  l.RespectsOn l.Alike R p

/-- Occurrences at the same offset, whose values correspond. -/
def Beside (R : α → α → Prop) (found found' : Occurrence α) : Prop :=
  found.offset = found'.offset ∧ R found.value found'.value

section Occurrences

variable {T : List Char → List Char → Prop} {p : Pattern α}

/-- The occurrences of a pattern correspond one by one, where the texts are alike and related in a
way that their tails are, too. -/
theorem occurrences_from_beside (hp : l.RespectsOn T R p)
    (halike : ∀ {cs ds}, T cs ds → l.Alike cs ds)
    (htail : ∀ {c d cs ds}, T (c :: cs) (d :: ds) → T cs ds)
    {before before' : Option Char} (hbefore : Option.Rel l.like before before') (h : T cs ds)
    (offset skipped : Nat) :
    List.Forall₂ (Beside R) (occurrencesFrom p before offset skipped cs)
      (occurrencesFrom p before' offset skipped ds) := by
  induction cs generalizing before before' offset skipped ds with
  | nil =>
      rw [List.forall₂_nil_left_iff.mp (halike h)]
      exact .nil
  | cons c cs ih =>
      obtain ⟨d, ds, hlike, hrest, rfl⟩ := List.forall₂_cons_left_iff.mp (halike h)
      have hsize : c.utf8Size = d.utf8Size := hlike.eq_of_blind blind_utf8_size
      cases skipped with
      | succ skipped =>
          rw [occurrencesFrom, occurrencesFrom, hsize]
          exact ih (.some hlike) (htail h) _ _
      | zero =>
          rw [occurrencesFrom, occurrencesFrom, hsize]
          have hfound := hp hbefore h
          revert hfound
          generalize p before (c :: cs) = found
          generalize p before' (d :: ds) = found'
          intro hfound
          cases hfound with
          | none => exact ih (.some hlike) (htail h) _ _
          | @some x y hxy =>
              obtain ⟨value, rest⟩ := x
              obtain ⟨value', rest'⟩ := y
              have hlength : cs.length - rest.length = ds.length - rest'.length := by
                rw [hrest.length_eq, hxy.2.length_eq]
              refine .cons ⟨rfl, hxy.1⟩ ?_
              rw [hlength]
              exact ih (.some hlike) (htail h) _ _

end Occurrences

section Alike

theorem alike_tail {c d : Char} (h : l.Alike (c :: cs) (d :: ds)) : l.Alike cs ds := by
  cases h with
  | cons _ hrest => exact hrest

variable {p q : Pattern α}

theorem occurrences_beside (hp : l.Respects R p) (h : l.Alike cs ds) :
    List.Forall₂ (Beside R) (occurrences p cs) (occurrences p ds) :=
  occurrences_from_beside (T := l.Alike) hp (fun h => h) (fun h => alike_tail h) .none h 0 0

theorem first_occurrence_beside (hp : l.Respects R p) (h : l.Alike cs ds) :
    Option.Rel (Beside R) (firstOccurrence? p cs) (firstOccurrence? p ds) :=
  rel_head (occurrences_beside hp h)

theorem occurs_eq (hp : l.Respects R p) (h : l.Alike cs ds) : occurs p cs = occurs p ds :=
  congrArg not (is_empty_eq (occurrences_beside hp h))

/-- Occurrences at the same offset with the same value are the same. -/
theorem Beside.eq {found found' : Occurrence α} (h : Beside Eq found found') : found = found' := by
  obtain ⟨offset, value⟩ := found
  obtain ⟨offset', value'⟩ := found'
  obtain ⟨rfl, rfl⟩ := h
  rfl

theorem occurrences_eq (hp : l.Respects Eq p) (h : l.Alike cs ds) :
    occurrences p cs = occurrences p ds := by
  rw [← List.forall₂_eq_eq_eq]
  exact (occurrences_beside hp h).imp fun _ _ => Beside.eq

theorem first_occurrence_eq (hp : l.Respects Eq p) (h : l.Alike cs ds) :
    firstOccurrence? p cs = firstOccurrence? p ds :=
  congrArg List.head? (occurrences_eq hp h)

theorem respects_word_start {keyword : String} (hkeyword : Filled keyword.toList) :
    l.Respects Eq (wordStart keyword) := fun hbefore h =>
  rel_guard (begins_word_eq hbefore) <|
    rel_bind (alike_keyword h hkeyword) fun h => .some ⟨rfl, h⟩

theorem respects_whole_word {keyword : String} (hkeyword : Filled keyword.toList) :
    l.Respects Eq (wholeWord keyword) := fun hbefore h =>
  rel_bind (respects_word_start hkeyword hbefore h) fun h =>
    rel_guard (ends_word_eq h.2) (.some ⟨rfl, h.2⟩)

theorem respects_first_of {patterns : List (Pattern α)} (h : ∀ p ∈ patterns, l.Respects R p) :
    l.Respects R (firstOf patterns) := fun hbefore halike =>
  rel_find_some fun p hp => h p hp hbefore halike

theorem respects_first_of_pair (hp : l.Respects R p) (hq : l.Respects R q) :
    l.Respects R (firstOf [p, q]) :=
  respects_first_of fun r hr => by
    rcases List.mem_pair.mp hr with rfl | rfl
    · exact hp
    · exact hq

/-- How far a text goes up to one of its tails is the same in texts that are alike. -/
theorem bytes_up_to_eq {tail tail' : List Char} (htail : l.Alike tail tail') (h : l.Alike cs ds) :
    bytesUpTo tail cs = bytesUpTo tail' ds := by
  rw [bytesUpTo, bytesUpTo, byte_length_eq htail, byte_length_eq h]

end Alike

end Likeness

end Ariel.Text
