import Ariel.Proofs.Text.Bytes
import Ariel.Proofs.Text.Reader

/-!
# Where patterns occur

`MatchesAt` says that a pattern holds behind the beginning of a text, and what it reports there.
Every occurrence is such a place (`matches_of_occurrence`), the first one has no such place before
it (`first_occurrence_eq_some`), and where there is such a place there is an occurrence
(`occurrences_eq_nil_iff`).
-/

namespace Ariel.Text

section Occurrence

variable {α : Type} {p : Pattern α} {value : α} {cs front tail : List Char}

/-- A pattern holds between a beginning of a text and its rest, which is not empty. -/
def MatchesAt (p : Pattern α) (front tail : List Char) (value : α) : Prop :=
  tail ≠ [] ∧ ∃ rest, p front.getLast? tail = some (value, rest)

/-- The character before a tail is the last one of its front, or else the one before the front. -/
theorem last_cons_or {c : Char} {previous : Option Char} :
    (c :: front).getLast?.or previous = front.getLast?.or (some c) := by
  cases front with
  | nil => rfl
  | cons d front => simp [List.getLast?_cons]

/-- Occurrences from an offset on are places where the pattern holds, counted from the offset. -/
theorem matches_of_occurrence_from {previous : Option Char} {offset skipped : Nat}
    {found : Occurrence α} (h : found ∈ occurrencesFrom p previous offset skipped cs) :
    ∃ front tail rest, cs = front ++ tail ∧ tail ≠ [] ∧
      found.offset = offset + byteLength front ∧
      p (front.getLast?.or previous) tail = some (found.value, rest) := by
  induction cs generalizing previous offset skipped with
  | nil => cases h
  | cons c cs ih =>
      -- An occurrence behind the first character is one of the text behind it.
      have hlater : ∀ {skipped : Nat},
          found ∈ occurrencesFrom p (some c) (offset + c.utf8Size) skipped cs →
          ∃ front tail rest, c :: cs = front ++ tail ∧ tail ≠ [] ∧
            found.offset = offset + byteLength front ∧
            p (front.getLast?.or previous) tail = some (found.value, rest) := by
        intro skipped hfound
        obtain ⟨front, tail, rest, rfl, hne, hoffset, hmatch⟩ := ih hfound
        refine ⟨c :: front, tail, rest, rfl, hne, ?_, ?_⟩
        · rw [byte_length_cons]
          omega
        · rw [last_cons_or]
          exact hmatch
      cases skipped with
      | succ n => exact hlater h
      | zero =>
          unfold occurrencesFrom at h
          split at h
          next value rest hmatch =>
            rcases List.mem_cons.mp h with rfl | h
            · exact ⟨[], c :: cs, rest, rfl, by simp, rfl, hmatch⟩
            · exact hlater h
          next => exact hlater h

/-- An occurrence stands where the pattern holds. -/
theorem matches_of_occurrence {found : Occurrence α} (h : found ∈ occurrences p cs) :
    ∃ front tail, cs = front ++ tail ∧ byteLength front = found.offset ∧
      MatchesAt p front tail found.value := by
  obtain ⟨front, tail, rest, hsplit, hne, hoffset, hmatch⟩ := matches_of_occurrence_from h
  rw [Option.or_none] at hmatch
  exact ⟨front, tail, hsplit, by omega, hne, rest, hmatch⟩

/-- The first occurrence from an offset on has no place before it where the pattern holds. -/
theorem no_match_before_head {previous : Option Char} {offset : Nat} {first : Option (Occurrence α)}
    (h : (occurrencesFrom p previous offset 0 cs).head? = first) (hsplit : cs = front ++ tail)
    (hne : tail ≠ []) (hbefore : ∀ found ∈ first, offset + byteLength front < found.offset) :
    p (front.getLast?.or previous) tail = none := by
  induction cs generalizing previous offset front with
  | nil => exact absurd (List.append_eq_nil_iff.mp hsplit.symm).2 hne
  | cons c cs ih =>
      unfold occurrencesFrom at h
      split at h
      next =>
        obtain rfl := h
        have hlt : offset + byteLength front < offset := hbefore _ rfl
        omega
      next hnone =>
        -- Nothing is skipped before the first occurrence, so the pattern is tried at each place.
        cases front with
        | nil =>
            obtain rfl : c :: cs = tail := hsplit
            exact hnone
        | cons d front =>
            obtain ⟨rfl, hrest⟩ := List.cons.inj hsplit
            rw [last_cons_or]
            refine ih h hrest fun found hfound => ?_
            have := hbefore found hfound
            rw [byte_length_cons] at this
            omega

/-- The first occurrence stands where the pattern holds, and the pattern holds nowhere before. -/
theorem first_occurrence_eq_some {found : Occurrence α}
    (h : firstOccurrence? p cs = some found) :
    (∃ front tail, cs = front ++ tail ∧ byteLength front = found.offset ∧
      MatchesAt p front tail found.value) ∧
    ∀ front tail value, cs = front ++ tail → MatchesAt p front tail value →
      found.offset ≤ byteLength front := by
  refine ⟨matches_of_occurrence (List.mem_of_mem_head? h), ?_⟩
  rintro front tail value hsplit ⟨hne, rest, hmatch⟩
  by_contra hlt
  have hnone := no_match_before_head h hsplit hne fun found hfound => by
    obtain rfl := Option.some.inj hfound
    omega
  rw [Option.or_none, hmatch] at hnone
  cases hnone

/-- Where a pattern does not occur, it holds nowhere. -/
theorem not_matches_of_first_occurrence_eq_none (h : firstOccurrence? p cs = none)
    (hsplit : cs = front ++ tail) : ¬ MatchesAt p front tail value := by
  rintro ⟨hne, rest, hmatch⟩
  have hnone := no_match_before_head h hsplit hne fun found hfound => by cases hfound
  rw [Option.or_none, hmatch] at hnone
  cases hnone

/-- A pattern does not occur exactly when it holds nowhere. -/
theorem occurrences_eq_nil_iff : occurrences p cs = [] ↔
    ∀ front tail value, cs = front ++ tail → ¬ MatchesAt p front tail value := by
  constructor
  · intro h front tail value hsplit
    have hfirst : firstOccurrence? p cs = none := by rw [firstOccurrence?, h, List.head?_nil]
    exact not_matches_of_first_occurrence_eq_none hfirst hsplit
  · intro h
    refine List.eq_nil_iff_forall_not_mem.mpr fun found hfound => ?_
    obtain ⟨front, tail, hsplit, -, hmatch⟩ := matches_of_occurrence hfound
    exact h front tail _ hsplit hmatch

end Occurrence

section Word

variable {keyword first second : String} {before : Option Char} {u : Unit} {cs rest : List Char}

/-- A keyword begins a word where no word character stands before it. -/
theorem word_start_eq_some_iff :
    wordStart keyword before cs = some (u, rest) ↔
      beginsWord before = true ∧ ∃ word, cs = word ++ rest ∧ capitals word = keyword.toList := by
  simp [wordStart, bind, Option.bind_eq_some_iff, keyword_eq_some_iff]

/-- A keyword is a whole word where no word character stands on either side. -/
theorem whole_word_eq_some_iff :
    wholeWord keyword before cs = some (u, rest) ↔
      beginsWord before = true ∧ endsWord rest = true ∧
        ∃ word, cs = word ++ rest ∧ capitals word = keyword.toList := by
  simp only [wholeWord, bind, Option.bind_eq_some_iff, Prod.exists, word_start_eq_some_iff,
    guard_eq_some_iff, pure, Option.some.injEq, Prod.mk.injEq]
  constructor
  · rintro ⟨_, rest, ⟨hbegins, hword⟩, -, hends, -, rfl⟩
    exact ⟨hbegins, hends, hword⟩
  · rintro ⟨hbegins, hends, hword⟩
    exact ⟨(), rest, ⟨hbegins, hword⟩, (), hends, trivial, rfl⟩

/-- A phrase is two keywords with blanks between them, of which the second ends a word. -/
theorem phrase_eq_some_iff :
    phrase? first second cs = some rest ↔
      endsWord rest = true ∧ ∃ word gap word', cs = word ++ (gap ++ (word' ++ rest)) ∧
        capitals word = first.toList ∧ gap ≠ [] ∧ (∀ c ∈ gap, isBlank c = true) ∧
        capitals word' = second.toList ∧ ∀ c ∈ (word' ++ rest).head?, isBlank c = false := by
  simp only [phrase?, bind, Option.bind_eq_some_iff, keyword_eq_some_iff, blanks_eq_some_iff,
    guard_eq_some_iff, pure, Option.some.injEq]
  constructor
  · rintro ⟨_, ⟨word, rfl, hword⟩, _, ⟨gap, rfl, hne, hgap, hstop⟩, _, ⟨word', rfl, hword'⟩, -,
      hends, rfl⟩
    exact ⟨hends, word, gap, word', rfl, hword, hne, hgap, hword', hstop⟩
  · rintro ⟨hends, word, gap, word', rfl, hword, hne, hgap, hword', hstop⟩
    exact ⟨_, ⟨word, rfl, hword⟩, _, ⟨gap, rfl, hne, hgap, hstop⟩, rest, ⟨word', rfl, hword'⟩, (),
      hends, rfl⟩

end Word

/-- Of several patterns, the first one that holds is among them. -/
theorem exists_of_first_of_eq_some {α : Type} {patterns : List (Pattern α)} {before : Option Char}
    {cs : List Char} {found : α × List Char} (h : firstOf patterns before cs = some found) :
    ∃ p ∈ patterns, p before cs = some found :=
  List.exists_of_findSome?_eq_some h

end Ariel.Text
