import Ariel.Proofs.Text.Pattern

/-!
# How a search goes through a text

A search reports nothing in front of the first place where its pattern holds
(`occurrences_from_behind`). At such a place it reports what the pattern found there and goes on
behind what the pattern covers (`occurrences_from_at`). It passes over a place where the pattern
holds only when it stands in what an earlier match covers (`mem_occurrences_from`). What is to be
shown of a text that is searched can be shown from match to match (`search_induction`).
-/

namespace Ariel.Text

variable {α : Type} {p : Pattern α} {value : α} {front taken rest cs : List Char}
  {before : Option Char} {offset : Nat}

/-- A pattern holds nowhere in a text in front of a tail. -/
def Free (p : Pattern α) (before : Option Char) (front tail : List Char) : Prop :=
  ∀ start rest, front = start ++ rest → rest ≠ [] →
    p (start.getLast?.or before) (rest ++ tail) = none

/-- Where a pattern holds nowhere, it does not behind the first character, either. -/
theorem Free.behind_first {c : Char} {tail : List Char} (h : Free p before (c :: front) tail) :
    Free p (some c) front tail := by
  intro start rest hsplit hne
  have hnone := h (c :: start) rest (by rw [hsplit, List.cons_append]) hne
  rwa [last_cons_or] at hnone

/-- A pattern takes some characters wherever it holds. -/
def Consumes (p : Pattern α) : Prop :=
  ∀ before cs value rest, p before cs = some (value, rest) →
    ∃ taken, taken ≠ [] ∧ cs = taken ++ rest

/-- Where the pattern holds nowhere in a text, the search goes on behind the text. -/
theorem occurrences_from_behind {tail : List Char} (h : Free p before front tail) :
    occurrencesFrom p before offset 0 (front ++ tail) =
      occurrencesFrom p (front.getLast?.or before) (offset + byteLength front) 0 tail := by
  induction front generalizing before offset with
  | nil => rfl
  | cons c front ih =>
      have hhere : p before (c :: (front ++ tail)) = none := h [] (c :: front) rfl (by simp)
      rw [List.cons_append, occurrencesFrom, hhere, last_cons_or, byte_length_cons,
        ← Nat.add_assoc]
      exact ih h.behind_first

/-- What is skipped is passed over. -/
theorem occurrences_from_skipped :
    occurrencesFrom p before offset taken.length (taken ++ rest) =
      occurrencesFrom p (taken.getLast?.or before) (offset + byteLength taken) 0 rest := by
  induction taken generalizing before offset with
  | nil => rfl
  | cons c taken ih =>
      rw [last_cons_or, byte_length_cons, ← Nat.add_assoc, ← ih, List.length_cons,
        List.cons_append, occurrencesFrom]

/-- Where the pattern holds, the search reports it and goes on behind what is covered. -/
theorem occurrences_from_at (hne : taken ≠ []) (h : p before (taken ++ rest) = some (value, rest)) :
    occurrencesFrom p before offset 0 (taken ++ rest) =
      ⟨offset, value⟩ ::
        occurrencesFrom p (taken.getLast?.or before) (offset + byteLength taken) 0 rest := by
  obtain ⟨c, more, rfl⟩ := List.exists_cons_of_ne_nil hne
  rw [List.cons_append] at h ⊢
  rw [occurrencesFrom, h, last_cons_or, byte_length_cons, ← Nat.add_assoc]
  show _ :: occurrencesFrom p (some c) _ ((more ++ rest).length - rest.length) (more ++ rest) = _
  rw [List.length_append, Nat.add_sub_cancel, occurrences_from_skipped]

/-- A pattern that reports more of what another one finds is found at the same places. -/
theorem occurrences_from_map {β : Type} {q : Pattern β} {f : α → β} {skipped : Nat}
    (h : ∀ before cs, q before cs = (p before cs).map fun found => (f found.1, found.2)) :
    occurrencesFrom q before offset skipped cs =
      (occurrencesFrom p before offset skipped cs).map fun found =>
        ⟨found.offset, f found.value⟩ := by
  induction cs generalizing before offset skipped with
  | nil => rfl
  | cons c cs ih =>
      cases skipped with
      | succ skipped => exact ih
      | zero =>
          rw [occurrencesFrom, occurrencesFrom, h]
          cases p before (c :: cs) with
          | none => exact ih
          | some found => exact congrArg _ ih

/-- A place where the pattern holds is reported when every earlier match ends in front of it. -/
theorem mem_occurrences_from {tail : List Char} {skipped : Nat} (hskipped : skipped ≤ front.length)
    (hne : tail ≠ []) (h : p (front.getLast?.or before) tail = some (value, rest))
    (hfree : ∀ start more, front = start ++ more → more ≠ [] → ∀ found,
      p (start.getLast?.or before) (more ++ tail) = some found → tail.length ≤ found.2.length) :
    ⟨offset + byteLength front, value⟩ ∈
      occurrencesFrom p before offset skipped (front ++ tail) := by
  induction front generalizing before offset skipped with
  | nil =>
      obtain rfl : skipped = 0 := Nat.le_zero.mp hskipped
      obtain ⟨c, cs, rfl⟩ := List.exists_cons_of_ne_nil hne
      have hhere : p before (c :: cs) = some (value, rest) := h
      rw [List.nil_append, occurrencesFrom, hhere]
      exact List.mem_cons_self
  | cons c front ih =>
      rw [last_cons_or] at h
      rw [List.cons_append, byte_length_cons, ← Nat.add_assoc]
      have hlater : ∀ start more, front = start ++ more → more ≠ [] → ∀ found,
          p (start.getLast?.or (some c)) (more ++ tail) = some found →
            tail.length ≤ found.2.length := by
        intro start more hsplit hmore found hfound
        rw [← last_cons_or] at hfound
        exact hfree (c :: start) more (by rw [hsplit, List.cons_append]) hmore found hfound
      cases skipped with
      | succ skipped => exact ih (Nat.le_of_succ_le_succ hskipped) h hlater
      | zero =>
          rw [occurrencesFrom]
          cases hhere : p before (c :: (front ++ tail)) with
          | none => exact ih (Nat.zero_le _) h hlater
          | some found =>
              -- What the match covers ends in front of the tail.
              have hend := hfree [] (c :: front) rfl (List.cons_ne_nil _ _) found hhere
              refine List.mem_cons_of_mem _ (ih ?_ h hlater)
              rw [List.length_append]
              omega

/-- A pattern holds nowhere in a text, or there is a first place where it does. -/
theorem free_or_exists_first (hcovers : Consumes p) (before : Option Char) (cs : List Char) :
    Free p before cs [] ∨ ∃ front taken rest value, cs = front ++ (taken ++ rest) ∧ taken ≠ [] ∧
      Free p before front (taken ++ rest) ∧
      p (front.getLast?.or before) (taken ++ rest) = some (value, rest) := by
  induction cs generalizing before with
  | nil => exact .inl fun start rest hsplit hne => by simp_all
  | cons c cs ih =>
      have hlonger : ∀ {front tail}, p before (c :: (front ++ tail)) = none →
          Free p (some c) front tail → Free p before (c :: front) tail := by
        rintro front tail hhere hfree (- | ⟨d, start⟩) rest hsplit hne
        · obtain rfl : c :: front = rest := hsplit
          exact hhere
        · obtain ⟨rfl, hrest⟩ := List.cons.inj hsplit
          rw [last_cons_or]
          exact hfree start rest hrest hne
      cases hhere : p before (c :: cs) with
      | some found =>
          obtain ⟨value, rest⟩ := found
          obtain ⟨taken, hne, hsplit⟩ := hcovers _ _ _ _ hhere
          rw [hsplit] at hhere ⊢
          exact .inr ⟨[], taken, rest, value, rfl, hne, fun start rest hnil hrest => by simp_all,
            hhere⟩
      | none =>
          rcases ih (some c) with hfree | ⟨front, taken, rest, value, rfl, hne, hfree, hmatch⟩
          · exact .inl (hlonger (by rwa [List.append_nil]) hfree)
          · rw [← last_cons_or] at hmatch
            exact .inr ⟨c :: front, taken, rest, value, rfl, hne, hlonger hhere hfree, hmatch⟩

/-- What holds of every text in which the pattern holds nowhere, and holds of a text when it does of
the part behind the first match, holds of every text. -/
theorem search_induction {motive : Option Char → List Char → Prop} (hcovers : Consumes p)
    (free : ∀ before cs, Free p before cs [] → motive before cs)
    (first : ∀ before front taken rest value, taken ≠ [] → Free p before front (taken ++ rest) →
      p (front.getLast?.or before) (taken ++ rest) = some (value, rest) →
      motive (taken.getLast?.or (front.getLast?.or before)) rest →
      motive before (front ++ (taken ++ rest)))
    (before : Option Char) (cs : List Char) : motive before cs := by
  induction hlength : cs.length using Nat.strong_induction_on generalizing before cs with
  | _ length ih =>
      rcases free_or_exists_first hcovers before cs with
        hfree | ⟨front, taken, rest, value, rfl, hne, hfree, hmatch⟩
      · exact free before cs hfree
      · have hpos := List.length_pos_iff.mpr hne
        have hless : rest.length < length := by
          rw [← hlength, List.length_append, List.length_append]
          omega
        exact first before front taken rest value hne hfree hmatch (ih _ hless _ rest rfl)

end Ariel.Text
