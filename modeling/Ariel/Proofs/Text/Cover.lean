import Ariel.Proofs.Text.Scan

/-!
# What occurrences cover

An occurrence spans the characters that its pattern takes. Wherever the pattern holds, an occurrence
begins there or spans that place (`exists_covering`, and `occurrence_covering` for a whole text).
What an occurrence spans ends in front of the next one (`pairwise_apart`). Occurrences therefore
stand in the order of their offsets (`occurrences_sorted`), and none begins within what another one
takes (`ends_before_of_offset_lt`).
-/

namespace Ariel.Text

variable {α : Type} {p : Pattern α} {value : α} {front tail taken rest cs : List Char}
  {before : Option Char} {offset : Nat} {found later : Occurrence α}

/-- Of two splits of a text, the second is behind the first one, or within its first part. -/
theorem split_behind_or_within {first second first' second' : List Char}
    (h : first ++ second = first' ++ second') :
    (∃ more, first' = first ++ more ∧ second = more ++ second') ∨
      ∃ left, left ≠ [] ∧ first = first' ++ left ∧ second' = left ++ second := by
  rcases List.append_eq_append_iff.mp h with hbehind | ⟨left, hfirst, hsecond⟩
  · exact .inl hbehind
  · by_cases hleft : left = []
    · subst hleft
      exact .inl ⟨[], by simpa using hfirst.symm, hsecond.symm⟩
    · exact .inr ⟨left, hleft, hfirst, hsecond⟩

/-- An occurrence in a text, that begins at an offset and behind a character, spans the characters
between a start and a rest. -/
structure Spans (p : Pattern α) (before : Option Char) (offset : Nat) (cs : List Char)
    (found : Occurrence α) (start taken rest : List Char) : Prop where
  split : cs = start ++ (taken ++ rest)
  place : found.offset = offset + byteLength start
  holds : p (start.getLast?.or before) (taken ++ rest) = some (found.value, rest)

/-- What one occurrence spans ends in front of another one. -/
def Apart (p : Pattern α) (before : Option Char) (offset : Nat) (cs : List Char)
    (found later : Occurrence α) : Prop :=
  ∀ start taken rest, Spans p before offset cs found start taken rest →
    offset + byteLength (start ++ taken) ≤ later.offset

/-- What an occurrence in a text takes ends in front of another one. -/
def EndsBefore (p : Pattern α) (cs : List Char) (found later : Occurrence α) : Prop :=
  ∀ front taken rest, cs = front ++ (taken ++ rest) → found.offset = byteLength front →
    p front.getLast? (taken ++ rest) = some (found.value, rest) →
    byteLength (front ++ taken) ≤ later.offset

/-- What is spanned behind the beginning of a text is spanned in the whole text. -/
theorem Spans.behind {start : List Char}
    (h : Spans p (front.getLast?.or before) (offset + byteLength front) cs found start taken rest) :
    Spans p before offset (front ++ cs) found (front ++ start) taken rest where
  split := by rw [h.split, List.append_assoc]
  place := by
    rw [h.place, byte_length_append]
    omega
  holds := by
    have hlast : (front ++ start).getLast?.or before =
        start.getLast?.or (front.getLast?.or before) := by
      rw [List.getLast?_append, Option.or_assoc]
    rw [hlast]
    exact h.holds

/-- An occurrence spans one stretch of a text. -/
theorem Spans.unique {start start' taken' rest' : List Char}
    (h : Spans p before offset cs found start taken rest)
    (h' : Spans p before offset cs found start' taken' rest') :
    start = start' ∧ taken = taken' := by
  have hbytes : byteLength start = byteLength start' := by
    have := h.place
    have := h'.place
    omega
  have hplace := split_at_byte_eq_some_iff.mpr ⟨h.split, hbytes⟩
  rw [split_at_byte_eq_some_iff.mpr ⟨h'.split, rfl⟩] at hplace
  obtain ⟨rfl, hsame⟩ := Prod.mk.inj (Option.some.inj hplace)
  have hrest : rest = rest' := by
    have hholds := h.holds
    rw [← hsame, h'.holds] at hholds
    exact (Prod.mk.inj (Option.some.inj hholds)).2.symm
  subst hrest
  exact ⟨rfl, (List.append_cancel_right hsame).symm⟩

/-- Behind the first match a search finds what it finds in the text behind it. -/
theorem occurrences_from_first (hne : taken ≠ []) (hfree : Free p before front (taken ++ rest))
    (hmatch : p (front.getLast?.or before) (taken ++ rest) = some (value, rest)) :
    occurrencesFrom p before offset 0 (front ++ (taken ++ rest)) =
      ⟨offset + byteLength front, value⟩ ::
        occurrencesFrom p ((front ++ taken).getLast?.or before)
          (offset + byteLength (front ++ taken)) 0 rest := by
  rw [occurrences_from_behind hfree, occurrences_from_at hne hmatch, byte_length_append,
    ← Nat.add_assoc, List.getLast?_append, Option.or_assoc]

section Search

variable (hcovers : Consumes p)
include hcovers

/-- Every occurrence spans some characters. -/
theorem exists_spans (h : found ∈ occurrencesFrom p before offset 0 cs) :
    ∃ start taken rest, taken ≠ [] ∧ Spans p before offset cs found start taken rest := by
  obtain ⟨start, tail, rest, rfl, -, hplace, hmatch⟩ := matches_of_occurrence_from h
  obtain ⟨taken, hne, rfl⟩ := hcovers _ _ _ _ hmatch
  exact ⟨start, taken, rest, hne, rfl, hplace, hmatch⟩

/-- Where the pattern holds, an occurrence begins, or an earlier one spans the place. -/
theorem exists_covering (hmatch : p (front.getLast?.or before) tail = some (value, rest)) :
    ∃ found ∈ occurrencesFrom p before offset 0 (front ++ tail), ∃ start passed left behind,
      front = start ++ passed ∧ tail = left ++ behind ∧ left ≠ [] ∧
        Spans p before offset (front ++ tail) found start (passed ++ left) behind := by
  have hne : tail ≠ [] := by
    obtain ⟨taken, hsome, rfl⟩ := hcovers _ _ _ _ hmatch
    simp [hsome]
  generalize hsplit : front ++ tail = cs
  induction before, cs using search_induction hcovers generalizing offset front with
  | free before cs hfree =>
      have hnone := hfree front tail hsplit.symm hne
      rw [List.append_nil, hmatch] at hnone
      cases hnone
  | first before ahead taken behind first htaken hfree hfirst ih =>
      rw [occurrences_from_first htaken hfree hfirst]
      rcases split_behind_or_within hsplit.symm with
        ⟨passed, rfl, hrest⟩ | ⟨more, hmore, rfl, htail⟩
      · rcases split_behind_or_within hrest with ⟨more, rfl, rfl⟩ | ⟨left, hleft, rfl, rfl⟩
        · -- The place stands behind the first match.
          rw [← Option.or_assoc, ← List.getLast?_append] at ih
          rw [← List.append_assoc, List.getLast?_append, Option.or_assoc] at hmatch
          obtain ⟨found, hfound, start, passed, left, last, rfl, rfl, hleft, hspans⟩ :=
            ih hmatch rfl
          have hwhole : Spans p before offset _ found (ahead ++ taken ++ start) _ last :=
            hspans.behind
          rw [List.append_assoc] at hwhole
          exact ⟨found, List.mem_cons_of_mem _ hfound, ahead ++ taken ++ start, passed, left, last,
            by simp, rfl, hleft, hwhole⟩
        · exact ⟨_, List.mem_cons_self, ahead, passed, left, behind, rfl, rfl, hleft, rfl, rfl,
            hfirst⟩
      · -- In front of the first match the pattern holds nowhere.
        have hnone := hfree front more rfl hmore
        rw [← htail, hmatch] at hnone
        cases hnone

/-- What an occurrence spans ends in front of each later one. -/
theorem pairwise_apart :
    (occurrencesFrom p before offset 0 cs).Pairwise (Apart p before offset cs) := by
  induction before, cs using search_induction hcovers generalizing offset with
  | free before cs hfree =>
      have hnone : occurrencesFrom p before offset 0 cs = [] := by
        have hbehind : occurrencesFrom p before offset 0 (cs ++ []) = [] :=
          occurrences_from_behind hfree
        rwa [List.append_nil] at hbehind
      rw [hnone]
      exact List.Pairwise.nil
  | first before ahead taken behind first htaken hfree hfirst ih =>
      rw [occurrences_from_first htaken hfree hfirst]
      rw [← Option.or_assoc, ← List.getLast?_append] at ih
      -- Later occurrences begin behind the first match.
      have hlater : ∀ found ∈ occurrencesFrom p ((ahead ++ taken).getLast?.or before)
          (offset + byteLength (ahead ++ taken)) 0 behind,
          offset + byteLength (ahead ++ taken) ≤ found.offset := by
        intro found hfound
        obtain ⟨start, _, _, -, hspans⟩ := exists_spans hcovers hfound
        have := hspans.place
        omega
      refine List.Pairwise.cons (fun later hmem start taken' rest hspans => ?_) ?_
      · obtain ⟨rfl, rfl⟩ := hspans.unique ⟨rfl, rfl, hfirst⟩
        exact hlater later hmem
      · refine ih.imp_of_mem fun {found later} hfound hmem hapart start taken' rest hspans => ?_
        obtain ⟨start', _, _, -, hinner⟩ := exists_spans hcovers hfound
        have hwhole := hinner.behind
        rw [List.append_assoc] at hwhole
        obtain ⟨rfl, rfl⟩ := hspans.unique hwhole
        have hle := hapart start' _ _ hinner
        rw [List.append_assoc (ahead ++ taken), byte_length_append]
        omega

/-- An occurrence in a text takes some characters from its place on. -/
theorem taken_of_occurrence (h : found ∈ occurrences p cs) :
    ∃ front taken rest, cs = front ++ (taken ++ rest) ∧ taken ≠ [] ∧
      found.offset = byteLength front ∧
      p front.getLast? (taken ++ rest) = some (found.value, rest) := by
  obtain ⟨front, taken, rest, hne, hsplit, hplace, hholds⟩ := exists_spans hcovers h
  rw [Nat.zero_add] at hplace
  rw [Option.or_none] at hholds
  exact ⟨front, taken, rest, hsplit, hne, hplace, hholds⟩

/-- What an occurrence in a text takes ends in front of the later ones. -/
theorem occurrences_apart : (occurrences p cs).Pairwise (EndsBefore p cs) := by
  refine (pairwise_apart hcovers).imp ?_
  intro found later hapart front taken rest hsplit hplace h
  have hspans : Spans p none 0 cs found front taken rest :=
    ⟨hsplit, by rwa [Nat.zero_add], by rwa [Option.or_none]⟩
  have hle := hapart front taken rest hspans
  rwa [Nat.zero_add] at hle

/-- Occurrences in a text stand in the order of their offsets. -/
theorem occurrences_sorted :
    (occurrences p cs).Pairwise fun found later => found.offset < later.offset := by
  refine (occurrences_apart hcovers).imp_of_mem fun {found later} hfound _ hbefore => ?_
  obtain ⟨front, taken, rest, hsplit, hne, hplace, hholds⟩ := taken_of_occurrence hcovers hfound
  have hle := hbefore front taken rest hsplit hplace hholds
  have hpos := byte_length_pos hne
  rw [byte_length_append] at hle
  omega

/-- An occurrence that begins behind another one begins behind what the other one takes. -/
theorem ends_before_of_offset_lt (hfound : found ∈ occurrences p cs)
    (hlater : later ∈ occurrences p cs) (hlt : found.offset < later.offset) :
    EndsBefore p cs found later := by
  have hself : ∀ found ∈ occurrences p cs,
      found.offset < found.offset → EndsBefore p cs found found :=
    fun found _ hless => absurd hless (Nat.lt_irrefl found.offset)
  have hforward : (occurrences p cs).Pairwise fun found later =>
      found.offset < later.offset → EndsBefore p cs found later := by
    refine (occurrences_apart hcovers).imp ?_
    intro found later hbefore _
    exact hbefore
  -- In the other direction the order of the offsets is broken.
  have hback : (occurrences p cs).Pairwise (flip fun found later =>
      found.offset < later.offset → EndsBefore p cs found later) := by
    refine (occurrences_sorted hcovers).imp ?_
    intro found later hlt hless
    exact absurd hless (Nat.lt_asymm hlt)
  exact hforward.forall_of_forall_of_flip hself hback hfound hlater hlt

/-- Where the pattern holds in a text, an occurrence takes some of the characters, beginning at the
place or in front of it. -/
theorem occurrence_covering (hmatch : p front.getLast? tail = some (value, rest)) :
    ∃ found ∈ occurrences p (front ++ tail), ∃ start passed left behind,
      front = start ++ passed ∧ tail = left ++ behind ∧ left ≠ [] ∧
        found.offset = byteLength start ∧
        p start.getLast? (passed ++ (left ++ behind)) = some (found.value, behind) := by
  rw [← Option.or_none (o := front.getLast?)] at hmatch
  have hcovering : ∃ found ∈ occurrencesFrom p none 0 0 (front ++ tail), _ :=
    exists_covering hcovers hmatch
  obtain ⟨found, hfound, start, passed, left, behind, hfront, htail, hleft, -, hplace, hholds⟩ :=
    hcovering
  rw [Nat.zero_add] at hplace
  rw [Option.or_none, List.append_assoc] at hholds
  exact ⟨found, hfound, start, passed, left, behind, hfront, htail, hleft, hplace, hholds⟩

end Search

end Ariel.Text
