import Ariel.Calendar.Datetime
import Ariel.Proofs.Text.Blank

/-!
# The characters of datetimes

A datetime is written in blanks, digits, signs and colons only. `datetime_chars` says so of every
text that is read as one; so a datetime holds neither quotes nor letters, and can stand between
quotes as it is.
-/

namespace Ariel.Calendar

open Ariel.Text

/-- A character that a datetime may be written with. -/
def isDatetimeChar (c : Char) : Bool :=
  isBlank c || c.isDigit || c == '-' || c == '+' || c == ':'

/-- Only characters of datetimes stand between the beginning of a text and one of its tails. -/
def ReadsTo (cs rest : List Char) : Prop :=
  ∃ taken, cs = taken ++ rest ∧ ∀ c ∈ taken, isDatetimeChar c = true

/-- Reading may go on where it stopped. -/
theorem ReadsTo.trans {cs ds rest : List Char} (h : ReadsTo cs ds) (hrest : ReadsTo ds rest) :
    ReadsTo cs rest := by
  obtain ⟨first, rfl, hfirst⟩ := h
  obtain ⟨second, rfl, hsecond⟩ := hrest
  refine ⟨first ++ second, by simp, fun c hc => ?_⟩
  exact (List.mem_append.mp hc).elim (hfirst c) (hsecond c)

/-- One character of a datetime may be read. -/
theorem ReadsTo.cons {c : Char} {cs : List Char} (h : isDatetimeChar c = true) :
    ReadsTo (c :: cs) cs :=
  ⟨[c], rfl, by simpa using h⟩

/-- Blanks may be read. -/
theorem reads_to_drop_blanks (cs : List Char) : ReadsTo cs (dropBlanks cs) := by
  obtain ⟨gap, hsplit, hgap⟩ := drop_blanks_spec cs
  exact ⟨gap, hsplit, fun c hc => by simp [isDatetimeChar, hgap c hc]⟩

/-- A run of digits may be read. -/
theorem reads_to_of_digits {cs rest : List Char} {n : Nat} (h : digits? cs = some (n, rest)) :
    ReadsTo cs rest := by
  unfold digits? at h
  split at h
  next => cases h
  next =>
    cases h
    exact ⟨_, List.takeWhile_append_dropWhile.symm,
      fun c hc => by simp [isDatetimeChar, List.mem_takeWhile_imp hc]⟩

/-- A few digits may be read. -/
theorem reads_to_of_few_digits {most n : Nat} {cs rest : List Char}
    (h : fewDigits? most cs = some (n, rest)) : ReadsTo cs rest := by
  unfold fewDigits? at h
  split at h
  next => cases h
  next =>
    cases h
    have hprefix : (cs.take most).takeWhile Char.isDigit <+: cs :=
      (List.takeWhile_prefix _).trans (List.take_prefix most cs)
    refine ⟨(cs.take most).takeWhile Char.isDigit, ?_,
      fun c hc => by simp [isDatetimeChar, List.mem_takeWhile_imp hc]⟩
    exact (List.prefix_iff_eq_append.mp hprefix).symm

/-- A year may be read. -/
theorem reads_to_of_year {cs rest : List Char} {n : Int} (h : year? cs = some (n, rest)) :
    ReadsTo cs rest := by
  refine (reads_to_drop_blanks cs).trans ?_
  unfold year? at h
  split at h
  next tail hcs =>
    obtain ⟨⟨m, last⟩, hdigits, heq⟩ := Option.map_eq_some_iff.mp h
    cases heq
    rw [hcs]
    exact (ReadsTo.cons (by decide)).trans (reads_to_of_digits hdigits)
  next tail hcs =>
    obtain ⟨⟨m, last⟩, hdigits, heq⟩ := Option.map_eq_some_iff.mp h
    cases heq
    rw [hcs]
    exact (ReadsTo.cons (by decide)).trans (reads_to_of_digits hdigits)
  next =>
    obtain ⟨⟨m, last⟩, hdigits, heq⟩ := Option.map_eq_some_iff.mp h
    cases heq
    exact reads_to_of_few_digits hdigits

/-- A part of one or two digits may be read. -/
theorem reads_to_of_part {cs rest : List Char} {n : Nat} (h : part? cs = some (n, rest)) :
    ReadsTo cs rest :=
  (reads_to_drop_blanks cs).trans (reads_to_of_few_digits h)

/-- A mark between two parts may be read. -/
theorem reads_to_of_mark {mark : Char} {cs rest : List Char} (h : mark? mark cs = some rest)
    (hmark : isDatetimeChar mark = true) : ReadsTo cs rest := by
  cases cs with
  | nil => cases h
  | cons c cs =>
      simp only [mark?] at h
      split at h
      next hc =>
        cases h
        exact ReadsTo.cons (hc ▸ hmark)
      next => cases h

/-- The numbers of a datetime are read to the end of the text. -/
theorem reads_to_of_numbers {seconds : Bool} {cs : List Char} {d : Datetime}
    (h : numbers? seconds cs = some d) : ReadsTo cs [] := by
  simp only [numbers?, bind, Option.bind_eq_some_iff] at h
  obtain ⟨⟨_, cs₁⟩, hyear, cs₂, hdash, ⟨_, cs₃⟩, hmonth, cs₄, hdash', ⟨_, cs₅⟩, hday,
    ⟨_, cs₆⟩, hhour, cs₇, hcolon, ⟨_, cs₈⟩, hminute, h⟩ := h
  have htime : ReadsTo cs cs₈ :=
    (reads_to_of_year hyear).trans <| (reads_to_of_mark hdash (by decide)).trans <|
      (reads_to_of_part hmonth).trans <| (reads_to_of_mark hdash' (by decide)).trans <|
      (reads_to_of_part hday).trans <| (reads_to_drop_blanks cs₅).trans <|
      (reads_to_of_part hhour).trans <| (reads_to_of_mark hcolon (by decide)).trans <|
      reads_to_of_part hminute
  cases seconds with
  | true =>
      simp only [if_true, Option.bind_eq_some_iff, Option.ite_none_right_eq_some] at h
      obtain ⟨cs₉, hmark, ⟨_, rest⟩, hsecond, hempty, -⟩ := h
      obtain rfl : rest = [] := List.isEmpty_iff.mp hempty
      exact htime.trans ((reads_to_of_mark hmark (by decide)).trans (reads_to_of_part hsecond))
  | false =>
      simp only [Bool.false_eq_true, if_false, Option.bind_some,
        Option.ite_none_right_eq_some] at h
      exact List.isEmpty_iff.mp h.1 ▸ htime

/-- A datetime is written in blanks, digits, signs and colons only. -/
theorem datetime_chars {cs : List Char} (h : (datetime? cs).isSome = true) :
    ∀ c ∈ cs, isDatetimeChar c = true := by
  have hread : ReadsTo cs [] := by
    obtain ⟨d, hd⟩ := Option.isSome_iff_exists.mp h
    rcases Option.or_eq_some_iff.mp hd with hd | ⟨-, hd⟩
    · exact reads_to_of_numbers (Option.filter_eq_some_iff.mp hd).1
    · exact reads_to_of_numbers (Option.filter_eq_some_iff.mp hd).1
  obtain ⟨taken, rfl, htaken⟩ := hread
  simpa using htaken

end Ariel.Calendar
