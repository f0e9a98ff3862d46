import Ariel.Proofs.Text.Scan
import Ariel.Proofs.Text.Seam
import Ariel.Template.Basic

/-!
# Putting texts in place of patterns

Replacing goes through a text from left to right. It keeps what stands before the first place where
the pattern holds (`replace_from_behind`), puts the new text in the place of what the pattern covers
(`replace_from_at`), and does its work on both sides of a seam by themselves
(`replace_from_append`).
-/

namespace Ariel.Template

open Ariel.Text

variable {p : Pattern Unit} {replacement front tail cs taken rest : List Char}
  {before : Option Char} {u : Unit}

/-- Where the pattern holds nowhere in a text, replacing keeps the text. -/
theorem replace_from_behind (replacement : List Char) (h : Free p before front tail) :
    replaceFrom p replacement before 0 (front ++ tail) =
      front ++ replaceFrom p replacement (front.getLast?.or before) 0 tail := by
  induction front generalizing before with
  | nil => rfl
  | cons c front ih =>
      have hhere : p before (c :: (front ++ tail)) = none := h [] (c :: front) rfl (by simp)
      rw [List.cons_append, replaceFrom, hhere, last_cons_or]
      show c :: replaceFrom p replacement (some c) 0 (front ++ tail) = _
      rw [ih h.behind_first, List.cons_append]

/-- A text in which the pattern holds nowhere stays as it is. -/
theorem replace_from_free (replacement : List Char) (h : Free p before cs []) :
    replaceFrom p replacement before 0 cs = cs := by
  have hkept := replace_from_behind replacement h
  rwa [List.append_nil, show replaceFrom p replacement _ 0 [] = [] from rfl,
    List.append_nil] at hkept

/-- What is skipped is left out. -/
theorem replace_from_skipped : replaceFrom p replacement before taken.length (taken ++ rest) =
    replaceFrom p replacement (taken.getLast?.or before) 0 rest := by
  induction taken generalizing before with
  | nil => rfl
  | cons c taken ih =>
      rw [last_cons_or, ← ih, List.length_cons, List.cons_append, replaceFrom]

/-- Where the pattern holds, the new text stands in the place of what it covers. -/
theorem replace_from_at (replacement : List Char) (hne : taken ≠ [])
    (h : p before (taken ++ rest) = some (u, rest)) :
    replaceFrom p replacement before 0 (taken ++ rest) =
      replacement ++ replaceFrom p replacement (taken.getLast?.or before) 0 rest := by
  obtain ⟨c, more, rfl⟩ := List.exists_cons_of_ne_nil hne
  rw [List.cons_append] at h ⊢
  rw [replaceFrom, h, last_cons_or]
  show replacement ++ replaceFrom p replacement (some c) ((more ++ rest).length - rest.length)
    (more ++ rest) = _
  rw [List.length_append, Nat.add_sub_cancel, replace_from_skipped]

/-- On two sides of a seam, texts are replaced by themselves. -/
theorem replace_from_append {skipped : Nat} (h : Seam p before front tail)
    (hskipped : skipped ≤ front.length) :
    replaceFrom p replacement before skipped (front ++ tail) =
      replaceFrom p replacement before skipped front ++
        replaceFrom p replacement (front.getLast?.or before) 0 tail := by
  induction front generalizing before skipped with
  | nil =>
      obtain rfl : skipped = 0 := Nat.le_zero.mp hskipped
      rfl
  | cons c front ih =>
      rw [last_cons_or, List.cons_append]
      cases skipped with
      | succ skipped =>
          rw [replaceFrom, replaceFrom]
          exact ih h.behind_first (Nat.le_of_succ_le_succ hskipped)
      | zero =>
          rw [replaceFrom, replaceFrom, h.at_front]
          cases p before (c :: front) with
          | none =>
              show c :: replaceFrom p replacement (some c) 0 (front ++ tail) = _
              rw [ih h.behind_first (Nat.zero_le _)]
              rfl
          | some found =>
              obtain ⟨u, rest⟩ := found
              have hlength : (front ++ tail).length - (rest ++ tail).length =
                  front.length - rest.length := by
                rw [List.length_append, List.length_append, Nat.add_sub_add_right]
              show replacement ++ replaceFrom p replacement (some c)
                ((front ++ tail).length - (rest ++ tail).length) (front ++ tail) = _
              rw [hlength, ih h.behind_first (Nat.sub_le _ _), ← List.append_assoc]

/-- Replacing brings no character that stands neither in the text nor in the new one. -/
theorem mem_of_mem_replace_from {skipped : Nat} {c : Char}
    (h : c ∈ replaceFrom p replacement before skipped cs) : c ∈ cs ∨ c ∈ replacement := by
  induction cs generalizing before skipped with
  | nil => cases h
  | cons d cs ih =>
      have hlater : ∀ {before skipped}, c ∈ replaceFrom p replacement before skipped cs →
          c ∈ d :: cs ∨ c ∈ replacement :=
        fun hmem => (ih hmem).imp_left (List.mem_cons_of_mem _)
      cases skipped with
      | succ skipped => exact hlater h
      | zero =>
          unfold replaceFrom at h
          split at h
          next =>
            rcases List.mem_append.mp h with hnew | hrest
            · exact .inr hnew
            · exact hlater hrest
          next =>
            rcases List.mem_cons.mp h with rfl | hrest
            · exact .inl List.mem_cons_self
            · exact hlater hrest

/-- A text in which the pattern does not occur stays as it is. -/
theorem replace_all_of_no_occurrence (replacement : List Char) (h : occurrences p cs = []) :
    replaceAll p replacement cs = cs := by
  have hnone : Free p none cs [] := by
    intro start rest hsplit hne
    rw [List.append_nil, Option.or_none]
    cases hfound : p start.getLast? rest with
    | none => rfl
    | some found => exact absurd ⟨hne, _, hfound⟩ (occurrences_eq_nil_iff.mp h _ _ _ hsplit)
  exact replace_from_free replacement hnone

/-- Where the pattern occurs, the new text first stands behind what is before the first
occurrence. -/
theorem exists_replace_all (hcovers : Consumes p) (h : occurrences p cs ≠ []) :
    ∃ start taken rest, cs = start ++ (taken ++ rest) ∧ taken ≠ [] ∧
      ∀ replacement, ∃ more, replaceAll p replacement cs = start ++ (replacement ++ more) := by
  obtain ⟨found, others, hfirst⟩ := List.exists_cons_of_ne_nil h
  have hhead : firstOccurrence? p cs = some found := by
    rw [firstOccurrence?, hfirst, List.head?_cons]
  obtain ⟨⟨start, tail, rfl, hoffset, -, rest, hmatch⟩, hbefore⟩ := first_occurrence_eq_some hhead
  obtain ⟨taken, hne, rfl⟩ := hcovers _ _ _ _ hmatch
  have hnone : Free p none start (taken ++ rest) := by
    intro init more hsplit hmore
    cases hearlier : p (init.getLast?.or none) (more ++ (taken ++ rest)) with
    | none => rfl
    | some other =>
        rw [Option.or_none] at hearlier
        have hle := hbefore init (more ++ (taken ++ rest)) other.1
          (by rw [hsplit, List.append_assoc]) ⟨by simp [hmore], _, hearlier⟩
        obtain ⟨c, more, rfl⟩ := List.exists_cons_of_ne_nil hmore
        have hpos := Char.utf8Size_pos c
        rw [← hoffset, hsplit, byte_length_append, byte_length_cons] at hle
        omega
  refine ⟨start, taken, rest, rfl, hne, fun replacement => ?_⟩
  refine ⟨replaceFrom p replacement (taken.getLast?.or start.getLast?) 0 rest, ?_⟩
  rw [replaceAll, replace_from_behind _ hnone, Option.or_none, replace_from_at _ hne hmatch]

section Exactly

variable {word : String}

/-- A fixed text has a seam where it does not stand across. -/
theorem seam_exactly (h : ¬ Straddles word.toList front tail) :
    Seam (exactly word) before front tail := by
  intro start rest hsplit hne
  have hread : literal? word (rest ++ tail) = (literal? word rest).map (· ++ tail) := by
    refine Option.ext fun left => ?_
    rw [literal_eq_some_iff, Option.map_eq_some_iff]
    constructor
    · intro heq
      rcases List.append_eq_append_iff.mp heq with ⟨right, hword, htail⟩ | ⟨more, hrest, hleft⟩
      · -- The word reaches up to the seam at least, and not across it.
        cases right with
        | nil =>
            refine ⟨[], literal_eq_some_iff.mpr (by simpa using hword.symm), ?_⟩
            simpa using htail
        | cons c right =>
            refine absurd ⟨rest, c :: right, hword, hne, by simp, ?_, ?_⟩ h
            · exact ⟨start, hsplit.symm⟩
            · exact ⟨left, htail.symm⟩
      · exact ⟨more, literal_eq_some_iff.mpr hrest, hleft.symm⟩
    · rintro ⟨more, hmore, rfl⟩
      rw [literal_eq_some_iff.mp hmore, List.append_assoc]
  show (literal? word (rest ++ tail)).map _ = ((literal? word rest).map _).map _
  rw [hread, Option.map_map, Option.map_map]
  rfl

/-- Away from the word itself, texts are replaced part by part. -/
theorem replace_exactly_append (h : ¬ Straddles word.toList front tail) :
    replaceAll (exactly word) replacement (front ++ tail) =
      replaceAll (exactly word) replacement front ++
        replaceAll (exactly word) replacement tail := by
  rw [replaceAll, replace_from_append (seam_exactly h) (Nat.zero_le _)]
  congr 1
  -- A fixed text does not depend on the character before it.
  cases tail with
  | nil => rfl
  | cons c tail => rfl

/-- The word itself is replaced as a whole. -/
theorem replace_exactly_self (hne : word.toList ≠ []) :
    replaceAll (exactly word) replacement word.toList = replacement := by
  have hmatch : exactly word none (word.toList ++ []) = some ((), []) := by
    show (literal? word (word.toList ++ [])).map _ = _
    rw [literal_eq_some_iff.mpr rfl]
    rfl
  have hreplaced := replace_from_at replacement hne hmatch
  rwa [List.append_nil, show replaceFrom (exactly word) replacement _ 0 [] = [] from rfl,
    List.append_nil] at hreplaced

/-- A fixed text does not occur where no part of the text is the word. -/
theorem occurrences_exactly_eq_nil (h : ∀ front back, cs ≠ front ++ (word.toList ++ back)) :
    occurrences (exactly word) cs = [] := by
  refine occurrences_eq_nil_iff.mpr ?_
  rintro front tail u hsplit ⟨-, rest, hmatch⟩
  obtain ⟨back, hback, -⟩ := Option.map_eq_some_iff.mp hmatch
  rw [literal_eq_some_iff] at hback
  exact h front back (by rw [hsplit, hback])

/-- A text that lacks a character of the word stays as it is. -/
theorem replace_exactly_of_not_mem {c : Char} (hword : c ∈ word.toList) (hc : c ∉ cs) :
    replaceAll (exactly word) replacement cs = cs := by
  refine replace_all_of_no_occurrence _ (occurrences_exactly_eq_nil ?_)
  rintro front back rfl
  exact hc (List.mem_append_right _ (List.mem_append_left _ hword))

end Exactly

end Ariel.Template
