import Ariel.Proofs.Validation.Comparison
import Ariel.Proofs.Validation.Projection
import Ariel.Proofs.Validation.Restuffed

/-!
# Texts with one literal

A text with one literal shows nothing of what the literal holds but its length (`mask_single`). So
it is a fragment when it is one with an empty literal, as long as the literal brings double quotes
in pairs (`fragment_single`). The checks that search the text itself read this literal and no other
(`Searches.single`).
-/

namespace Ariel.Validation

open Ariel.Text

variable {cs ds front text behind : List Char}

/-- The mask of a text with one literal. -/
theorem mask_single (hfront : '\'' ∉ front) (htext : '\'' ∉ text) (hbehind : '\'' ∉ behind) :
    mask (front ++ '\'' :: (text ++ '\'' :: behind)) =
      front ++ '\'' :: (List.replicate (byteLength text) ' ' ++ '\'' :: behind) := by
  rw [mask_append_of_no_quote hfront, mask_literal htext, mask_of_no_quote hbehind]

/-- A text with one literal has two quotes. -/
theorem count_single (hfront : '\'' ∉ front) (htext : '\'' ∉ text) (hbehind : '\'' ∉ behind) :
    (front ++ '\'' :: (text ++ '\'' :: behind)).count '\'' = 2 := by
  rw [List.count_append, List.count_cons_self, List.count_append, List.count_cons_self,
    List.count_eq_zero.mpr hfront, List.count_eq_zero.mpr htext, List.count_eq_zero.mpr hbehind]

section Fragment

/-- A text without quotes can stand in front of two texts that differ in their literals. -/
theorem Restuffed.prepend (h : Restuffed cs ds) (hfront : '\'' ∉ front) :
    Restuffed (front ++ cs) (front ++ ds) := by
  induction front with
  | nil => exact h
  | cons c front ih =>
      rw [List.mem_cons, not_or] at hfront
      exact .outside (Ne.symm hfront.1) (ih hfront.2)

/-- Spaces can stand between quotes. -/
theorem quotable_spaces (n : Nat) : Quotable (List.replicate n ' ') where
  singleQuotes := fun hmem => absurd (List.eq_of_mem_replicate hmem) (by decide)
  doubleQuotes := fun hmem => absurd (List.eq_of_mem_replicate hmem) (by decide)

/-- A text with quotes in pairs is a fragment when its mask is one. -/
theorem Fragment.of_mask (h : Fragment (mask cs)) (hsingle : Even (cs.count '\''))
    (hdouble : Even (cs.count '"')) : Fragment cs := by
  obtain ⟨-, hparentheses, hcomparisons, hopenings⟩ := fragment_iff.mp h
  rw [mask_mask] at hparentheses hcomparisons hopenings
  exact fragment_iff.mpr ⟨balanced_quotes_eq_nil_iff.mpr ⟨hsingle, hdouble⟩, hparentheses,
    hcomparisons, hopenings⟩

/-- A text with an empty literal stays a fragment when the literal is filled with double quotes in
pairs. -/
theorem fragment_single (h : Fragment (front ++ '\'' :: ([] ++ '\'' :: behind)))
    (hfront : '\'' ∉ front) (htext : '\'' ∉ text) (hbehind : '\'' ∉ behind)
    (hdouble : Even (text.count '"')) :
    Fragment (front ++ '\'' :: (text ++ '\'' :: behind)) := by
  have hempty : Quotable [] := ⟨List.not_mem_nil, List.not_mem_nil⟩
  have hsame : Restuffed (behind ++ []) (behind ++ []) := Restuffed.nil.prepend hbehind
  rw [List.append_nil] at hsame
  have hspaces : Restuffed (front ++ '\'' :: ([] ++ '\'' :: behind))
      (mask (front ++ '\'' :: (text ++ '\'' :: behind))) := by
    rw [mask_single hfront htext hbehind]
    exact (Restuffed.literal hempty (quotable_spaces _) hsame).prepend hfront
  refine (hspaces.fragment h).of_mask ?_ ?_
  · rw [count_single hfront htext hbehind]
    decide
  · have hframe := h.doubleQuotes
    simp only [List.count_append, List.count_cons, List.count_nil] at hframe ⊢
    rw [Nat.even_iff] at hframe hdouble ⊢
    omega

end Fragment

section Search

variable {β : Type} {lead : Lead β} {clear : List Char → Prop} {before : Option Char}
  {reading : Reading β} {gap : List Char}
  {scan : (before : Option Char) → (offset : Nat) → List Char → List (Reading β)}

/-- A search reads the one literal of a text or nothing. -/
theorem Searches.single (hscan : Searches lead clear scan) (hlaw : lead.Lawful)
    (hfront : '\'' ∉ front) (htext : '\'' ∉ text) (hbehind : '\'' ∉ behind) (hclear : clear behind)
    (h : reading ∈ scan none 0 (front ++ '\'' :: (text ++ '\'' :: behind))) :
    reading.text = text ∧ Ends lead none front := by
  have hstep : InStep lead clear none (front ++ '\'' :: (text ++ '\'' :: behind)) :=
    (in_step_iff hlaw hfront htext).mpr
      ⟨fun _ hmem => absurd hmem hbehind, fun _ => hclear, in_step_of_quoteless hbehind⟩
  have heven : Even ((front ++ '\'' :: (text ++ '\'' :: behind)).count '\'') := by
    rw [count_single hfront htext hbehind]
    decide
  obtain ⟨-, hmem⟩ := hscan.reads 0 hlaw hstep heven
  rcases (stands_iff hlaw hfront htext).mp ((hmem reading).mp h) with
    ⟨start, word, hsplit, hlead, hsame, -⟩ | ⟨start, word, rest, hsplit, -⟩
  · exact ⟨hsame, start, _, word, hsplit, hlead⟩
  · rw [hsplit] at hbehind
    exact absurd (by simp) hbehind

/-- No percent sign is compared in a text whose one literal holds none, or stands behind no equality
operator. -/
theorem wildcard_with_equals_single (hfront : '\'' ∉ front) (htext : '\'' ∉ text)
    (hbehind : '\'' ∉ behind) (h : Ends Compares none front → '%' ∉ text) :
    wildcardWithEquals (front ++ '\'' :: (text ++ '\'' :: behind)) = [] := by
  have hclear : ¬ Opens Compares (some '\'') behind := by
    intro hopens
    obtain ⟨word, tail, other, rest, -, -, hsplit⟩ := hopens
    rw [hsplit] at hbehind
    exact absurd (by simp) hbehind
  rw [wildcard_with_equals_eq_filter_map, List.filterMap_eq_nil_iff]
  intro reading hreading
  obtain ⟨hsame, hends⟩ :=
    searches_comparisons.single lawful_compares hfront htext hbehind hclear hreading
  rw [hsame, if_neg]
  rw [List.contains_iff_mem]
  exact h hends

/-- No pattern is exact in a text whose one literal holds a percent sign, or stands behind no
LIKE. -/
theorem like_without_wildcard_single (hfront : '\'' ∉ front) (htext : '\'' ∉ text)
    (hbehind : '\'' ∉ behind) (h : Ends Matches none front → '%' ∈ text) :
    likeWithoutWildcard (front ++ '\'' :: (text ++ '\'' :: behind)) = [] := by
  rw [like_without_wildcard_eq_filter_map, List.filterMap_eq_nil_iff]
  intro reading hreading
  obtain ⟨hsame, hends⟩ :=
    searches_matches.single lawful_matches hfront htext hbehind trivial hreading
  rw [hsame, if_neg]
  rw [no_wildcard_iff]
  exact fun hnone => hnone.1 (h hends)

/-- A text without the characters of operators does not end with a comparison. -/
theorem not_ends_compares_of_plain (h : cs.any operatorCharacters.contains = false) :
    ¬ Ends Compares before cs := by
  intro hends
  obtain ⟨start, operator, tail, rfl, hknown, -, gap, rfl, -⟩ := hends
  obtain ⟨hne, hrun⟩ := operator_characters hknown
  obtain ⟨c, hc⟩ := List.exists_mem_of_ne_nil _ hne
  exact List.any_eq_false.mp h c (by simp [hc]) (hrun c hc)

/-- A text does not end with LIKE when the blanks at its end stand behind a character of no word. -/
theorem not_ends_matches_behind (hgap : ∀ c ∈ gap, isBlank c = true)
    (hlast : ∀ c ∈ cs.getLast?, isBlank c = false ∧ isWordCharacter c = false) :
    ¬ Ends Matches before (cs ++ gap) := by
  intro hends
  obtain ⟨start, -, tail, hsplit, -, word, gap', rfl, hlike, -, hgap'⟩ := hends
  obtain ⟨hne, hword⟩ := word_of_like hlike
  obtain ⟨c, hc, hcharacter⟩ := exists_last_of_run start hne hword
  have hsolid : ∀ c ∈ (start ++ word).getLast?, isBlank c = false := by
    intro d hd
    rw [List.getLast?_append_of_ne_nil start hne] at hd
    exact is_blank_of_word_character (hword d (List.mem_of_getLast? hd))
  rw [← List.append_assoc] at hsplit
  obtain ⟨rfl, -⟩ := append_run_inj hsplit hgap hgap' (fun c hc => (hlast c hc).1) hsolid
  rw [(hlast c hc).2] at hcharacter
  cases hcharacter

end Search

end Ariel.Validation
