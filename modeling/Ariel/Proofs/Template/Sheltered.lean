import Ariel.Proofs.Template.Filling
import Ariel.Proofs.Validation.Restuffed

/-!
# Holes in literals

A token is written in braces and word characters. So every other character that stands in a query
is a wall for it, quotes among them: literals are filled in one by one, and what stands between them
stays (`Sheltered.restuffed`).
-/

namespace Ariel.Template

open Ariel.Text Ariel.Validation

variable {cs front back : List Char} {key : String} {values : List (String × String)} {c : Char}

section Walls

/-- A character that can stand in no token of a key in word characters. -/
structure Wall (c : Char) : Prop where
  word : isWordCharacter c = false
  opening : c ≠ '\x7b'
  closing : c ≠ '\x7d'

instance : Decidable (Wall c) :=
  decidable_of_iff (isWordCharacter c = false ∧ c ≠ '\x7b' ∧ c ≠ '\x7d')
    ⟨fun h => ⟨h.1, h.2.1, h.2.2⟩, fun h => ⟨h.word, h.opening, h.closing⟩⟩

/-- The capital of a word character is one, too. -/
theorem is_word_character_to_upper (h : isWordCharacter c = true) :
    isWordCharacter c.toUpper = true := by
  cases halpha : c.isAlpha with
  | true => exact is_word_character_of_alpha (by rwa [is_alpha_to_upper])
  | false => rwa [to_upper_of_not_alpha halpha]

/-- The name of a key in word characters is written in word characters. -/
theorem word_characters_of_key (hkey : ∀ c ∈ key.toList, isWordCharacter c = true) :
    ∀ c ∈ (placeholderName key).toList, isWordCharacter c = true := by
  intro c hc
  rw [placeholderName, upper, String.toList_ofList, capitals, to_list_trim] at hc
  obtain ⟨d, hd, rfl⟩ := List.mem_map.mp hc
  exact is_word_character_to_upper (hkey d (mem_of_mem_trimmed hd))

/-- No wall stands in a token. -/
theorem Wall.not_mem_token (h : Wall c) (hkey : ∀ c ∈ key.toList, isWordCharacter c = true) :
    c ∉ (token key).toList := by
  intro hmem
  rw [to_list_token, hole, List.mem_append, List.mem_append] at hmem
  rcases hmem with hopen | hname | hclose
  · exact h.opening (by simpa using hopen)
  · have hword := word_characters_of_key hkey c hname
    rw [h.word] at hword
    cases hword
  · exact h.closing (by simpa using hclose)

/-- Values are filled in on both sides of a wall, and the wall stays. -/
theorem filled_append_wall (hkeys : ∀ pair ∈ values, ∀ c ∈ pair.1.toList, isWordCharacter c = true)
    (h : Wall c) :
    filled values (front ++ c :: back) = filled values front ++ c :: filled values back := by
  induction values generalizing front back with
  | nil => rfl
  | cons pair values ih =>
      obtain ⟨key, value⟩ := pair
      rw [List.forall_mem_cons] at hkeys
      have hwall := h.not_mem_token hkeys.1
      have hbehind : ¬ Straddles (token key).toList (front ++ [c]) back :=
        not_straddles_of_wall (c := c) (by simp) hwall
      have hbefore : ¬ Straddles (token key).toList front [c] :=
        not_straddles_of_last (last_token key) (by simpa using h.closing.symm)
      have hkept : replaceAll (exactly (token key)) value.toList [c] = [c] :=
        replace_exactly_of_not_mem (List.mem_of_getLast? (last_token key))
          (by simpa using h.closing.symm)
      have hsplit : front ++ c :: back = (front ++ [c]) ++ back := by simp
      rw [filled_cons, filled_cons, filled_cons, hsplit, replace_exactly_append hbehind,
        replace_exactly_append hbefore, hkept, List.append_assoc, ← ih hkeys.2]
      rfl

end Walls

section Filled

/-- What holds no opening brace stays in front of what is filled in. -/
theorem filled_append_of_no_opening (hfront : '\x7b' ∉ front) :
    filled values (front ++ back) = front ++ filled values back := by
  induction values generalizing back with
  | nil => rfl
  | cons pair values ih =>
      obtain ⟨key, value⟩ := pair
      have hbrace : '\x7b' ∈ (token key).toList := List.mem_of_mem_head? (head_token key)
      rw [filled_cons, filled_cons,
        replace_exactly_append (not_straddles_of_first (head_token key) hfront),
        replace_exactly_of_not_mem hbrace hfront, ih]

/-- Nothing is filled in where nothing stands. -/
theorem filled_of_nil (values : List (String × String)) : filled values [] = [] := by
  induction values with
  | nil => rfl
  | cons pair values ih => exact ih

/-- A text without opening braces stays as it is. -/
theorem filled_of_no_opening (hcs : '\x7b' ∉ cs) : filled values cs = cs := by
  have hkept : filled values (cs ++ []) = cs ++ filled values [] := filled_append_of_no_opening hcs
  rwa [filled_of_nil, List.append_nil] at hkept

/-- What is filled in comes from the text or from a value. -/
theorem mem_of_mem_filled (h : c ∈ filled values cs) :
    c ∈ cs ∨ ∃ pair ∈ values, c ∈ pair.2.toList := by
  induction values generalizing cs with
  | nil => exact .inl h
  | cons pair values ih =>
      obtain ⟨key, value⟩ := pair
      rcases ih h with hmem | ⟨other, hother, hmem⟩
      · rcases mem_of_mem_replace_from hmem with hmem | hmem
        · exact .inl hmem
        · exact .inr ⟨(key, value), List.mem_cons_self, hmem⟩
      · exact .inr ⟨other, List.mem_cons_of_mem _ hother, hmem⟩

/-- Values that can stand between quotes leave a text such that it can. -/
theorem quotable_filled (hcs : Quotable cs) (hvalues : ∀ pair ∈ values, Quotable pair.2.toList) :
    Quotable (filled values cs) where
  singleQuotes hmem := by
    rcases mem_of_mem_filled hmem with hmem | ⟨pair, hpair, hmem⟩
    · exact hcs.singleQuotes hmem
    · exact (hvalues pair hpair).singleQuotes hmem
  doubleQuotes hmem := by
    rcases mem_of_mem_filled hmem with hmem | ⟨pair, hpair, hmem⟩
    · exact hcs.doubleQuotes hmem
    · exact (hvalues pair hpair).doubleQuotes hmem

end Filled

/-- A text with closed literals and without double quotes, whose opening braces all stand in
literals. -/
structure Sheltered (cs : List Char) : Prop where
  singleQuotes : Even (cs.count '\'')
  doubleQuotes : '"' ∉ cs
  braces : '\x7b' ∉ mask cs

instance : Decidable (Sheltered cs) :=
  decidable_of_iff (Even (cs.count '\'') ∧ '"' ∉ cs ∧ '\x7b' ∉ mask cs)
    ⟨fun h => ⟨h.1, h.2.1, h.2.2⟩, fun h => ⟨h.singleQuotes, h.doubleQuotes, h.braces⟩⟩

/-- Filling in changes the contents of literals only. -/
theorem Sheltered.restuffed (h : Sheltered cs)
    (hkeys : ∀ pair ∈ values, ∀ c ∈ pair.1.toList, isWordCharacter c = true)
    (hvalues : ∀ pair ∈ values, Quotable pair.2.toList) : Restuffed cs (filled values cs) := by
  -- A literal is filled in as a whole, so the induction is on the length.
  induction hlength : cs.length using Nat.strong_induction_on generalizing cs with
  | _ n ih =>
    obtain ⟨hsingle, hdouble, hbraces⟩ := h
    cases cs with
    | nil =>
        rw [filled_of_nil]
        exact .nil
    | cons c cs =>
        rw [List.length_cons] at hlength
        by_cases hquote : c = '\''
        · subst hquote
          obtain ⟨content, rest, rfl, hcontent, hrest⟩ :=
            exists_close_of_ends_inside (ends_inside_of_even hsingle)
          have hwall : Wall '\'' := by decide
          have hfilled : filled values ('\'' :: (content ++ '\'' :: rest)) =
              '\'' :: (filled values content ++ '\'' :: filled values rest) :=
            calc filled values ([] ++ '\'' :: (content ++ '\'' :: rest))
                = filled values [] ++ '\'' :: filled values (content ++ '\'' :: rest) :=
                  filled_append_wall hkeys hwall
              _ = _ := by rw [filled_of_nil, filled_append_wall hkeys hwall, List.nil_append]
          have hshort : rest.length < n := by
            rw [List.length_append, List.length_cons] at hlength
            omega
          have hsheltered : Sheltered rest := by
            refine ⟨even_of_ends_inside hrest, fun hmem => hdouble (by simp [hmem]), ?_⟩
            rw [mask_literal hcontent] at hbraces
            exact fun hmem => hbraces (by simp [hmem])
          have hquotable : Quotable content := ⟨hcontent, fun hmem => hdouble (by simp [hmem])⟩
          rw [hfilled]
          exact .literal hquotable (quotable_filled hquotable hvalues) (ih _ hshort hsheltered rfl)
        · rw [mask_cons hquote, List.mem_cons, not_or] at hbraces
          have hsheltered : Sheltered cs := by
            refine ⟨?_, fun hmem => hdouble (List.mem_cons_of_mem _ hmem), hbraces.2⟩
            rwa [List.count_cons_of_ne hquote] at hsingle
          have hfilled : filled values (c :: cs) = c :: filled values cs :=
            filled_append_of_no_opening fun hmem => hbraces.1 (List.mem_singleton.mp hmem)
          rw [hfilled]
          exact .outside hquote (ih _ (by omega) hsheltered rfl)

end Ariel.Template
