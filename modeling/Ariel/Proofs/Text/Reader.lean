import Ariel.Proofs.Text.Blank
import Ariel.Text.Letter
import Ariel.Text.Numeral
import Ariel.Text.Pattern
import Mathlib.Data.List.Forall2
import Mathlib.Data.Option.Basic

/-!
# What readers take

A reader takes something from the front of a text and gives what is left. Each statement here is
two-sided: it says which texts a reader takes from, and where it stops.
-/

namespace Ariel.Text

/-- A reader goes on behind a guard exactly when the guard holds. -/
@[simp]
theorem guard_eq_some_iff {p : Prop} [Decidable p] {u : Unit} :
    (guard p : Option Unit) = some u ↔ p := by
  by_cases h : p <;> simp [guard, h]

/-- The capitals of a text are as many as its characters. -/
@[simp]
theorem length_capitals (cs : List Char) : (capitals cs).length = cs.length :=
  List.length_map _

/-- Capitals are taken character by character. -/
@[simp]
theorem capitals_append (cs ds : List Char) :
    capitals (cs ++ ds) = capitals cs ++ capitals ds :=
  List.map_append

/-- A keyword is taken from a text that begins with it in some ASCII letter case. -/
theorem keyword_eq_some_iff {word : String} {cs rest : List Char} :
    keyword? word cs = some rest ↔ ∃ taken, cs = taken ++ rest ∧ capitals taken = word.toList := by
  simp only [keyword?]
  constructor
  · intro h
    split at h
    next hcase =>
      cases h
      exact ⟨_, (List.take_append_drop _ cs).symm, hcase⟩
    next => cases h
  · rintro ⟨taken, rfl, htaken⟩
    have hlength : word.toList.length = taken.length := by rw [← htaken, length_capitals]
    simp [hlength, htaken]

/-- A fixed text is taken from a text that begins with it. -/
theorem literal_eq_some_iff {word : String} {cs rest : List Char} :
    literal? word cs = some rest ↔ cs = word.toList ++ rest := by
  simp only [literal?]
  constructor
  · intro h
    split at h
    next heq =>
      cases h
      calc
        cs = cs.take word.toList.length ++ cs.drop word.toList.length :=
          (List.take_append_drop _ cs).symm
        _ = word.toList ++ cs.drop word.toList.length := by rw [heq]
    next => cases h
  · rintro rfl
    simp

/-- Take a run of at least one character of a class. -/
def run? (p : Char → Bool) : List Char → Option (List Char)
  | [] => none
  | c :: cs => if p c then some (cs.dropWhile p) else none

/-- A run is taken up to the first character that is not of its class. -/
theorem run_eq_some_iff {p : Char → Bool} {cs rest : List Char} :
    run? p cs = some rest ↔ ∃ run, cs = run ++ rest ∧ run ≠ [] ∧
      (∀ c ∈ run, p c = true) ∧ ∀ c ∈ rest.head?, p c = false := by
  constructor
  · intro h
    cases cs with
    | nil => cases h
    | cons c cs =>
        obtain ⟨hc, hrest⟩ := Option.ite_none_right_eq_some.mp h
        cases hrest
        refine ⟨c :: cs.takeWhile p, ?_, by simp, ?_, fun _ => head_drop_while⟩
        · rw [List.cons_append, List.takeWhile_append_dropWhile]
        · intro d hd
          rcases List.mem_cons.mp hd with rfl | hd
          · exact hc
          · exact List.mem_takeWhile_imp hd
  · rintro ⟨run, rfl, hne, hrun, hrest⟩
    cases run with
    | nil => exact absurd rfl hne
    | cons c run =>
        have htail : ∀ d ∈ run, p d = true := fun d hd => hrun d (by simp [hd])
        simp [run?, hrun c (by simp), drop_while_append htail hrest]

/-- Blanks are taken up to the first character that is none. -/
theorem blanks_eq_some_iff {cs rest : List Char} :
    blanks? cs = some rest ↔ ∃ gap, cs = gap ++ rest ∧ gap ≠ [] ∧
      (∀ c ∈ gap, isBlank c = true) ∧ ∀ c ∈ rest.head?, isBlank c = false := by
  rw [show blanks? cs = run? isBlank cs by cases cs <;> rfl]
  exact run_eq_some_iff

/-- Blanks are taken in front of what has none. -/
theorem blanks_append {gap run rest : List Char} (hne : gap ≠ [])
    (hgap : ∀ c ∈ gap, isBlank c = true) (hsome : run ≠ []) (hrun : ∀ c ∈ run, isBlank c = false) :
    blanks? (gap ++ (run ++ rest)) = some (run ++ rest) :=
  blanks_eq_some_iff.mpr ⟨gap, rfl, hne, hgap, head_of_run hsome hrun⟩

/-- A word is taken in any case where each of its letters is recognised. -/
theorem any_case_eq_some_iff {letters cs rest : List Char} : anyCase? letters cs = some rest ↔
    ∃ word, List.Forall₂ (fun letter c => isLetter letter c = true) letters word ∧
      cs = word ++ rest := by
  induction letters generalizing cs with
  | nil => simp [anyCase?]
  | cons letter letters ih =>
      cases cs with
      | nil => simp [anyCase?, List.forall₂_cons_left_iff]
      | cons c cs =>
          simp only [anyCase?, Option.ite_none_right_eq_some, ih]
          constructor
          · rintro ⟨hletter, word, hword, rfl⟩
            exact ⟨c :: word, .cons hletter hword, rfl⟩
          · rintro ⟨_, _ | ⟨hletter, hword⟩, heq⟩
            obtain ⟨rfl, rfl⟩ := List.cons.inj heq
            exact ⟨hletter, _, hword, rfl⟩

/-- A quoted text is taken up to the next quote. -/
theorem quoted_text_eq_some_iff {cs text rest : List Char} :
    quotedText? cs = some (text, rest) ↔
      cs = '\'' :: text ++ '\'' :: rest ∧ '\'' ∉ text := by
  constructor
  · intro h
    unfold quotedText? at h
    split at h
    next cs =>
      split at h
      next => cases h
      next quote rest hdrop =>
        cases h
        have hhead : quote ∈ (cs.dropWhile (· != '\'')).head? := by rw [hdrop]; rfl
        have hquote : (quote != '\'') = false := head_drop_while (p := (· != '\'')) hhead
        obtain rfl : quote = '\'' := by simpa using hquote
        refine ⟨?_, fun hmem => ?_⟩
        · rw [List.cons_append, ← hdrop, List.takeWhile_append_dropWhile]
        · have := List.mem_takeWhile_imp hmem
          simp at this
    next => cases h
  · rintro ⟨rfl, htext⟩
    have hrun : ∀ c ∈ text, (c != '\'') = true := by
      intro c hc
      rw [bne_iff_ne]
      rintro rfl
      exact htext hc
    have hstop : ∀ c ∈ ('\'' :: rest).head?, (c != '\'') = false := by simp
    simp [quotedText?, take_while_append hrun hstop, drop_while_append hrun hstop]

/-- A number in decimal digits has the number as its value. -/
@[simp]
theorem digits_value_decimal (n : Nat) : digitsValue (decimal n).toList = n := by
  rw [decimal, String.toList_ofList]
  exact Nat.ofDigitChars_ten_toDigits

/-- Zeros have no value. -/
theorem digits_value_of_zeros {digits : List Char} (h : ∀ c ∈ digits, c = '0') :
    digitsValue digits = 0 := by
  induction digits with
  | nil => rfl
  | cons c digits ih =>
      obtain rfl : c = '0' := h c (by simp)
      exact ih fun d hd => h d (by simp [hd])

/-- A number is written in ASCII digits. -/
theorem is_digit_of_decimal {n : Nat} {c : Char} (h : c ∈ (decimal n).toList) :
    c.isDigit = true := by
  rw [decimal, String.toList_ofList] at h
  exact Nat.isDigit_of_mem_toDigits (by decide) (by decide) h

/-- A number is written with at least one digit. -/
theorem decimal_ne_nil (n : Nat) : (decimal n).toList ≠ [] := by
  rw [decimal, String.toList_ofList]
  exact Nat.toDigits_ne_nil

/-- A run of ASCII digits is read as its value when that is below the bound. -/
theorem numeral_of_digits {below : Nat} {digits : List Char} (hne : digits ≠ [])
    (hdigits : ∀ c ∈ digits, c.isDigit = true) :
    numeral? below digits =
      if digitsValue digits < below then some (digitsValue digits) else none := by
  cases digits with
  | nil => exact absurd rfl hne
  | cons c cs =>
      have hplus : c ≠ '+' := by
        rintro rfl
        exact absurd (hdigits '+' (by simp)) (by decide)
      have hall : (c :: cs).all Char.isDigit = true := List.all_eq_true.mpr hdigits
      unfold numeral?
      split
      next rest h => exact absurd (List.cons.inj h).1 hplus
      next => simp [hall]

/-- A number below the bound is read from ASCII digits, with or without a plus sign in front. -/
theorem numeral_eq_some_iff {below n : Nat} {cs : List Char} : numeral? below cs = some n ↔
    ∃ digits, (cs = digits ∨ cs = '+' :: digits) ∧ digits ≠ [] ∧
      (∀ c ∈ digits, c.isDigit = true) ∧ digitsValue digits = n ∧ n < below := by
  constructor
  · intro h
    simp only [numeral?, Option.ite_none_left_eq_some, Option.ite_none_right_eq_some,
      Option.some.injEq, Bool.or_eq_true, not_or, Bool.not_eq_true', Bool.not_eq_false,
      List.isEmpty_iff, List.all_eq_true] at h
    obtain ⟨⟨hne, hdigits⟩, hlt, rfl⟩ := h
    refine ⟨_, ?_, hne, hdigits, rfl, hlt⟩
    split
    next => exact .inr rfl
    next => exact .inl rfl
  · rintro ⟨digits, hcs, hne, hdigits, rfl, hlt⟩
    have hread : numeral? below digits = some (digitsValue digits) := by
      rw [numeral_of_digits hne hdigits, if_pos hlt]
    rcases hcs with rfl | rfl
    · exact hread
    · have hall : digits.all Char.isDigit = true := List.all_eq_true.mpr hdigits
      simp [numeral?, hne, hall, hlt]

end Ariel.Text
