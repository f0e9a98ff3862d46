import Ariel.Proofs.Template.Replacement
import Ariel.Proofs.Text.Character
import Ariel.Template.Library

/-!
# Filling in values

A token stands in braces and holds no small letter. So filling a query in works on the holes alone:
what stands between two holes of a library query holds a small letter, and no token can reach from
one hole to the next over it (`filled_written`).
-/

namespace Ariel.Template

open Ariel.Text

variable {cs front back name gap first : List Char} {key : String}
  {values : List (String × String)} {c : Char}

/-- The characters of a text with values filled in. -/
def filled (values : List (String × String)) (cs : List Char) : List Char :=
  values.foldl (fun cs (key, value) => replaceAll (exactly (token key)) value.toList cs) cs

/-- The name that a key stands for. -/
def placeholderName (key : String) : String := upper (trim key)

/-- A name between double braces. -/
def hole (name : List Char) : List Char :=
  "\x7b\x7b".toList ++ (name ++ "\x7d\x7d".toList)

@[simp]
theorem filled_nil (cs : List Char) : filled [] cs = cs := rfl

@[simp]
theorem filled_cons (key value : String) (values : List (String × String)) (cs : List Char) :
    filled ((key, value) :: values) cs =
      filled values (replaceAll (exactly (token key)) value.toList cs) := rfl

/-- Filling in is putting the values in one after the other. -/
theorem to_list_fill (query : String) (values : List (String × String)) :
    (fill query values).toList = filled values query.toList := by
  induction values generalizing query with
  | nil => rfl
  | cons pair values ih =>
      obtain ⟨key, value⟩ := pair
      show (fill (String.ofList (replaceAll _ _ _)) values).toList = _
      rw [ih, String.toList_ofList, filled_cons]

section Tokens

/-- A token is the hole of its name. -/
theorem to_list_token (key : String) : (token key).toList = hole (placeholderName key).toList := by
  simp [token, hole, placeholderName, String.toList_append]

/-- A token ends with a closing brace. -/
theorem last_token (key : String) : (token key).toList.getLast? = some '\x7d' := by
  rw [to_list_token, hole, List.getLast?_append, List.getLast?_append]
  rfl

/-- A token begins with an opening brace. -/
theorem head_token (key : String) : (token key).toList.head? = some '\x7b' := by
  rw [to_list_token, hole]
  rfl

/-- No small letter stands in a token. -/
theorem small_not_mem_token (hsmall : c.isLower = true) : c ∉ (token key).toList := by
  intro hmem
  simp only [to_list_token, hole, placeholderName, upper, capitals, String.toList_ofList,
    List.mem_append, List.mem_map] at hmem
  rcases hmem with hopen | ⟨d, -, hd⟩ | hclose
  · obtain rfl : c = '\x7b' := by simpa using hopen
    exact absurd hsmall (by decide)
  · -- A capital is no small letter.
    have hletter := is_lower_iff.mp hsmall
    have hcapital := to_nat_to_upper d
    rw [hd] at hcapital
    split at hcapital <;> omega
  · obtain rfl : c = '\x7d' := by simpa using hclose
    exact absurd hsmall (by decide)

/-- In a text without closing braces behind another, nothing is filled in. -/
theorem filled_append_of_no_brace (hback : '\x7d' ∉ back) :
    filled values (front ++ back) = filled values front ++ back := by
  induction values generalizing front with
  | nil => rfl
  | cons pair values ih =>
      obtain ⟨key, value⟩ := pair
      have hbrace : '\x7d' ∈ (token key).toList := List.mem_of_getLast? (last_token key)
      rw [filled_cons, filled_cons,
        replace_exactly_append (not_straddles_of_last (last_token key) hback),
        replace_exactly_of_not_mem hbrace hback, ih]

end Tokens

/-- What stands between two holes: no braces, and a small letter. -/
structure Gap (gap : List Char) : Prop where
  opening : '\x7b' ∉ gap
  closing : '\x7d' ∉ gap
  small : ∃ c ∈ gap, c.isLower = true

instance : Decidable (Gap gap) :=
  decidable_of_iff ('\x7b' ∉ gap ∧ '\x7d' ∉ gap ∧ gap.any Char.isLower = true)
    ⟨fun h => ⟨h.1, h.2.1, List.any_eq_true.mp h.2.2⟩,
      fun h => ⟨h.opening, h.closing, List.any_eq_true.mpr h.small⟩⟩

/-- What stands in the place of a hole, and the text behind it up to the next one. -/
structure Slot where
  content : List Char
  gap : List Char
  deriving DecidableEq

/-- A slot with values filled in. -/
def Slot.fill (values : List (String × String)) (slot : Slot) : Slot :=
  { slot with content := filled values slot.content }

/-- The slots in their order, behind the text in front of them. -/
def written (first : List Char) (slots : List Slot) : List Char :=
  first ++ slots.flatMap fun slot => slot.content ++ slot.gap

section Slots

variable {content rest value : List Char} {slots : List Slot}

/-- A token is put in place on both sides of a gap by itself, and the gap stays. -/
theorem replace_token_append_gap (h : Gap gap) :
    replaceAll (exactly (token key)) value (content ++ (gap ++ rest)) =
      replaceAll (exactly (token key)) value content ++
        (gap ++ replaceAll (exactly (token key)) value rest) := by
  have hbrace : '\x7b' ∈ (token key).toList := List.mem_of_mem_head? (head_token key)
  obtain ⟨c, hc, hsmall⟩ := h.small
  obtain ⟨left, right, rfl⟩ := List.append_of_mem hc
  have hopening := h.opening
  have hclosing := h.closing
  simp only [List.mem_append, List.mem_cons, not_or] at hopening hclosing
  -- No token reaches over the small letter.
  have hwall : ¬ Straddles (token key).toList (content ++ (left ++ [c])) (right ++ rest) :=
    not_straddles_of_wall (c := c) (by simp) (small_not_mem_token hsmall)
  have hbehind : ¬ Straddles (token key).toList content (left ++ [c]) :=
    not_straddles_of_last (last_token key) (by simp [hclosing.1, hclosing.2.1])
  have hbefore : ¬ Straddles (token key).toList right rest :=
    not_straddles_of_first (head_token key) hopening.2.2
  have hleft : '\x7b' ∉ left ++ [c] := by simp [hopening.1, hopening.2.1]
  calc replaceAll (exactly (token key)) value (content ++ (left ++ c :: right ++ rest))
      = replaceAll (exactly (token key)) value
          ((content ++ (left ++ [c])) ++ (right ++ rest)) := by simp
    _ = (replaceAll (exactly (token key)) value content ++ (left ++ [c])) ++
          (right ++ replaceAll (exactly (token key)) value rest) := by
        rw [replace_exactly_append hwall, replace_exactly_append hbehind,
          replace_exactly_append hbefore, replace_exactly_of_not_mem hbrace hleft,
          replace_exactly_of_not_mem hbrace hopening.2.2]
    _ = _ := by simp

/-- One value changes the contents of the slots only. -/
theorem filled_singleton_written {value : String} (hfirst : '\x7b' ∉ first)
    (hgaps : ∀ slot ∈ slots, Gap slot.gap) :
    filled [(key, value)] (written first slots) =
      written first (slots.map (Slot.fill [(key, value)])) := by
  have hbrace : '\x7b' ∈ (token key).toList := List.mem_of_mem_head? (head_token key)
  rw [filled_cons, filled_nil, written, written,
    replace_exactly_append (not_straddles_of_first (head_token key) hfirst),
    replace_exactly_of_not_mem hbrace hfirst, List.append_right_inj]
  induction slots with
  | nil => rfl
  | cons slot slots ih =>
      rw [List.forall_mem_cons] at hgaps
      rw [List.flatMap_cons, List.append_assoc, replace_token_append_gap hgaps.1, ih hgaps.2,
        List.map_cons, List.flatMap_cons, List.append_assoc]
      rfl

/-- Values are filled in slot by slot. -/
theorem filled_written (hfirst : '\x7b' ∉ first) (hgaps : ∀ slot ∈ slots, Gap slot.gap) :
    filled values (written first slots) = written first (slots.map (Slot.fill values)) := by
  induction values generalizing slots with
  | nil =>
      have hkept : slots.map (Slot.fill []) = slots := List.map_id _
      rw [hkept, filled_nil]
  | cons pair values ih =>
      obtain ⟨key, value⟩ := pair
      have hgaps' : ∀ slot ∈ slots.map (Slot.fill [(key, value)]), Gap slot.gap := by
        intro slot hslot
        obtain ⟨given, hgiven, rfl⟩ := List.mem_map.mp hslot
        exact hgaps given hgiven
      calc filled ((key, value) :: values) (written first slots)
          = filled values (filled [(key, value)] (written first slots)) := rfl
        _ = filled values (written first (slots.map (Slot.fill [(key, value)]))) := by
            rw [filled_singleton_written hfirst hgaps]
        _ = written first ((slots.map (Slot.fill [(key, value)])).map (Slot.fill values)) :=
            ih hgaps'
        _ = written first (slots.map (Slot.fill ((key, value) :: values))) := by
            rw [List.map_map]
            rfl

end Slots

end Ariel.Template
