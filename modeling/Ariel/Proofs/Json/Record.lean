import Mathlib.Data.List.Forall2
import Mathlib.Data.List.Nodup
import Mathlib.Logic.Basic
import Ariel.Json.Record

/-!
# What records say

A form says which JSON values stand for which data. Each decoder has its form: it takes the values
of the form, for the data that they stand for, and no others (`Reads`). A record has one entry for
each of its fields (`Fields`), which a slot turns into data: the value of a field that is given, or
the default of one that is left out (`Slot`).
-/

namespace Ariel.Json

variable {α : Type} {value : Json} {members : List (String × Json)} {name : String}
  {names : List String} {entry : Option Json} {decode : Json → Option α} {default a : α}

/-- Which JSON values stand for which data. -/
abbrev Form (α : Type) := Json → α → Prop

variable {form : Form α}

/-- A decoder takes the values of a form, and no others. -/
structure Reads (decode : Json → Option α) (form : Form α) : Prop where
  iff : ∀ {value a}, decode value = some a ↔ form value a

section Forms

/-- A word for the data, as a string or as the only name of an object without content. -/
inductive Chosen (choice : String → Option α) : Form α
  | word {word : String} {a : α} (h : choice word = some a) : Chosen choice (.string word) a
  | member {word : String} {a : α} (h : choice word = some a) :
      Chosen choice (.object [(word, .null)]) a

/-- A value of a form, or null for missing data. -/
inductive OrNull (form : Form α) : Form (Option α)
  | null : OrNull form .null none
  | value {value : Json} {a : α} (h : form value a) : OrNull form value (some a)

/-- The value that is written for the data. -/
def Encoded (encode : α → Json) : Form α := fun value a => value = encode a

theorem encoded (encode : α → Json) (a : α) : Encoded encode (encode a) a := rfl

/-- Data that may be missing is written in a form of it, or as null. -/
theorem or_null_of_encoded {encode : α → Json} (h : ∀ a, form (encode a) a) (found : Option α) :
    OrNull form (.orNull encode found) found := by
  cases found with
  | none => exact .null
  | some a => exact .value (h a)

theorem reads_text : Reads text? (Encoded .string) where
  iff := by
    intro value text
    cases value <;> simp [text?, Encoded]

theorem reads_word32 : Reads word32? (Encoded fun n => .nat n.toNat) where
  iff := by
    intro value n
    constructor
    · intro h
      obtain ⟨amount, hamount, rfl⟩ := Option.map_eq_some_iff.mp h
      cases value with
      | integer number =>
          cases number with
          | ofNat m =>
              obtain ⟨hbelow, hsame⟩ := Option.ite_none_right_eq_some.mp hamount
              obtain rfl := Option.some.inj hsame
              show Json.integer m = .integer (UInt32.ofNat m).toNat
              rw [UInt32.toNat_ofNat_of_lt' hbelow]
          | negSucc m => cases hamount
      | _ => cases hamount
    · rintro rfl
      show (if n.toNat < UInt32.size then some n.toNat else none).map UInt32.ofNat = some n
      rw [if_pos n.toNat_lt_size, Option.map_some, UInt32.ofNat_toNat]

theorem reads_word (choice : String → Option α) : Reads (word? choice) (Chosen choice) where
  iff := by
    intro value a
    constructor
    · intro h
      unfold word? at h
      split at h
      · exact .word h
      · exact .member h
      · cases h
    · rintro (h | h)
      · exact h
      · exact h

/-- What may be null is not null for data of its own. -/
theorem Reads.nullable (h : Reads decode form) (hnull : ∀ a, ¬ form .null a) :
    Reads (nullable? decode) (OrNull form) where
  iff := by
    intro value found
    constructor
    · intro hread
      unfold nullable? at hread
      split at hread
      · obtain rfl := Option.some.inj hread
        exact .null
      · obtain ⟨a, ha, rfl⟩ := Option.map_eq_some_iff.mp hread
        exact .value (h.iff.mp ha)
    · rintro (_ | hform)
      · rfl
      · unfold nullable?
        split
        · exact absurd hform (hnull _)
        · rw [h.iff.mpr hform]
          rfl

end Forms

section Lists

/-- Steps that all succeed give the list of their results, and no other. -/
theorem map_m_eq_some_iff {β γ : Type} {f : β → Option γ} {bs : List β} {cs : List γ} :
    bs.mapM f = some cs ↔ List.Forall₂ (fun b c => f b = some c) bs cs := by
  induction bs generalizing cs with
  | nil => simp [eq_comm]
  | cons b bs ih =>
      simp only [List.mapM_cons, bind, Option.bind_eq_some_iff, pure, Option.some.injEq, ih]
      constructor
      · rintro ⟨c, hc, cs, hcs, rfl⟩
        exact .cons hc hcs
      · rintro (_ | ⟨hc, hcs⟩)
        exact ⟨_, hc, _, hcs, rfl⟩

theorem reads_texts : Reads texts? (Encoded .strings) where
  iff := by
    intro value items
    cases value with
    | array values =>
        simp only [texts?, Encoded, strings, map_m_eq_some_iff, reads_text.iff, Json.array.injEq]
        rw [← List.forall₂_map_right_iff, List.forall₂_eq_eq_eq]
    | _ => simp [texts?, Encoded, strings]

end Lists

section Records

/-- The entry of a record for a name: a member of that name, or none. No name stands twice. -/
inductive Entry (members : List (String × Json)) (name : String) : Option Json → Prop
  | given {value : Json} (h : members.filter (·.1 == name) = [(name, value)]) :
      Entry members name (some value)
  | omitted (h : ∀ member ∈ members, member.1 ≠ name) : Entry members name none

/-- The entries of a record for its names: those of an object, in which other members are passed
over, or the items of an array, of which the last ones may be left out. -/
inductive Fields (names : List String) : Json → List (Option Json) → Prop
  | object {members : List (String × Json)} {entries : List (Option Json)}
      (h : List.Forall₂ (Entry members) names entries) : Fields names (.object members) entries
  | array {items : List Json} (h : items.length ≤ names.length) :
      Fields names (.array items)
        (items.map some ++ List.replicate (names.length - items.length) none)

/-- The data of an entry: what its value stands for, or the default when it is left out. -/
inductive Slot (form : Form α) (default : α) : Option Json → α → Prop
  | given {value : Json} {a : α} (h : form value a) : Slot form default (some value) a
  | omitted : Slot form default none default

theorem field_eq_some_iff : field? name members = some entry ↔ Entry members name entry := by
  have hnames : ∀ found ∈ members.filter (·.1 == name), found.1 = name := by
    intro found hfound
    simpa using (List.mem_filter.mp hfound).2
  constructor
  · intro h
    unfold field? at h
    split at h
    · rename_i hnone
      obtain rfl := Option.some.inj h
      refine .omitted fun found hfound hname => ?_
      simpa using List.filter_eq_nil_iff.mp hnone found hfound (by simpa using hname)
    · rename_i found value hone
      obtain rfl := Option.some.inj h
      obtain rfl : found = name := hnames (found, value) (by rw [hone]; exact List.mem_cons_self)
      exact .given hone
    · cases h
  · rintro (hone | hnone)
    · simp only [field?, hone]
    · have hnil : members.filter (·.1 == name) = [] :=
        List.filter_eq_nil_iff.mpr fun found hfound => by simpa using hnone found hfound
      simp only [field?, hnil]

theorem record_eq_some_iff {entries : List (Option Json)} :
    record? names value = some entries ↔ Fields names value entries := by
  cases value with
  | object members =>
      simp only [record?, map_m_eq_some_iff, field_eq_some_iff]
      exact ⟨.object, fun h => by cases h; assumption⟩
  | array items =>
      simp only [record?, Option.ite_none_right_eq_some, Option.some.injEq]
      constructor
      · rintro ⟨hlength, rfl⟩
        exact .array hlength
      · intro h
        cases h with
        | array hlength => exact ⟨hlength, rfl⟩
  | null => exact ⟨nofun, nofun⟩
  | bool => exact ⟨nofun, nofun⟩
  | integer => exact ⟨nofun, nofun⟩
  | real => exact ⟨nofun, nofun⟩
  | string => exact ⟨nofun, nofun⟩

/-- The members of an object with different names are its entries for these names. -/
theorem fields_of_members {entries : List (Option Json)} (hnames : members.map Prod.fst = names)
    (hvalues : members.map (fun member => some member.2) = entries) (h : names.Nodup) :
    Fields names (.object members) entries := by
  subst hnames hvalues
  have hentries : ∀ member ∈ members, Entry members member.1 (some member.2) := by
    intro member hmember
    have hone : (members.filter (·.1 == member.1)).length = 1 := by
      rw [← List.countP_eq_length_filter]
      have hcount := List.count_eq_one_of_mem h (List.mem_map_of_mem hmember)
      rwa [List.count, List.countP_map] at hcount
    obtain ⟨found, hfound⟩ := List.length_eq_one_iff.mp hone
    have hmem : member ∈ members.filter (·.1 == member.1) := by
      simpa using hmember
    rw [hfound, List.mem_singleton] at hmem
    exact .given (hmem ▸ hfound)
  refine .object ?_
  rw [List.forall₂_map_left_iff, List.forall₂_map_right_iff, List.forall₂_same]
  exact hentries

theorem Reads.slot (h : Reads decode form) :
    orDefault default decode entry = some a ↔ Slot form default entry a := by
  cases entry with
  | none =>
      simp only [orDefault, Option.some.injEq]
      exact ⟨fun heq => heq ▸ .omitted, fun hslot => by cases hslot; rfl⟩
  | some value =>
      simp only [orDefault, h.iff]
      exact ⟨.given, fun hslot => by cases hslot; assumption⟩

end Records

end Ariel.Json
