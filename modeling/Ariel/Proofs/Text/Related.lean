import Mathlib.Data.List.Forall2
import Mathlib.Data.Option.Basic

/-!
# Results that are related

What may fail, read from two texts, is related when it fails on both, or on neither and the two
results are. Steps that keep results related are put together with `rel_bind`, guards with
`rel_guard`, and choices with `rel_or` and `rel_find_some`.
-/

namespace Ariel.Text

variable {α β γ δ : Type} {R : α → β → Prop} {S : γ → δ → Prop}

theorem rel_of_eq {x y : Option α} (h : x = y) : Option.Rel Eq x y := by
  subst h
  cases x with
  | none => exact .none
  | some a => exact .some rfl

theorem eq_of_rel {x y : Option α} (h : Option.Rel Eq x y) : x = y := by
  cases h with
  | none => rfl
  | some hab => rw [hab]

/-- Results are related when what the one gives is given by the other, and nothing else is. -/
theorem rel_of_forall {x : Option α} {y : Option β} (hx : ∀ a, x = some a → ∃ b, y = some b ∧ R a b)
    (hy : ∀ b, y = some b → x.isSome = true) : Option.Rel R x y := by
  cases x with
  | some a =>
      obtain ⟨b, rfl, hab⟩ := hx a rfl
      exact .some hab
  | none =>
      cases y with
      | none => exact .none
      | some b => cases hy b rfl

theorem rel_imp {T : α → β → Prop} {x : Option α} {y : Option β} (h : Option.Rel R x y)
    (himp : ∀ {a b}, R a b → T a b) : Option.Rel T x y := by
  cases h with
  | none => exact .none
  | some hab => exact .some (himp hab)

theorem rel_bind {x : Option α} {y : Option β} {f : α → Option γ} {g : β → Option δ}
    (h : Option.Rel R x y) (hfg : ∀ {a b}, R a b → Option.Rel S (f a) (g b)) :
    Option.Rel S (x >>= f) (y >>= g) := by
  cases h with
  | none => exact .none
  | some hab => exact hfg hab

/-- A step that is guarded in the same way is taken in both or in neither. -/
theorem rel_guard {b c : Bool} {x : Option γ} {y : Option δ} (h : b = c) (hxy : Option.Rel S x y) :
    Option.Rel S (do guard b; x) (do guard c; y) := by
  subst h
  cases b with
  | false => exact .none
  | true => exact hxy

theorem rel_or {x x' : Option α} {y y' : Option β} (h : Option.Rel R x y)
    (h' : Option.Rel R x' y') : Option.Rel R (x.or x') (y.or y') := by
  cases h with
  | none => exact h'
  | some hab => exact .some hab

theorem rel_map {x : Option α} {y : Option β} {f : α → γ} {g : β → δ} (h : Option.Rel R x y)
    (hfg : ∀ {a b}, R a b → S (f a) (g b)) : Option.Rel S (x.map f) (y.map g) := by
  cases h with
  | none => exact .none
  | some hab => exact .some (hfg hab)

theorem rel_find_some {ι : Type} {items : List ι} {f : ι → Option α} {g : ι → Option β}
    (h : ∀ i ∈ items, Option.Rel R (f i) (g i)) :
    Option.Rel R (items.findSome? f) (items.findSome? g) := by
  induction items with
  | nil => exact .none
  | cons i items ih =>
      have hcons : ∀ {κ : Type} (k : ι → Option κ),
          (i :: items).findSome? k = (k i).or (items.findSome? k) := fun k => by
        rw [List.findSome?_cons]
        cases k i <;> rfl
      rw [List.forall_mem_cons] at h
      rw [hcons, hcons]
      exact rel_or h.1 (ih h.2)

/-- Results that are related are both nothing, or both something. -/
theorem rel_cases {x : Option α} {y : Option β} (h : Option.Rel R x y) :
    (x = none ∧ y = none) ∨ ∃ a b, x = some a ∧ y = some b ∧ R a b := by
  cases h with
  | none => exact .inl ⟨rfl, rfl⟩
  | some hab => exact .inr ⟨_, _, rfl, rfl, hab⟩

theorem is_some_eq_of_rel {x : Option α} {y : Option β} (h : Option.Rel R x y) :
    x.isSome = y.isSome := by
  cases h <;> rfl

theorem any_eq_of_rel {x : Option α} {y : Option β} {p : α → Bool} {q : β → Bool}
    (h : Option.Rel R x y) (hpq : ∀ {a b}, R a b → p a = q b) : x.any p = y.any q := by
  cases h with
  | none => rfl
  | some hab => exact hpq hab

theorem filter_map_eq {xs : List α} {ys : List β} {f : α → Option γ} {g : β → Option γ}
    (h : List.Forall₂ R xs ys) (hfg : ∀ {a b}, R a b → f a = g b) :
    xs.filterMap f = ys.filterMap g := by
  induction h with
  | nil => rfl
  | cons hab _ ih => rw [List.filterMap_cons, List.filterMap_cons, hfg hab, ih]

theorem is_empty_eq {xs : List α} {ys : List β} (h : List.Forall₂ R xs ys) :
    xs.isEmpty = ys.isEmpty := by
  cases h <;> rfl

/-- Lists that correspond one by one have first members that do, or none. -/
theorem rel_head {xs : List α} {ys : List β} (h : List.Forall₂ R xs ys) :
    Option.Rel R xs.head? ys.head? := by
  cases h with
  | nil => exact .none
  | cons hab _ => exact .some hab

end Ariel.Text
