import Ariel.Proofs.Text.Blank
import Ariel.Query.Window

/-!
# Sound windows

`Sound` says what `Window.check` looks for: a positive amount, or bounds that are datetimes. It does
not depend on the blanks around the bounds (`sound_normal`), and `between` makes exactly the sound
windows with trimmed bounds (`between_eq_ok_iff`).
-/

namespace Ariel.Query.Window

open Ariel.Text Ariel.Calendar

/-- A text is a datetime, its outer blanks apart. -/
def IsDatetime (cs : List Char) : Prop :=
  (datetime? (trimmed cs)).isSome = true

/-- What makes a window sound. -/
def Sound : Window → Prop
  | .unbounded => True
  | .relative amount _ => amount ≠ 0
  | .absolute start stop =>
      IsDatetime start.toList ∧ ∀ s ∈ bound? stop, IsDatetime s.toList

/-- Blanks around a datetime do not matter. -/
@[simp]
theorem is_datetime_trimmed {cs : List Char} : IsDatetime (trimmed cs) ↔ IsDatetime cs := by
  rw [IsDatetime, trimmed_trimmed, IsDatetime]

/-- Blanks alone are no datetime. -/
theorem IsDatetime.ne_nil {cs : List Char} (h : IsDatetime cs) : trimmed cs ≠ [] := by
  intro hnil
  rw [IsDatetime, hnil] at h
  exact absurd h (by decide)

/-- A missing stop is no bound. -/
@[simp]
theorem bound_none : bound? none = none := rfl

/-- A blank stop is no bound, and any other is one when it is trimmed. -/
theorem bound_some (s : String) :
    bound? (some s) = if trimmed s.toList = [] then none else some (trim s) := by
  have hempty : (trim s).isEmpty = true ↔ trimmed s.toList = [] := by
    rw [String.isEmpty_iff, ← String.toList_inj, to_list_trim, String.toList_empty]
  simp only [bound?, Option.map_some, Option.filter_some]
  split
  next h => rw [if_neg fun hnil => by simp [hempty.mpr hnil] at h]
  next h => rw [if_pos (hempty.mp (by simpa using h))]

/-- A bound is trimmed already. -/
@[simp]
theorem bound_bound (stop : Option String) : bound? (bound? stop) = bound? stop := by
  cases stop with
  | none => rfl
  | some s =>
      rw [bound_some]
      split
      next => rfl
      next h => rw [bound_some, to_list_trim, trimmed_trimmed, if_neg h, trim_trim]

/-- A bound has no outer blanks. -/
theorem trim_of_mem_bound {stop : Option String} {bound : String} (h : bound? stop = some bound) :
    trim bound = bound := by
  cases stop with
  | none => cases h
  | some s =>
      rw [bound_some, Option.ite_none_left_eq_some] at h
      rw [← Option.some.inj h.2, trim_trim]

/-- A bound is checked by reading it as a datetime. -/
theorem check_datetime_eq_ok_iff {s : String} :
    checkDatetime s = .ok () ↔ IsDatetime s.toList := by
  unfold checkDatetime IsDatetime
  rw [to_list_trim]
  split <;> simp_all

/-- A bound that is no datetime fails as a time window. -/
theorem check_datetime_eq_error {s : String} {e : QueryError} (h : checkDatetime s = .error e) :
    ∃ reason, e = .invalidTimeWindow reason := by
  unfold checkDatetime at h
  split at h
  · cases h
  · cases h
    exact ⟨_, rfl⟩

/-- The bounds of an absolute window are checked in turn, a blank start before either. -/
theorem check_absolute (start : String) (stop : Option String) :
    check (.absolute start stop) =
      if allBlank start then .error startRequired
      else checkDatetime start >>= fun _ => (bound? stop).elim (.ok ()) checkDatetime := by
  simp only [check, bind, Except.bind, throw, throwThe, MonadExceptOf.throw, pure, Except.pure]
  split
  · rfl
  · cases hstart : checkDatetime start with
    | error e => simp only
    | ok =>
        cases hstop : bound? stop with
        | none => simp only [Option.elim_none]
        | some s => simp only [Option.elim_some]

/-- The check passes exactly the sound windows. -/
theorem check_eq_ok_iff {w : Window} : w.check = .ok () ↔ w.Sound := by
  cases w with
  | unbounded => simp [check, Sound]
  | relative amount unit =>
      unfold check Sound
      split <;> simp_all
  | absolute start stop =>
      rw [check_absolute, Sound, ← check_datetime_eq_ok_iff]
      split
      next hblank =>
        -- A blank start is no datetime either.
        have hstart : checkDatetime start ≠ .ok () := fun h =>
          (check_datetime_eq_ok_iff.mp h).ne_nil (all_blank_iff.mp hblank)
        simp [hstart]
      next =>
        cases checkDatetime start with
        | error e => simp [bind, Except.bind]
        | ok =>
            cases bound? stop with
            | none => simp [bind, Except.bind]
            | some s => simp [bind, Except.bind, check_datetime_eq_ok_iff]

/-- A window that fails the check fails as a time window. -/
theorem check_eq_error {w : Window} {e : QueryError} (h : w.check = .error e) :
    ∃ reason, e = .invalidTimeWindow reason := by
  cases w with
  | unbounded => cases h
  | relative amount unit =>
      rw [show check (.relative amount unit) = if amount = 0 then .error zeroAmount else .ok ()
        from rfl] at h
      split at h
      · cases h
        exact ⟨_, rfl⟩
      · cases h
  | absolute start stop =>
      rw [check_absolute] at h
      split at h
      next =>
        cases h
        exact ⟨_, rfl⟩
      next =>
        cases hstart : checkDatetime start with
        | error e' =>
            rw [hstart] at h
            cases h
            exact check_datetime_eq_error hstart
        | ok =>
            cases hstop : bound? stop with
            | none => simp [hstart, hstop, bind, Except.bind] at h
            | some s =>
                simp only [hstart, hstop, bind, Except.bind, Option.elim_some] at h
                exact check_datetime_eq_error h

/-- Trimming the bounds of a window does not change whether it is sound. -/
@[simp]
theorem sound_normal {w : Window} : w.normal.Sound ↔ w.Sound := by
  cases w <;> simp [normal, Sound]

/-- The window between two datetimes is the trimmed one, when that is sound. -/
theorem between_eq_ok_iff {start : String} {stop : Option String} {w : Window} :
    between start stop = .ok w ↔
      w = (absolute start stop).normal ∧ (absolute start stop).Sound := by
  rw [← sound_normal, ← check_eq_ok_iff]
  simp only [between, normal, bind, Except.bind]
  split
  next hcheck => simp [hcheck]
  next hcheck => simp [hcheck, pure, Except.pure, eq_comm]

/-- Where there is no window between two texts, the error is about time windows. -/
theorem between_eq_error {start : String} {stop : Option String} {e : QueryError}
    (h : between start stop = .error e) : ∃ reason, e = .invalidTimeWindow reason := by
  simp only [between, bind, Except.bind] at h
  split at h
  next hcheck =>
    cases h
    exact check_eq_error hcheck
  next => cases h

end Ariel.Query.Window
