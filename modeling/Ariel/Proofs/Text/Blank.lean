import Mathlib.Data.List.DropRight
import Mathlib.Data.List.TakeWhile
import Ariel.Text.Blank

/-!
# Runs and trimming

A run is a longest stretch of characters of one class at the front of a text. Trimming takes a run
of blanks from either end. `trimmed_spec` splits a text into its outer blanks and its trimmed part,
and `trimmed_of_ends` says that a text with sound ends is its own trimmed part.
-/

namespace Ariel.Text

section Run

variable {α : Type*} {p : α → Bool} {run rest cs : List α}

/-- The first character behind a run is not of its class. -/
theorem head_drop_while {c : α} (h : c ∈ (cs.dropWhile p).head?) : p c = false := by
  have hhead := List.head?_dropWhile_not p cs
  rw [Option.mem_def.mp h] at hhead
  simpa using hhead

/-- A run ends where a character of another class stands. -/
theorem take_while_append (hrun : ∀ c ∈ run, p c = true) (hrest : ∀ c ∈ rest.head?, p c = false) :
    (run ++ rest).takeWhile p = run := by
  rw [List.takeWhile_append_of_pos hrun]
  cases rest with
  | nil => simp
  | cons c rest => simp [hrest c (by simp)]

/-- Behind a run stands what does not continue it. -/
theorem drop_while_append (hrun : ∀ c ∈ run, p c = true) (hrest : ∀ c ∈ rest.head?, p c = false) :
    (run ++ rest).dropWhile p = rest := by
  rw [List.dropWhile_append_of_pos hrun]
  cases rest with
  | nil => rfl
  | cons c rest => simp [hrest c (by simp)]

/-- A text begins with a character of the run in front of it. -/
theorem head_of_run {P : α → Prop} (hne : run ≠ []) (hrun : ∀ c ∈ run, P c) :
    ∀ c ∈ (run ++ rest).head?, P c := by
  intro c hc
  rw [List.head?_append_of_ne_nil _ hne] at hc
  exact hrun c (List.mem_of_mem_head? hc)

/-- What stands behind a text does not change how it begins. -/
theorem any_head_append (h : cs.head?.any p = true) : (cs ++ rest).head?.any p = true := by
  cases cs with
  | nil => cases h
  | cons c cs => exact h

/-- What stands in front of a text does not change how it ends. -/
theorem any_last_append (h : cs.getLast?.any p = true) : (rest ++ cs).getLast?.any p = true := by
  rw [List.getLast?_append]
  cases hlast : cs.getLast? with
  | none =>
      rw [hlast] at h
      cases h
  | some c => rwa [hlast] at h

end Run

/-- Dropping blanks removes a run of blanks. -/
theorem drop_blanks_spec (cs : List Char) :
    ∃ gap, cs = gap ++ dropBlanks cs ∧ ∀ c ∈ gap, isBlank c = true :=
  ⟨cs.takeWhile isBlank, List.takeWhile_append_dropWhile.symm,
    fun _ hc => List.mem_takeWhile_imp hc⟩

/-- The first character left is no blank. -/
theorem head_drop_blanks {cs : List Char} {c : Char} (h : c ∈ (dropBlanks cs).head?) :
    isBlank c = false :=
  head_drop_while h

/-- Blanks in front of a text are dropped. -/
theorem drop_blanks_append {gap cs : List Char} (hgap : ∀ c ∈ gap, isBlank c = true) :
    dropBlanks (gap ++ cs) = dropBlanks cs :=
  List.dropWhile_append_of_pos hgap

/-- A text that begins with no blank keeps its beginning. -/
theorem drop_blanks_of_head {cs : List Char} (h : ∀ c ∈ cs.head?, isBlank c = false) :
    dropBlanks cs = cs := by
  have hrun : ∀ c ∈ ([] : List Char), isBlank c = true := by simp
  exact drop_while_append hrun h

/-- What is left after the outer blanks on the right begins where the text begins. -/
theorem drop_last_blanks_spec (cs : List Char) :
    ∃ gap, cs = dropLastBlanks cs ++ gap ∧ ∀ c ∈ gap, isBlank c = true := by
  obtain ⟨gap, hsplit, hgap⟩ := drop_blanks_spec cs.reverse
  refine ⟨gap.reverse, ?_, fun c hc => hgap c (List.mem_reverse.mp hc)⟩
  simpa [dropLastBlanks] using congrArg List.reverse hsplit

/-- The last character left is no blank. -/
theorem last_drop_last_blanks {cs : List Char} {c : Char} (h : c ∈ (dropLastBlanks cs).getLast?) :
    isBlank c = false := by
  rw [dropLastBlanks, List.getLast?_reverse] at h
  exact head_drop_blanks h

/-- The blanks that end a text are dropped. -/
theorem drop_last_blanks_append {cs gap : List Char} (hlast : ∀ c ∈ cs.getLast?, isBlank c = false)
    (hgap : ∀ c ∈ gap, isBlank c = true) : dropLastBlanks (cs ++ gap) = cs := by
  have hrun : ∀ c ∈ gap.reverse, isBlank c = true := fun c hc => hgap c (List.mem_reverse.mp hc)
  have hstop : ∀ c ∈ cs.reverse.head?, isBlank c = false := by simpa using hlast
  rw [dropLastBlanks, List.reverse_append, dropBlanks, drop_while_append hrun hstop,
    List.reverse_reverse]

/-- A text that ends in no blank stays as it is. -/
theorem drop_last_blanks_of_last {cs : List Char} (h : cs.getLast?.any (!isBlank ·) = true) :
    dropLastBlanks cs = cs := by
  have hlast : ∀ c ∈ cs.getLast?, isBlank c = false := by
    intro c hc
    rw [Option.mem_def.mp hc] at h
    simpa using h
  have hdropped : dropLastBlanks (cs ++ []) = cs := drop_last_blanks_append hlast (by simp)
  rwa [List.append_nil] at hdropped

/-- A text is its trimmed part between blanks. -/
theorem trimmed_spec (cs : List Char) :
    ∃ left right, cs = left ++ trimmed cs ++ right ∧ (∀ c ∈ left, isBlank c = true) ∧
      ∀ c ∈ right, isBlank c = true := by
  obtain ⟨left, hleft, hblankLeft⟩ := drop_blanks_spec cs
  obtain ⟨right, hright, hblankRight⟩ := drop_last_blanks_spec (dropBlanks cs)
  refine ⟨left, right, ?_, hblankLeft, hblankRight⟩
  rw [List.append_assoc, trimmed, ← hright, ← hleft]

/-- Trimming brings no characters. -/
theorem mem_of_mem_trimmed {cs : List Char} {c : Char} (h : c ∈ trimmed cs) : c ∈ cs := by
  obtain ⟨left, right, hsplit, -, -⟩ := trimmed_spec cs
  rw [hsplit]
  exact List.mem_append_left right (List.mem_append_right left h)

/-- Trimming takes away blanks only. -/
theorem count_trimmed {mark : Char} (hmark : isBlank mark = false) (cs : List Char) :
    (trimmed cs).count mark = cs.count mark := by
  obtain ⟨left, right, hsplit, hleft, hright⟩ := trimmed_spec cs
  have hblanks : ∀ {gap : List Char}, (∀ c ∈ gap, isBlank c = true) → gap.count mark = 0 := by
    intro gap hgap
    refine List.count_eq_zero.mpr fun hmem => ?_
    rw [hgap mark hmem] at hmark
    cases hmark
  conv_rhs => rw [hsplit]
  rw [List.count_append, List.count_append, hblanks hleft, hblanks hright, Nat.zero_add,
    Nat.add_zero]

/-- The last character of a trimmed text is no blank. -/
theorem last_trimmed {cs : List Char} {c : Char} (h : c ∈ (trimmed cs).getLast?) :
    isBlank c = false :=
  last_drop_last_blanks h

/-- The first character of a trimmed text is no blank. -/
theorem head_trimmed {cs : List Char} {c : Char} (h : c ∈ (trimmed cs).head?) :
    isBlank c = false := by
  obtain ⟨gap, hsplit, -⟩ := drop_last_blanks_spec (dropBlanks cs)
  have hhead : c ∈ (dropBlanks cs).head? := by
    rw [hsplit]
    exact List.mem_head?_append_of_mem_head? h
  exact head_drop_blanks hhead

/-- Blanks around a text with sound ends are trimmed away. -/
theorem trimmed_append {left cs right : List Char} (hleft : ∀ c ∈ left, isBlank c = true)
    (hright : ∀ c ∈ right, isBlank c = true) (hne : cs ≠ [])
    (hhead : ∀ c ∈ cs.head?, isBlank c = false) (hlast : ∀ c ∈ cs.getLast?, isBlank c = false) :
    trimmed (left ++ cs ++ right) = cs := by
  have hfront : ∀ c ∈ (cs ++ right).head?, isBlank c = false := by
    cases cs with
    | nil => exact absurd rfl hne
    | cons c cs => simpa using hhead
  rw [List.append_assoc, trimmed, drop_blanks_append hleft, drop_blanks_of_head hfront,
    drop_last_blanks_append hlast hright]

/-- Trimming keeps a character that is no blank, and takes the blanks at the ends only. -/
theorem trimmed_around {left right : List Char} {c : Char} (hc : isBlank c = false) :
    trimmed (left ++ c :: right) = dropBlanks left ++ c :: dropLastBlanks right := by
  obtain ⟨gap, hleft, hgap⟩ := drop_blanks_spec left
  obtain ⟨gap', hright, hgap'⟩ := drop_last_blanks_spec right
  have hhead : ∀ d ∈ (dropBlanks left ++ c :: dropLastBlanks right).head?, isBlank d = false := by
    intro d hd
    cases hdrop : dropBlanks left with
    | nil =>
        rw [hdrop] at hd
        obtain rfl : c = d := by simpa using hd
        exact hc
    | cons e rest =>
        have hhead : d ∈ (dropBlanks left).head? := by
          rw [hdrop] at hd ⊢
          exact hd
        exact head_drop_blanks hhead
  have hlast :
      ∀ d ∈ (dropBlanks left ++ c :: dropLastBlanks right).getLast?, isBlank d = false := by
    intro d hd
    rw [List.getLast?_append, List.getLast?_cons] at hd
    cases hdrop : (dropLastBlanks right).getLast? with
    | none =>
        rw [hdrop] at hd
        obtain rfl : c = d := by simpa using hd
        exact hc
    | some e =>
        rw [hdrop] at hd
        obtain rfl : e = d := by simpa using hd
        exact last_drop_last_blanks hdrop
  calc
    trimmed (left ++ c :: right)
      = trimmed (gap ++ (dropBlanks left ++ c :: dropLastBlanks right) ++ gap') := by
        conv_lhs => rw [hleft, hright]
        simp
    _ = dropBlanks left ++ c :: dropLastBlanks right :=
        trimmed_append hgap hgap' (by simp) hhead hlast

/-- A text with sound ends is its own trimmed part. -/
theorem trimmed_of_ends {cs : List Char} (hhead : ∀ c ∈ cs.head?, isBlank c = false)
    (hlast : ∀ c ∈ cs.getLast?, isBlank c = false) : trimmed cs = cs := by
  cases cs with
  | nil => rfl
  | cons c cs =>
      have hnone : ∀ c ∈ ([] : List Char), isBlank c = true := by simp
      simpa using trimmed_append hnone hnone (by simp) hhead hlast

/-- A text between two characters that are no blanks is its own trimmed part. -/
theorem trimmed_between (first last : Char) (middle : List Char)
    (hfirst : isBlank first = false) (hlast : isBlank last = false) :
    trimmed (first :: middle ++ [last]) = first :: middle ++ [last] := by
  refine trimmed_of_ends (by simpa using hfirst) ?_
  rw [List.getLast?_append]
  simpa using hlast

/-- Trimming once is enough. -/
@[simp]
theorem trimmed_trimmed (cs : List Char) : trimmed (trimmed cs) = trimmed cs :=
  trimmed_of_ends (fun _ => head_trimmed) (fun _ => last_trimmed)

/-- Nothing is left of a text exactly when it holds blanks only. -/
theorem trimmed_eq_nil_iff {cs : List Char} : trimmed cs = [] ↔ ∀ c ∈ cs, isBlank c = true := by
  constructor
  · intro h
    obtain ⟨left, right, hsplit, hleft, hright⟩ := trimmed_spec cs
    intro c hc
    rw [hsplit, h] at hc
    simp only [List.append_nil, List.mem_append] at hc
    exact hc.elim (hleft c) (hright c)
  · intro h
    have hnone : dropBlanks cs = [] := List.dropWhile_eq_nil_iff.mpr h
    rw [trimmed, hnone]
    rfl

/-- Blanks around a text do not change what it is trimmed to. -/
theorem trimmed_around_blanks {left cs right : List Char} (hleft : ∀ c ∈ left, isBlank c = true)
    (hright : ∀ c ∈ right, isBlank c = true) : trimmed (left ++ cs ++ right) = trimmed cs := by
  by_cases hnone : trimmed cs = []
  · rw [hnone, trimmed_eq_nil_iff]
    rw [trimmed_eq_nil_iff] at hnone
    simp only [List.mem_append]
    rintro c ((hc | hc) | hc)
    · exact hleft c hc
    · exact hnone c hc
    · exact hright c hc
  · obtain ⟨front, tail, hsplit, hfront, htail⟩ := trimmed_spec cs
    have houter : left ++ cs ++ right = (left ++ front) ++ trimmed cs ++ (tail ++ right) := by
      conv_lhs => rw [hsplit]
      simp
    rw [houter]
    exact trimmed_append (List.forall_mem_append.mpr ⟨hleft, hfront⟩)
      (List.forall_mem_append.mpr ⟨htail, hright⟩) hnone (fun _ => head_trimmed)
      fun _ => last_trimmed

/-- A tail of a trimmed text that holds blanks only is empty. -/
theorem blank_tail_of_trimmed {cs front tail : List Char} (h : trimmed cs = front ++ tail)
    (htail : trimmed tail = []) : tail = [] := by
  by_contra hne
  have hlast : (trimmed cs).getLast? = some (tail.getLast hne) := by
    rw [h, List.getLast?_append, List.getLast?_eq_some_getLast hne]
    rfl
  have hblank := trimmed_eq_nil_iff.mp htail _ (List.getLast_mem hne)
  rw [last_trimmed (Option.mem_def.mpr hlast)] at hblank
  exact Bool.noConfusion hblank

/-- The characters of a trimmed text. -/
@[simp]
theorem to_list_trim (s : String) : (trim s).toList = trimmed s.toList :=
  String.toList_ofList

/-- Trimming once is enough. -/
@[simp]
theorem trim_trim (s : String) : trim (trim s) = trim s := by
  simp [trim]

/-- A text holds blanks only exactly when nothing is left of it. -/
theorem all_blank_iff {s : String} : allBlank s = true ↔ trimmed s.toList = [] := by
  rw [trimmed_eq_nil_iff, allBlank, List.all_eq_true]

end Ariel.Text
