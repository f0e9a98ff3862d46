import Ariel.Proofs.Text.Character
import Ariel.Text.Numeral
import Mathlib.Data.List.Forall2

/-!
# Texts that are alike

Two texts are alike when each character of the one may stand for that of the other. A `Likeness`
says which may: characters that are the same up to letter case, and blanks where a line is wrapped.
A function of characters that is `Blind` to both takes the same values on texts that are alike, and
a reader takes as much from the one as from the other, or nothing from both.
-/

namespace Ariel.Text

/-- Which characters may stand for each other. Those that are the same differ in letter case at
most, and a blank may be wrapped to another one of its size. -/
structure Likeness where
  same : Char → Char → Prop
  wrapped : Char → Char → Prop
  same_refl : ∀ c, same c c
  to_upper_eq : ∀ {c d}, same c d → c.toUpper = d.toUpper
  blank_left : ∀ {c d}, wrapped c d → isBlank c = true
  blank_right : ∀ {c d}, wrapped c d → isBlank d = true
  size_eq : ∀ {c d}, wrapped c d → c.utf8Size = d.utf8Size

namespace Likeness

/-- One character may stand for another. -/
def like (l : Likeness) (c d : Char) : Prop :=
  l.same c d ∨ l.wrapped c d

/-- Texts of which each character may stand for that of the other. -/
abbrev Alike (l : Likeness) : List Char → List Char → Prop :=
  List.Forall₂ l.like

/-- Texts that are the same, character by character. -/
abbrev Same (l : Likeness) : List Char → List Char → Prop :=
  List.Forall₂ l.same

end Likeness

/-- A function of characters that sees neither letter case nor which blank of a size it is given. -/
structure Blind {α : Type} (f : Char → α) : Prop where
  to_upper : ∀ c, f c.toUpper = f c
  blank : ∀ {c d}, isBlank c = true → isBlank d = true → c.utf8Size = d.utf8Size → f c = f d

section Blind

variable {α β γ : Type} {f : Char → α} {g : Char → β} {p : Char → Bool}

theorem Blind.comp (h : Blind f) (k : α → β) : Blind fun c => k (f c) where
  to_upper c := congrArg k (h.to_upper c)
  blank hc hd hsize := congrArg k (h.blank hc hd hsize)

theorem Blind.pair (hf : Blind f) (hg : Blind g) (k : α → β → γ) :
    Blind fun c => k (f c) (g c) where
  to_upper c := by rw [hf.to_upper, hg.to_upper]
  blank hc hd hsize := by rw [hf.blank hc hd hsize, hg.blank hc hd hsize]

/-- What sees no letter case of letters sees none at all. -/
theorem blind_of_alpha (halpha : ∀ c : Char, c.isAlpha = true → f c.toUpper = f c)
    (hblank : ∀ {c d}, isBlank c = true → isBlank d = true → c.utf8Size = d.utf8Size →
      f c = f d) : Blind f where
  to_upper c := by
    cases h : c.isAlpha with
    | false => rw [to_upper_of_not_alpha h]
    | true => exact halpha c h
  blank := hblank

/-- A class of characters that holds no blank, and a letter in both cases or in neither. -/
theorem blind_of_filled (halpha : ∀ c : Char, c.isAlpha = true → p c.toUpper = p c)
    (hfilled : ∀ c, p c = true → isBlank c = false) : Blind p := by
  have hout : ∀ {c : Char}, isBlank c = true → p c = false := fun {c} hc =>
    Bool.eq_false_iff.mpr fun hp => by
      rw [hfilled c hp] at hc
      cases hc
  exact blind_of_alpha halpha fun hc hd _ => by rw [hout hc, hout hd]

/-- A class of characters that holds neither blanks nor letters. -/
theorem blind_of_marks (h : ∀ c, p c = true → isBlank c = false ∧ c.isAlpha = false) : Blind p := by
  have hout : ∀ c : Char, c.isAlpha = true → p c = false := fun c hc =>
    Bool.eq_false_iff.mpr fun hp => by
      rw [(h c hp).2] at hc
      cases hc
  refine blind_of_filled (fun c hc => ?_) fun c hc => (h c hc).1
  rw [hout c hc, hout c.toUpper (by rw [is_alpha_to_upper, hc])]

/-- A mark that is neither a blank nor a letter is told apart from all else. -/
theorem blind_mark {mark : Char} (hblank : isBlank mark = false) (halpha : mark.isAlpha = false) :
    Blind (· == mark) :=
  blind_of_marks fun c hc => by
    rw [eq_of_beq hc]
    exact ⟨hblank, halpha⟩

theorem blind_is_alpha : Blind Char.isAlpha :=
  blind_of_filled (fun c _ => is_alpha_to_upper c) fun _ => is_blank_of_alpha

theorem blind_is_word_character : Blind isWordCharacter :=
  blind_of_filled
    (fun c hc => by
      have hcapital : c.toUpper.isAlpha = true := by rw [is_alpha_to_upper, hc]
      rw [is_word_character_of_alpha hc, is_word_character_of_alpha hcapital])
    fun _ => is_blank_of_word_character

theorem blind_is_digit : Blind Char.isDigit :=
  blind_of_marks fun _ hc => ⟨is_blank_of_digit hc, is_alpha_of_digit hc⟩

theorem blind_is_decimal_digit : Blind isDecimalDigit :=
  blind_of_marks fun _ hc => ⟨is_blank_of_decimal_digit hc, is_alpha_of_decimal_digit hc⟩

theorem blind_is_blank : Blind isBlank :=
  blind_of_alpha
    (fun c hc => by rw [is_blank_of_alpha hc, is_blank_of_alpha (by rw [is_alpha_to_upper, hc])])
    fun hc hd _ => by rw [hc, hd]

/-- A letter in either case is told apart from all else. -/
theorem blind_capital {letter : Char} (h : isBlank letter = false) :
    Blind fun c => c.toUpper == letter :=
  blind_of_filled (fun c _ => by rw [to_upper_to_upper]) fun c hc => by
    rw [← blind_is_blank.to_upper, eq_of_beq hc, h]

theorem blind_utf8_size : Blind Char.utf8Size :=
  blind_of_alpha
    (fun c hc => by rw [utf8_size_of_alpha hc, utf8_size_of_alpha (by rw [is_alpha_to_upper, hc])])
    fun _ _ hsize => hsize

/-- A letter in any case is recognised in either case. -/
theorem blind_is_letter {letter : Char} (h : isBlank letter = false) : Blind (isLetter letter) :=
  blind_of_filled
    (fun c hc => by
      rw [is_letter_of_alpha hc, is_letter_of_alpha (by rw [is_alpha_to_upper, hc]),
        to_upper_to_upper])
    fun _ => is_blank_of_letter h

end Blind

/-- A text without blanks. -/
def Filled (cs : List Char) : Prop :=
  ∀ c ∈ cs, isBlank c = false

/-- A text of marks, which are neither blanks nor letters. -/
def Marks (cs : List Char) : Prop :=
  ∀ c ∈ cs, isBlank c = false ∧ c.isAlpha = false

-- The search for instances would decide these by going through all characters.
instance (cs : List Char) : Decidable (Filled cs) :=
  List.decidableBAll _ cs

instance (cs : List Char) : Decidable (Marks cs) :=
  List.decidableBAll _ cs

section Filled

variable {c : Char} {cs ds : List Char}

theorem filled_nil : Filled [] :=
  List.forall_mem_nil _

theorem filled_cons : Filled (c :: cs) ↔ isBlank c = false ∧ Filled cs :=
  List.forall_mem_cons

theorem filled_append : Filled (cs ++ ds) ↔ Filled cs ∧ Filled ds :=
  List.forall_mem_append

/-- A word in any case holds no blank. -/
theorem filled_of_letters {letters word : List Char} (h : Filled letters)
    (hword : List.Forall₂ (fun letter c => isLetter letter c = true) letters word) :
    Filled word := by
  induction hword with
  | nil => exact filled_nil
  | cons hletter _ ih =>
      rw [filled_cons] at h ⊢
      exact ⟨is_blank_of_letter h.1 hletter, ih h.2⟩

/-- A word whose capitals hold no blank holds none. -/
theorem filled_of_capitals (h : Filled (capitals cs)) : Filled cs := by
  intro c hc
  rw [← blind_is_blank.to_upper]
  exact h _ (List.mem_map_of_mem hc)

theorem marks_cons : Marks (c :: cs) ↔ (isBlank c = false ∧ c.isAlpha = false) ∧ Marks cs :=
  List.forall_mem_cons

end Filled

section While

variable {α : Type} {R : α → α → Prop} {xs ys : List α} {p : α → Bool}

theorem rel_take_while (h : List.Forall₂ R xs ys) (hp : ∀ {a b}, R a b → p a = p b) :
    List.Forall₂ R (xs.takeWhile p) (ys.takeWhile p) := by
  induction h with
  | nil => exact .nil
  | cons hab _ ih =>
      rw [List.takeWhile_cons, List.takeWhile_cons, ← hp hab]
      split
      · exact .cons hab ih
      · exact .nil

theorem rel_drop_while (h : List.Forall₂ R xs ys) (hp : ∀ {a b}, R a b → p a = p b) :
    List.Forall₂ R (xs.dropWhile p) (ys.dropWhile p) := by
  induction h with
  | nil => exact .nil
  | cons hab hrest ih =>
      rw [List.dropWhile_cons, List.dropWhile_cons, ← hp hab]
      split
      · exact ih
      · exact .cons hab hrest

end While

namespace Likeness

variable {l : Likeness} {cs ds : List Char} {c d : Char} {α : Type}

/-- What is blind takes the same values where one character stands for the other. -/
theorem like.eq_of_blind {f : Char → α} (h : l.like c d) (hf : Blind f) : f c = f d := by
  rcases h with hsame | hwrapped
  · rw [← hf.to_upper c, l.to_upper_eq hsame, hf.to_upper]
  · exact hf.blank (l.blank_left hwrapped) (l.blank_right hwrapped) (l.size_eq hwrapped)

/-- A mark that is neither a blank nor a letter stands for itself only. -/
theorem like.mark_iff {mark : Char} (h : l.like c d) (hblank : isBlank mark = false)
    (halpha : mark.isAlpha = false) : c = mark ↔ d = mark := by
  rw [← beq_iff_eq, h.eq_of_blind (blind_mark hblank halpha), beq_iff_eq]

theorem like_refl (c : Char) : l.like c c :=
  .inl (l.same_refl c)

theorem alike_refl (cs : List Char) : l.Alike cs cs :=
  List.forall₂_same.mpr fun c _ => like_refl c

theorem same_refl_text (cs : List Char) : l.Same cs cs :=
  List.forall₂_same.mpr fun c _ => l.same_refl c

/-- What is blind takes the same values along texts that are alike. -/
theorem map_eq_of_alike {f : Char → α} (h : l.Alike cs ds) (hf : Blind f) :
    cs.map f = ds.map f := by
  induction h with
  | nil => rfl
  | cons hlike _ ih => rw [List.map_cons, List.map_cons, hlike.eq_of_blind hf, ih]

theorem byte_length_eq (h : l.Alike cs ds) : byteLength cs = byteLength ds := by
  induction h with
  | nil => rfl
  | cons hlike _ ih =>
      exact congrArg₂ (fun size bytes => size + bytes) (hlike.eq_of_blind blind_utf8_size) ih

theorem all_eq {p : Char → Bool} (h : l.Alike cs ds) (hp : Blind p) : cs.all p = ds.all p := by
  have := congrArg (List.all · id) (map_eq_of_alike h hp)
  simpa [List.all_map] using this

theorem any_eq {p : Char → Bool} (h : l.Alike cs ds) (hp : Blind p) : cs.any p = ds.any p := by
  have := congrArg (List.any · id) (map_eq_of_alike h hp)
  simpa [List.any_map] using this

theorem alike_take_while {p : Char → Bool} (h : l.Alike cs ds) (hp : Blind p) :
    l.Alike (cs.takeWhile p) (ds.takeWhile p) :=
  rel_take_while h fun hlike => hlike.eq_of_blind hp

theorem alike_drop_while {p : Char → Bool} (h : l.Alike cs ds) (hp : Blind p) :
    l.Alike (cs.dropWhile p) (ds.dropWhile p) :=
  rel_drop_while h fun hlike => hlike.eq_of_blind hp

/-- Apart from blanks, texts that are alike are the same. -/
theorem same_of_alike (h : l.Alike cs ds) (hfilled : Filled cs) :
    l.Same cs ds := by
  induction h with
  | nil => exact .nil
  | cons hlike _ ih =>
      rw [filled_cons] at hfilled
      rcases hlike with hsame | hwrapped
      · exact .cons hsame (ih hfilled.2)
      · rw [l.blank_left hwrapped] at hfilled
        cases hfilled.1

theorem alike_of_same (h : l.Same cs ds) : l.Alike cs ds :=
  h.imp fun _ _ => .inl

/-- Texts that are the same have the same capitals. -/
theorem capitals_eq (h : l.Same cs ds) : capitals cs = capitals ds := by
  induction h with
  | nil => rfl
  | cons hsame _ ih => exact congrArg₂ List.cons (l.to_upper_eq hsame) ih

/-- What is blind to marks finds a mark in both of two texts that are alike, or in neither. -/
theorem contains_eq (mark : Char) (h : l.Alike cs ds) (hblank : isBlank mark = false)
    (halpha : mark.isAlpha = false) : cs.contains mark = ds.contains mark := by
  have hmark : ∀ text : List Char, text.contains mark = text.any (· == mark) := fun text => by
    rw [List.contains_eq_any_beq]
    exact congrArg text.any (funext fun c => BEq.comm)
  rw [hmark, hmark, any_eq h (blind_mark hblank halpha)]

/-- Texts that are the same up to blanks in front of letters: where a line is wrapped, a word comes
next. -/
inductive Wraps (l : Likeness) : List Char → List Char → Prop where
  | nil : Wraps l [] []
  | same {c d : Char} {cs ds : List Char} : l.same c d → Wraps l cs ds → Wraps l (c :: cs) (d :: ds)
  | wrap {c d : Char} {cs ds : List Char} : l.wrapped c d →
      cs.head?.any Char.isAlpha = true → Wraps l cs ds → Wraps l (c :: cs) (d :: ds)

section Wraps

variable {front rest : List Char}

theorem Wraps.alike (h : l.Wraps cs ds) : l.Alike cs ds := by
  induction h with
  | nil => exact .nil
  | same hsame _ ih => exact .cons (.inl hsame) ih
  | wrap hwrapped _ _ ih => exact .cons (.inr hwrapped) ih

theorem Wraps.tail (h : l.Wraps (c :: cs) (d :: ds)) : l.Wraps cs ds := by
  cases h with
  | same _ hrest => exact hrest
  | wrap _ _ hrest => exact hrest

/-- Behind a common beginning, too, a text is wrapped. -/
theorem Wraps.append (h : l.Wraps cs ds) (front : List Char) :
    l.Wraps (front ++ cs) (front ++ ds) := by
  induction front with
  | nil => exact h
  | cons c front ih => exact .same (l.same_refl c) ih

/-- A line is not wrapped within a word. -/
theorem Wraps.split_filled (h : l.Wraps (front ++ rest) ds) (hfilled : Filled front) :
    ∃ front' rest', ds = front' ++ rest' ∧ l.Same front front' ∧ l.Wraps rest rest' := by
  induction front generalizing ds with
  | nil => exact ⟨[], ds, rfl, .nil, h⟩
  | cons c front ih =>
      rw [filled_cons] at hfilled
      cases h with
      | @same _ d _ ds hsame htail =>
          obtain ⟨front', rest', rfl, hfront, hrest⟩ := ih htail hfilled.2
          exact ⟨d :: front', rest', rfl, .cons hsame hfront, hrest⟩
      | wrap hwrapped =>
          rw [l.blank_left hwrapped] at hfilled
          cases hfilled.1

/-- A line is not wrapped in front of what is no letter. -/
theorem Wraps.split_gap (h : l.Wraps (front ++ rest) ds) (hgap : ∀ c ∈ front, isBlank c = true)
    (hrest : rest.head?.any Char.isAlpha = false) :
    ∃ front' rest', ds = front' ++ rest' ∧ l.Same front front' ∧ l.Wraps rest rest' := by
  induction front generalizing ds with
  | nil => exact ⟨[], ds, rfl, .nil, h⟩
  | cons c front ih =>
      rw [List.forall_mem_cons] at hgap
      cases h with
      | @same _ d _ ds hsame htail =>
          obtain ⟨front', rest', rfl, hfront, hrest⟩ := ih htail hgap.2
          exact ⟨d :: front', rest', rfl, .cons hsame hfront, hrest⟩
      | wrap _ hletter =>
          -- What comes next is another blank, or what stands behind the gap.
          cases front with
          | nil => cases hrest ▸ hletter
          | cons b front =>
              rw [List.forall_mem_cons] at hgap
              simp [is_alpha_of_blank hgap.2.1] at hletter

end Wraps

end Likeness

end Ariel.Text
