import Ariel.Proofs.Text.Bytes
import Ariel.Proofs.Text.Likeness
import Ariel.Proofs.Text.Related

/-!
# Blanks behind a text

A gap of blanks is put behind a text. What readers take from the front of the text ends with no
blank, so that they take the same from both and leave the gap (`trails_of_taken`). Only those that
look for a run of blanks may run into the gap; then nothing is left of either text, and what is read
next finds nothing (`rel_drop_blanks`, `rel_blanks`).
-/

namespace Ariel.Text

/-- A word has at least one character, and no blank among them. -/
def Word (cs : List Char) : Prop :=
  cs ≠ [] ∧ Filled cs

instance (cs : List Char) : Decidable (Word cs) :=
  inferInstanceAs (Decidable (_ ∧ _))

/-- The second text is the first one with a gap of blanks behind it. -/
structure Trails (gap cs ds : List Char) : Prop where
  blank : ∀ c ∈ gap, isBlank c = true
  split : ds = cs ++ gap

variable {α β : Type} {S : α → β → Prop} {gap cs ds taken rest : List Char}

/-- What ends with no blank and begins the text with the gap begins the text without it. -/
theorem Trails.exists_rest (h : Trails gap cs ds) (hds : ds = taken ++ rest)
    (hlast : ∀ c ∈ taken.getLast?, isBlank c = false) : ∃ rest', cs = taken ++ rest' := by
  rcases List.append_eq_append_iff.mp (h.split.symm.trans hds) with
    ⟨more, rfl, hgap⟩ | ⟨more, rfl, -⟩
  · rcases List.eq_nil_or_concat' more with rfl | ⟨init, c, rfl⟩
    · exact ⟨[], by simp⟩
    · have hblank := h.blank c (by simp [hgap])
      rw [hlast c (by simp)] at hblank
      cases hblank
  · exact ⟨more, rfl⟩

/-- A reader that takes words without blanks takes the same word, and leaves the gap. -/
theorem trails_of_taken {f : List Char → Option (List Char)} {P : List Char → Prop}
    (hf : ∀ {cs rest}, f cs = some rest ↔ ∃ taken, cs = taken ++ rest ∧ P taken)
    (hfilled : ∀ {taken}, P taken → Filled taken) (h : Trails gap cs ds) :
    Option.Rel (Trails gap) (f cs) (f ds) := by
  refine rel_of_forall (fun rest hrest => ?_) fun rest hrest => ?_
  · obtain ⟨taken, rfl, htaken⟩ := hf.mp hrest
    have hds : ds = taken ++ (rest ++ gap) := by rw [h.split, List.append_assoc]
    exact ⟨rest ++ gap, hf.mpr ⟨taken, hds, htaken⟩, h.blank, rfl⟩
  · obtain ⟨taken, hds, htaken⟩ := hf.mp hrest
    have hlast : ∀ c ∈ taken.getLast?, isBlank c = false := fun c hc =>
      hfilled htaken c (List.mem_of_getLast? hc)
    obtain ⟨rest', hcs⟩ := h.exists_rest hds hlast
    rw [hf.mpr ⟨taken, hcs, htaken⟩]
    rfl

/-- A reader that takes words takes none from a text without a word in front. -/
theorem none_of_taken {f : List Char → Option (List Char)} {P : List Char → Prop}
    (hf : ∀ {cs rest}, f cs = some rest ↔ ∃ taken, cs = taken ++ rest ∧ P taken)
    (hword : ∀ {taken}, P taken → Word taken) (hcs : ∀ c ∈ cs.head?, isBlank c = true) :
    f cs = none := by
  refine Option.eq_none_iff_forall_ne_some.mpr fun rest hrest => ?_
  obtain ⟨taken, rfl, htaken⟩ := hf.mp hrest
  obtain ⟨hne, hfilled⟩ := hword htaken
  obtain ⟨c, more, rfl⟩ := List.exists_cons_of_ne_nil hne
  have hblank := hcs c rfl
  rw [hfilled c List.mem_cons_self] at hblank
  cases hblank

theorem word_of_capitals (h : Word (capitals taken)) : Word taken :=
  ⟨fun hnil => h.1 (by rw [hnil]; rfl), filled_of_capitals h.2⟩

theorem word_of_letters {letters : List Char} (h : Word letters)
    (hword : List.Forall₂ (fun letter c => isLetter letter c = true) letters taken) :
    Word taken := by
  refine ⟨?_, filled_of_letters h.2 hword⟩
  rintro rfl
  exact h.1 (List.forall₂_nil_right_iff.mp hword)

section Word

variable {keyword text : String} {letters : List Char}

theorem trails_keyword (hkeyword : Filled keyword.toList) (h : Trails gap cs ds) :
    Option.Rel (Trails gap) (keyword? keyword cs) (keyword? keyword ds) :=
  trails_of_taken keyword_eq_some_iff
    (fun htaken => filled_of_capitals (by rwa [htaken])) h

theorem keyword_eq_none (hkeyword : Word keyword.toList)
    (hcs : ∀ c ∈ cs.head?, isBlank c = true) : keyword? keyword cs = none :=
  none_of_taken keyword_eq_some_iff (fun htaken => word_of_capitals (by rwa [htaken])) hcs

/-- A fixed text is taken as it stands. -/
theorem literal_eq_some_iff_taken :
    literal? text cs = some rest ↔ ∃ taken, cs = taken ++ rest ∧ taken = text.toList := by
  simp [literal_eq_some_iff]

theorem trails_literal (htext : Filled text.toList) (h : Trails gap cs ds) :
    Option.Rel (Trails gap) (literal? text cs) (literal? text ds) :=
  trails_of_taken literal_eq_some_iff_taken (fun htaken => htaken ▸ htext) h

theorem literal_eq_none (htext : Word text.toList) (hcs : ∀ c ∈ cs.head?, isBlank c = true) :
    literal? text cs = none :=
  none_of_taken literal_eq_some_iff_taken (fun htaken => htaken ▸ htext) hcs

/-- A word in any case is taken as it stands. -/
theorem any_case_eq_some_iff_taken : anyCase? letters cs = some rest ↔ ∃ taken, cs = taken ++ rest ∧
    List.Forall₂ (fun letter c => isLetter letter c = true) letters taken := by
  rw [any_case_eq_some_iff]
  exact exists_congr fun _ => and_comm

theorem trails_any_case (hletters : Filled letters) (h : Trails gap cs ds) :
    Option.Rel (Trails gap) (anyCase? letters cs) (anyCase? letters ds) :=
  trails_of_taken any_case_eq_some_iff_taken (filled_of_letters hletters) h

theorem any_case_eq_none (hletters : Word letters) (hcs : ∀ c ∈ cs.head?, isBlank c = true) :
    anyCase? letters cs = none :=
  none_of_taken any_case_eq_some_iff_taken (word_of_letters hletters) hcs

end Word

/-- The last character of a quotation is its closing quote. -/
theorem trails_quoted_text (h : Trails gap cs ds) :
    Option.Rel (fun x y => x.1 = y.1 ∧ Trails gap x.2 y.2) (quotedText? cs) (quotedText? ds) := by
  refine rel_of_forall (fun found hfound => ?_) fun found hfound => ?_
  · obtain ⟨text, rest⟩ := found
    obtain ⟨hcs, htext⟩ := quoted_text_eq_some_iff.mp hfound
    have hds : ds = '\'' :: text ++ '\'' :: (rest ++ gap) := by simp [h.split, hcs]
    exact ⟨_, quoted_text_eq_some_iff.mpr ⟨hds, htext⟩, rfl, h.blank, rfl⟩
  · obtain ⟨text, rest⟩ := found
    obtain ⟨hds, htext⟩ := quoted_text_eq_some_iff.mp hfound
    have hquoted : ds = ('\'' :: text ++ ['\'']) ++ rest := by simp [hds]
    have hlast : ∀ c ∈ ('\'' :: text ++ ['\'']).getLast?, isBlank c = false := by
      intro c hc
      rw [List.getLast?_concat] at hc
      obtain rfl := Option.some.inj hc
      rfl
    obtain ⟨rest', hrest'⟩ := h.exists_rest hquoted hlast
    have hcs : cs = '\'' :: text ++ '\'' :: rest' := by simpa using hrest'
    rw [quoted_text_eq_some_iff.mpr ⟨hcs, htext⟩]
    rfl

/-- A class of characters without blanks does not go on in the gap. -/
theorem Trails.run {p : Char → Bool} (h : Trails gap cs ds) (hp : ∀ {c}, isBlank c = true → p c = false) :
    ds.takeWhile p = cs.takeWhile p ∧ Trails gap (cs.dropWhile p) (ds.dropWhile p) := by
  have hsplit : ds = cs.takeWhile p ++ (cs.dropWhile p ++ gap) := by
    rw [← List.append_assoc, List.takeWhile_append_dropWhile, h.split]
  have hrun : ∀ c ∈ cs.takeWhile p, p c = true := fun _ hc => List.mem_takeWhile_imp hc
  have hstop : ∀ c ∈ (cs.dropWhile p ++ gap).head?, p c = false := by
    intro c hc
    rw [List.head?_append] at hc
    rcases Option.or_eq_some_iff.mp hc with hhead | ⟨-, hhead⟩
    · exact head_drop_while hhead
    · exact hp (h.blank c (List.mem_of_mem_head? hhead))
  rw [hsplit, take_while_append hrun hstop, drop_while_append hrun hstop]
  exact ⟨rfl, h.blank, rfl⟩

/-- A word can end in front of the gap as well as at the end of the text. -/
theorem Trails.ends_word_eq (h : Trails gap cs ds) : endsWord cs = endsWord ds := by
  obtain ⟨hblank, rfl⟩ := h
  cases cs with
  | cons c cs => rfl
  | nil =>
      cases gap with
      | nil => rfl
      | cons c more =>
          have hends : endsWord (c :: more ++ []) = true :=
            ends_word_of_blanks (List.cons_ne_nil c more) hblank
          rw [List.append_nil] at hends
          exact hends.symm

/-- How far a text goes up to one of its tails does not depend on a gap behind both. -/
theorem Trails.bytes_up_to_eq {tail tail' : List Char} (h : Trails gap cs ds)
    (htail : Trails gap tail tail') : bytesUpTo tail cs = bytesUpTo tail' ds := by
  rw [bytesUpTo, bytesUpTo, h.split, htail.split, byte_length_append, byte_length_append,
    Nat.add_sub_add_right]

/-- What stands before a tail does not depend on a gap behind both. -/
theorem Trails.up_to_eq {tail tail' : List Char} (h : Trails gap cs ds)
    (htail : Trails gap tail tail') : upTo tail cs = upTo tail' ds := by
  rw [upTo, upTo, h.split, htail.split, List.length_append, List.length_append,
    Nat.add_sub_add_right, List.take_append_of_le_length (Nat.sub_le _ _)]

/-- A run of blanks ends in the text, or else nothing is left of either text. -/
theorem Trails.drop_blanks (h : Trails gap cs ds) :
    Trails gap (dropBlanks cs) (dropBlanks ds) ∧ dropBlanks cs ≠ [] ∨
      dropBlanks cs = [] ∧ dropBlanks ds = [] := by
  obtain ⟨front, hcs, hfront⟩ := drop_blanks_spec cs
  cases hrest : dropBlanks cs with
  | nil =>
      refine .inr ⟨rfl, List.dropWhile_eq_nil_iff.mpr fun c hc => ?_⟩
      rw [h.split, hcs, hrest, List.append_nil] at hc
      exact (List.mem_append.mp hc).elim (hfront c) (h.blank c)
  | cons c rest =>
      have hc : isBlank c = false := head_drop_blanks (by rw [hrest]; rfl)
      refine .inl ⟨⟨h.blank, ?_⟩, List.cons_ne_nil c rest⟩
      rw [h.split, hcs, hrest, List.append_assoc, drop_blanks_append hfront]
      exact drop_blanks_of_head (by simpa using hc)

/-- What is read behind blanks, and not at the end of a text, is read from both texts. -/
theorem rel_drop_blanks {f : List Char → Option α} {g : List Char → Option β} (hf : f [] = none)
    (hg : g [] = none) (hfg : ∀ {cs ds}, Trails gap cs ds → Option.Rel S (f cs) (g ds))
    (h : Trails gap cs ds) : Option.Rel S (f (dropBlanks cs)) (g (dropBlanks ds)) := by
  rcases h.drop_blanks with ⟨hrest, -⟩ | ⟨hcs, hds⟩
  · exact hfg hrest
  · rw [hcs, hds, hf, hg]
    exact .none

/-- A run of at least one blank ends in the text, or else there is none or nothing is left. -/
theorem Trails.blanks (h : Trails gap cs ds) :
    (∃ rest rest', blanks? cs = some rest ∧ blanks? ds = some rest' ∧ Trails gap rest rest' ∧
        rest ≠ []) ∨
      (blanks? cs = none ∨ blanks? cs = some []) ∧ (blanks? ds = none ∨ blanks? ds = some []) := by
  obtain ⟨hblank, rfl⟩ := h
  cases cs with
  | nil =>
      cases gap with
      | nil => exact .inr ⟨.inl rfl, .inl rfl⟩
      | cons c more =>
          rw [List.forall_mem_cons] at hblank
          have hmore : dropBlanks more = [] := List.dropWhile_eq_nil_iff.mpr hblank.2
          refine .inr ⟨.inl rfl, .inr ?_⟩
          rw [List.nil_append, blanks?, if_pos hblank.1, hmore]
  | cons c cs =>
      have hrest : Trails gap cs (cs ++ gap) := ⟨hblank, rfl⟩
      rw [List.cons_append, blanks?, blanks?]
      split
      · rcases hrest.drop_blanks with ⟨hrest, hne⟩ | ⟨hcs, hds⟩
        · exact .inl ⟨_, _, rfl, rfl, hrest, hne⟩
        · rw [hcs, hds]
          exact .inr ⟨.inr rfl, .inr rfl⟩
      · exact .inr ⟨.inl rfl, .inl rfl⟩

/-- What is read behind at least one blank, and not at the end of a text, is read from both
texts. -/
theorem rel_blanks {f : List Char → Option α} {g : List Char → Option β} (hf : f [] = none)
    (hg : g [] = none) (hfg : ∀ {cs ds}, Trails gap cs ds → Option.Rel S (f cs) (g ds))
    (h : Trails gap cs ds) : Option.Rel S (blanks? cs >>= f) (blanks? ds >>= g) := by
  rcases h.blanks with ⟨rest, rest', hcs, hds, hrest, -⟩ | ⟨hcs, hds⟩
  · rw [hcs, hds]
    exact hfg hrest
  · have hnone : ∀ {γ : Type} {k : List Char → Option γ} {text : List Char}, k [] = none →
        blanks? text = none ∨ blanks? text = some [] → blanks? text >>= k = none := by
      rintro γ k text hk (htext | htext)
      · rw [htext]
        rfl
      · rw [htext]
        exact hk
    rw [hnone hf hcs, hnone hg hds]
    exact .none

end Ariel.Text
