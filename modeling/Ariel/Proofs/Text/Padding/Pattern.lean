import Ariel.Proofs.Text.Padding

/-!
# Occurrences in a text with blanks around it

Blanks in front of a text move the occurrences of a pattern by their bytes, and blanks behind it
change nothing: so it is with every pattern that ignores blanks (`follows_occurrences`). What is
made of the occurrences follows the text in the same way.
-/

namespace Ariel.Text

variable {α β : Type} {move : Nat → α → α} {move' : Nat → β → β} {gap cs ds : List Char} {c : Char}

/-- What is made of a text follows it: a blank in front of the text moves it by as many bytes, and
blanks behind the text leave it as it is. -/
structure Follows (move : Nat → α → α) (f : List Char → α) : Prop where
  in_front : ∀ {c}, isBlank c = true → ∀ cs, f (c :: cs) = move c.utf8Size (f cs)
  behind : ∀ {gap cs ds}, Trails gap cs ds → f ds = f cs

/-- What is made of a text stays the same with blanks around it. -/
abbrev Stays (f : List Char → α) : Prop :=
  Follows (fun _ a => a) f

section Follows

variable {f : List Char → α}

theorem Follows.comp {k : α → β} (hf : Follows move f)
    (hk : ∀ n a, k (move n a) = move' n (k a)) : Follows move' fun cs => k (f cs) where
  in_front hc cs := by rw [hf.in_front hc, hk]
  behind h := congrArg k (hf.behind h)

/-- Blanks around a text move what follows it by the bytes of those in front. -/
theorem Follows.around {left right : List Char} (hf : Follows move f)
    (hzero : ∀ a, move 0 a = a) (hadd : ∀ m n a, move m (move n a) = move (m + n) a)
    (hleft : ∀ c ∈ left, isBlank c = true) (hright : ∀ c ∈ right, isBlank c = true)
    (cs : List Char) : f (left ++ cs ++ right) = move (byteLength left) (f cs) := by
  rw [hf.behind ⟨hright, rfl⟩]
  induction left with
  | nil => exact (hzero _).symm
  | cons c left ih =>
      rw [List.forall_mem_cons] at hleft
      rw [List.cons_append, hf.in_front hleft.1, ih hleft.2, hadd, byte_length_cons]

end Follows

/-- Each member of a list that is made of a text follows the text. -/
abbrev EachFollows (move : Nat → α → α) (f : List Char → List α) : Prop :=
  Follows (fun n => List.map (move n)) f

section EachFollows

variable {f g : List Char → List α}

theorem EachFollows.map {k : α → β} (hf : EachFollows move f)
    (hk : ∀ n a, k (move n a) = move' n (k a)) :
    EachFollows move' fun cs => (f cs).map k :=
  hf.comp fun n as => by
    rw [List.map_map, List.map_map]
    exact List.map_congr_left fun a _ => hk n a

theorem EachFollows.filter_map {k : α → Option β} (hf : EachFollows move f)
    (hk : ∀ n a, k (move n a) = (k a).map (move' n)) :
    EachFollows move' fun cs => (f cs).filterMap k :=
  hf.comp fun n as => by
    rw [List.filterMap_map, List.map_filterMap]
    exact List.filterMap_congr fun a _ => hk n a

theorem EachFollows.flat_map {k : α → List β} (hf : EachFollows move f)
    (hk : ∀ n a, k (move n a) = (k a).map (move' n)) :
    EachFollows move' fun cs => (f cs).flatMap k :=
  hf.comp fun n as => by
    rw [List.flatMap_map, List.map_flatMap]
    exact List.flatMap_congr fun a _ => hk n a

/-- Blanks around a text move each member by the bytes of those in front. -/
theorem EachFollows.around {left right : List Char} (hf : EachFollows move f)
    (hzero : ∀ a, move 0 a = a) (hadd : ∀ m n a, move m (move n a) = move (m + n) a)
    (hleft : ∀ c ∈ left, isBlank c = true) (hright : ∀ c ∈ right, isBlank c = true)
    (cs : List Char) : f (left ++ cs ++ right) = (f cs).map (move (byteLength left)) := by
  refine Follows.around hf (fun as => ?_) (fun m n as => ?_) hleft hright cs
  · rw [funext hzero, List.map_id']
  · rw [List.map_map]
    exact List.map_congr_left fun a _ => hadd m n a

theorem EachFollows.append (hf : EachFollows move f) (hg : EachFollows move g) :
    EachFollows move fun cs => f cs ++ g cs where
  in_front hc cs := by rw [hf.in_front hc, hg.in_front hc, List.map_append]
  behind h := by rw [hf.behind h, hg.behind h]

end EachFollows

/-- The occurrence as found behind so many more bytes. -/
def Occurrence.shifted (n : Nat) (found : Occurrence α) : Occurrence α :=
  { found with offset := n + found.offset }

section Match

/-- The same is found in both texts, and what is left of them differs in the gap only. -/
def Leaves (gap : List Char) (x y : α × List Char) : Prop :=
  x.1 = y.1 ∧ Trails gap x.2 y.2

/-- The same is found in both texts, and what is left of them differs in the gap only, or there is
nothing left of either. -/
def Covers (gap : List Char) (x y : α × List Char) : Prop :=
  x.1 = y.1 ∧ (Trails gap x.2 y.2 ∨ x.2 = [] ∧ y.2 = [])

/-- A pattern ignores blanks: it does not hold at one, one before it is as good as nothing, and
those behind the text do not change what is found. -/
structure IgnoresBlanks (p : Pattern α) : Prop where
  at_blank : ∀ {c}, isBlank c = true → ∀ before cs, p before (c :: cs) = none
  behind_blank : ∀ {c}, isBlank c = true → ∀ cs, p (some c) cs = p none cs
  before_gap : ∀ {gap before cs ds}, Trails gap cs ds →
    Option.Rel (Covers gap) (p before cs) (p before ds)

theorem Leaves.covers {x y : α × List Char} (h : Leaves gap x y) : Covers gap x y :=
  ⟨h.1, .inl h.2⟩

theorem covers_of_leaves {x y : Option (α × List Char)} (h : Option.Rel (Leaves gap) x y) :
    Option.Rel (Covers gap) x y :=
  rel_imp h Leaves.covers

end Match

section Occurrences

variable {p : Pattern α}

/-- Occurrences are found at offsets that count from the first one. -/
theorem occurrences_from_add (p : Pattern α) (n : Nat) (before : Option Char)
    (offset skipped : Nat) (cs : List Char) :
    occurrencesFrom p before (n + offset) skipped cs =
      (occurrencesFrom p before offset skipped cs).map (Occurrence.shifted n) := by
  induction cs generalizing before offset skipped with
  | nil => rfl
  | cons c cs ih =>
      cases skipped with
      | succ skipped => rw [occurrencesFrom, occurrencesFrom, Nat.add_assoc, ih]
      | zero =>
          rw [occurrencesFrom, occurrencesFrom, Nat.add_assoc]
          split
          · rw [ih, List.map_cons]
            rfl
          · exact ih ..

/-- Where the whole text is skipped, nothing is found. -/
theorem occurrences_from_of_skipped {before : Option Char} {offset skipped : Nat}
    (h : cs.length ≤ skipped) : occurrencesFrom p before offset skipped cs = [] := by
  induction cs generalizing before offset skipped with
  | nil => rfl
  | cons c cs ih =>
      cases skipped with
      | zero => cases h
      | succ skipped =>
          rw [occurrencesFrom]
          exact ih (Nat.le_of_succ_le_succ h)

/-- Nothing is found in a gap. -/
theorem occurrences_from_of_blank {before : Option Char} {offset skipped : Nat}
    (hp : ∀ {before c gap}, (∀ d ∈ c :: gap, isBlank d = true) → p before (c :: gap) = none)
    (hgap : ∀ c ∈ gap, isBlank c = true) : occurrencesFrom p before offset skipped gap = [] := by
  induction gap generalizing before offset skipped with
  | nil => rfl
  | cons c gap ih =>
      have hrest : ∀ d ∈ gap, isBlank d = true := fun d hd => hgap d (List.mem_cons_of_mem _ hd)
      cases skipped with
      | succ skipped =>
          rw [occurrencesFrom]
          exact ih hrest
      | zero =>
          rw [occurrencesFrom, hp hgap]
          exact ih hrest

/-- A gap behind a text changes nothing about the occurrences of a pattern that does not hold within
the gap. -/
theorem occurrences_from_trails
    (hgap : ∀ {before c gap}, (∀ d ∈ c :: gap, isBlank d = true) → p before (c :: gap) = none)
    (hp : ∀ {before cs ds}, Trails gap cs ds → Option.Rel (Covers gap) (p before cs) (p before ds))
    (h : Trails gap cs ds) (before : Option Char) (offset skipped : Nat) :
    occurrencesFrom p before offset skipped ds = occurrencesFrom p before offset skipped cs := by
  obtain ⟨hblank, rfl⟩ := h
  induction cs generalizing before offset skipped with
  | nil => exact occurrences_from_of_blank hgap hblank
  | cons c cs ih =>
      rw [List.cons_append]
      cases skipped with
      | succ skipped => exact ih _ _ _
      | zero =>
          have hfound : Option.Rel (Covers gap) (p before (c :: cs)) (p before (c :: (cs ++ gap))) :=
            hp ⟨hblank, rfl⟩
          rw [occurrencesFrom, occurrencesFrom]
          rcases rel_cases hfound with ⟨hcs, hds⟩ | ⟨x, y, hcs, hds, hvalue, hrest⟩
          · rw [hcs, hds]
            exact ih _ _ _
          · obtain ⟨value, rest⟩ := x
            obtain ⟨value', rest'⟩ := y
            obtain rfl : value = value' := hvalue
            rw [hcs, hds]
            rcases hrest with hrest | ⟨hrest, hrest'⟩
            · have hlength : (cs ++ gap).length - rest'.length = cs.length - rest.length := by
                obtain rfl : rest' = rest ++ gap := hrest.split
                rw [List.length_append, List.length_append, Nat.add_sub_add_right]
              simp only [hlength, ih]
            · obtain rfl : rest = [] := hrest
              obtain rfl : rest' = [] := hrest'
              simp only [List.length_nil, Nat.sub_zero,
                occurrences_from_of_skipped (Nat.le_refl _)]

/-- The occurrences of a pattern that ignores blanks follow the text. -/
theorem follows_occurrences (hp : IgnoresBlanks p) :
    EachFollows Occurrence.shifted (occurrences p) where
  in_front {c} hc cs := by
    have hfirst : ∀ offset, occurrencesFrom p (some c) offset 0 cs =
        occurrencesFrom p none offset 0 cs := fun offset => by
      cases cs with
      | nil => rfl
      | cons d cs => rw [occurrencesFrom, occurrencesFrom, hp.behind_blank hc]
    rw [occurrences, occurrencesFrom, hp.at_blank hc]
    show occurrencesFrom p (some c) (0 + c.utf8Size) 0 cs = _
    rw [hfirst, Nat.add_comm]
    exact occurrences_from_add ..
  behind h := occurrences_from_trails (fun hblank => hp.at_blank (hblank _ List.mem_cons_self) ..)
    hp.before_gap h ..

theorem follows_first_occurrence (hp : IgnoresBlanks p) :
    Follows (fun n => Option.map (Occurrence.shifted n)) (firstOccurrence? p) :=
  (follows_occurrences hp).comp fun _ _ => List.head?_map

theorem stays_occurs (hp : IgnoresBlanks p) : Stays (occurs p) where
  in_front hc cs := by
    rw [occurs, occurs, (follows_occurrences hp).in_front hc, List.isEmpty_map]
  behind h := by rw [occurs, occurs, (follows_occurrences hp).behind h]

end Occurrences

section Word

variable {keyword first second : String}

/-- A word can begin behind a blank, as it can at the beginning of a text. -/
theorem begins_word_of_blank {c : Char} (h : isBlank c = true) :
    beginsWord (some c) = beginsWord none := by
  simp [beginsWord, is_word_character_of_blank h]

/-- What reads a word, or nothing at a blank, ignores blanks where words begin. -/
theorem ignores_at_word {f : List Char → Option (α × List Char)}
    (hblank : ∀ {c}, isBlank c = true → ∀ cs, f (c :: cs) = none)
    (hf : ∀ {gap cs ds}, Trails gap cs ds → Option.Rel (Covers gap) (f cs) (f ds)) :
    IgnoresBlanks fun before cs => do guard (beginsWord before); f cs where
  at_blank hc before cs := by
    rw [hblank hc]
    cases beginsWord before <;> rfl
  behind_blank hc cs := by rw [begins_word_of_blank hc]
  before_gap h := rel_guard rfl (hf h)

/-- What is read behind a pattern that ignores blanks does so, too. -/
theorem ignores_behind {p : Pattern α} {f : List Char → α × List Char → Option (β × List Char)}
    (hp : IgnoresBlanks p) (hleaves : ∀ {gap before cs ds}, Trails gap cs ds →
      Option.Rel (Leaves gap) (p before cs) (p before ds))
    (hf : ∀ {gap cs ds x y}, Trails gap cs ds → Leaves gap x y →
      Option.Rel (Covers gap) (f cs x) (f ds y)) :
    IgnoresBlanks fun before cs => p before cs >>= f cs where
  at_blank hc before cs := by
    rw [hp.at_blank hc]
    rfl
  behind_blank hc cs := by rw [hp.behind_blank hc]
  before_gap h := rel_bind (hleaves h) fun hxy => hf h hxy

theorem leaves_word_start (hkeyword : Word keyword.toList) {before : Option Char}
    (h : Trails gap cs ds) :
    Option.Rel (Leaves gap) (wordStart keyword before cs) (wordStart keyword before ds) :=
  rel_guard rfl <| rel_bind (trails_keyword hkeyword.2 h) fun hrest => .some ⟨rfl, hrest⟩

theorem leaves_whole_word (hkeyword : Word keyword.toList) {before : Option Char}
    (h : Trails gap cs ds) :
    Option.Rel (Leaves gap) (wholeWord keyword before cs) (wholeWord keyword before ds) :=
  rel_bind (leaves_word_start hkeyword h) fun hrest =>
    rel_guard hrest.2.ends_word_eq (.some ⟨rfl, hrest.2⟩)

theorem ignores_word_start (hkeyword : Word keyword.toList) : IgnoresBlanks (wordStart keyword) :=
  ignores_at_word (fun hc cs => by rw [keyword_eq_none hkeyword (by simpa using hc)]; rfl)
    fun h => rel_bind (trails_keyword hkeyword.2 h) fun hrest => .some ⟨rfl, .inl hrest⟩

theorem ignores_whole_word (hkeyword : Word keyword.toList) : IgnoresBlanks (wholeWord keyword) :=
  ignores_behind (ignores_word_start hkeyword) (leaves_word_start hkeyword)
    fun _ hrest => rel_guard hrest.2.ends_word_eq (.some ⟨rfl, .inl hrest.2⟩)

theorem trails_phrase (hfirst : Word first.toList) (hsecond : Word second.toList)
    (h : Trails gap cs ds) :
    Option.Rel (Trails gap) (phrase? first second cs) (phrase? first second ds) :=
  have hend : keyword? second [] = none := keyword_eq_none hsecond (by simp)
  rel_bind (trails_keyword hfirst.2 h) <|
    rel_blanks (by rw [hend]; rfl) (by rw [hend]; rfl) fun h =>
      rel_bind (trails_keyword hsecond.2 h) fun hrest =>
        rel_guard hrest.ends_word_eq (.some hrest)

theorem ignores_first_of {patterns : List (Pattern α)} (h : ∀ p ∈ patterns, IgnoresBlanks p) :
    IgnoresBlanks (firstOf patterns) where
  at_blank hc before cs :=
    List.findSome?_eq_none_iff.mpr fun p hp => (h p hp).at_blank hc before cs
  behind_blank hc cs := by
    exact eq_of_rel (rel_find_some fun p hp => rel_of_eq ((h p hp).behind_blank hc cs))
  before_gap hgap := rel_find_some fun p hp => (h p hp).before_gap hgap

end Word

end Ariel.Text
