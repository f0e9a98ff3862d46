import Mathlib.Data.List.Nodup
import Mathlib.Data.Nat.Find
import Ariel.Proofs.Text.Cover
import Ariel.Proofs.Text.Word
import Ariel.Proofs.Validation.Mask
import Ariel.Proofs.Validation.Pattern

/-!
# Calls of functions

A query calls a name where the name begins a word outside of literals and an opening parenthesis
follows it, with or without blanks in between (`Called`). The search for calls finds each of them,
at its place and as it is written (`occurrence_call_iff`). What is reported are the first calls of
the names that are neither reserved nor known (`unknown_functions_reported`).
-/

namespace Ariel.Validation

open Ariel.Text Ariel.Catalog

variable {front gap tail rest name inner outer query text : List Char} {before : Option Char}
  {offset : Nat}

/-- A plain name is an ASCII letter or an underscore, then letters, digits and underscores. -/
def IsName (name : List Char) : Prop :=
  name.head?.any beginsName = true ∧ ∀ c ∈ name, continuesName c = true

/-- A qualified name is two plain names with two colons between them. -/
def IsQualified (name : List Char) : Prop :=
  ∃ space second, name = space ++ ([':', ':'] ++ second) ∧ IsName space ∧ IsName second

/-- A text ends with a plain name that begins a word, and two colons. -/
def EndsQualifying (text : List Char) : Prop :=
  ∃ front space, text = front ++ (space ++ [':', ':']) ∧ beginsWord front.getLast? = true ∧
    IsName space

/-- A name is called at a byte offset of a text. It begins a word, blanks and an opening parenthesis
follow it, and it is not the second part of a qualified name. -/
def CalledIn (text : List Char) (offset : Nat) (name : List Char) : Prop :=
  ∃ front gap tail, text = front ++ (name ++ (gap ++ '(' :: tail)) ∧ byteLength front = offset ∧
    beginsWord front.getLast? = true ∧ (∀ c ∈ gap, isBlank c = true) ∧
    (IsQualified name ∨ IsName name ∧ ¬ EndsQualifying front)

/-- A name is called at a byte offset of a query, outside of literals. -/
def Called (query : List Char) (offset : Nat) (name : List Char) : Prop :=
  ∃ front gap tail, query = front ++ (name ++ (gap ++ '(' :: tail)) ∧ byteLength front = offset ∧
    Even (front.count '\'') ∧ beginsWord front.getLast? = true ∧ (∀ c ∈ gap, isBlank c = true) ∧
    (IsQualified name ∨ IsName name ∧ ¬ EndsQualifying front)

section Name

/-- A plain name has a first character. -/
theorem IsName.ne_nil (h : IsName name) : name ≠ [] := by
  rintro rfl
  cases h.1

/-- A colon does not stand in a plain name. -/
theorem IsName.colon_not_mem (h : IsName name) : ':' ∉ name :=
  fun hmem => absurd (h.2 _ hmem) (by decide)

/-- A plain name is not qualified. -/
theorem IsName.not_is_qualified (h : IsName name) : ¬ IsQualified name := by
  rintro ⟨space, second, rfl, -, -⟩
  exact h.colon_not_mem (by simp)

/-- Behind the first characters of a plain name no word begins. -/
theorem IsName.no_word_behind {first second : List Char} (h : IsName (first ++ second))
    (hne : first ≠ []) (front : List Char) : beginsWord (front ++ first).getLast? = false :=
  not_begins_word hne
    (fun c hc => is_word_character_of_continues_name (h.2 c (List.mem_append_left _ hc))) front

/-- A plain name is taken up to the first character that does not continue it. -/
theorem name_of_is_name (h : IsName name) (hstop : ∀ c ∈ rest.head?, continuesName c = false) :
    name? (name ++ rest) = some (name, rest) :=
  name_eq_some_iff.mpr ⟨rfl, h.1, h.2, hstop⟩

/-- What is taken as a plain name is one. -/
theorem is_name_of_name (h : name? text = some (name, rest)) :
    text = name ++ rest ∧ IsName name := by
  obtain ⟨hsplit, hbegins, hcontinues, -⟩ := name_eq_some_iff.mp h
  exact ⟨hsplit, hbegins, hcontinues⟩

/-- Blanks and a parenthesis do not continue a name. -/
theorem stops_name (hgap : ∀ c ∈ gap, isBlank c = true) :
    ∀ c ∈ (gap ++ '(' :: tail).head?, continuesName c = false := by
  intro c hc
  cases gap with
  | nil =>
      obtain rfl := Option.some.inj hc
      decide
  | cons d gap =>
      obtain rfl := Option.some.inj hc
      exact continues_name_of_blank (hgap d List.mem_cons_self)

/-- What is taken as a name with or without a qualification is one. -/
theorem name_of_qualified_name (h : qualifiedName? text = some (name, rest)) :
    text = name ++ rest ∧ (IsName name ∨ IsQualified name) := by
  simp only [qualifiedName?, bind, Option.bind_eq_some_iff, Prod.exists] at h
  obtain ⟨first, behind, hfirst, h⟩ := h
  obtain ⟨rfl, hname⟩ := is_name_of_name hfirst
  split at h
  next second after hsecond =>
    cases h
    obtain ⟨colons, hcolons, hsecond⟩ := Option.bind_eq_some_iff.mp hsecond
    obtain ⟨rfl, hname'⟩ := is_name_of_name hsecond
    refine ⟨?_, .inr ⟨first, second, List.append_assoc .., hname, hname'⟩⟩
    rw [literal_eq_some_iff.mp hcolons]
    simp
  next =>
    cases h
    exact ⟨rfl, .inl hname⟩

/-- A name in front of blanks and a parenthesis is taken as a whole. -/
theorem qualified_name_of_name (h : IsName name ∨ IsQualified name)
    (hgap : ∀ c ∈ gap, isBlank c = true) :
    qualifiedName? (name ++ (gap ++ '(' :: tail)) = some (name, gap ++ '(' :: tail) := by
  have hstop : ∀ c ∈ (gap ++ '(' :: tail).head?, continuesName c = false := stops_name hgap
  rcases h with hname | ⟨space, second, rfl, hspace, hsecond⟩
  · have hcolons : literal? "::" (gap ++ '(' :: tail) = none := by
      refine Option.eq_none_iff_forall_not_mem.mpr fun behind hliteral => ?_
      have hsplit := literal_eq_some_iff.mp hliteral
      cases gap with
      | nil => exact absurd (List.cons.inj hsplit).1 (by decide)
      | cons d gap =>
          obtain ⟨rfl, -⟩ := List.cons.inj hsplit
          exact absurd (hgap ':' List.mem_cons_self) (by decide)
    simp only [qualifiedName?, name_of_is_name hname hstop, hcolons, bind, Option.bind_some,
      Option.bind_none, pure]
  · have hcolon : ∀ c ∈ ([':', ':'] ++ (second ++ (gap ++ '(' :: tail))).head?,
        continuesName c = false := by
      intro c hc
      obtain rfl := Option.some.inj hc
      decide
    have hcolons : literal? "::" ([':', ':'] ++ (second ++ (gap ++ '(' :: tail))) =
        some (second ++ (gap ++ '(' :: tail)) := literal_eq_some_iff.mpr rfl
    rw [List.append_assoc, List.append_assoc]
    simp only [qualifiedName?, name_of_is_name hspace hcolon, hcolons,
      name_of_is_name hsecond hstop, bind, Option.bind_some, pure, List.append_assoc]

end Name

/-- A call is a plain or qualified name where a word can begin, with an opening parenthesis behind
it. -/
theorem call_eq_some_iff : call before text = some (name, rest) ↔ beginsWord before = true ∧
    (IsName name ∨ IsQualified name) ∧
      ∃ gap, text = name ++ (gap ++ '(' :: rest) ∧ ∀ c ∈ gap, isBlank c = true := by
  simp only [call, bind, Option.bind_eq_some_iff, guard_eq_some_iff, Prod.exists, pure,
    Option.some.injEq, Prod.mk.injEq]
  constructor
  · rintro ⟨-, hbegins, _, behind, hname, _, hliteral, rfl, rfl⟩
    obtain ⟨rfl, hname'⟩ := name_of_qualified_name hname
    obtain ⟨gap, hgap, hblanks⟩ := drop_blanks_spec behind
    refine ⟨hbegins, hname', gap, ?_, hblanks⟩
    rw [literal_eq_some_iff.mp hliteral] at hgap
    rw [hgap]
    rfl
  · rintro ⟨hbegins, hname, gap, rfl, hgap⟩
    refine ⟨(), hbegins, name, gap ++ '(' :: rest, qualified_name_of_name hname hgap, rest, ?_,
      rfl, rfl⟩
    rw [drop_blanks_append hgap, drop_blanks_of_head, literal_eq_some_iff]
    · rfl
    · intro c hc
      obtain rfl := Option.some.inj hc
      decide

/-- A name begins with a character that can begin a name. -/
theorem head_of_name (h : IsName name ∨ IsQualified name) : name.head?.any beginsName = true := by
  rcases h with hname | ⟨space, second, rfl, hspace, -⟩
  · exact hname.1
  · exact any_head_append hspace.1

/-- A word begins within a name only behind the colons of a qualified one. -/
theorem word_within_name {passed more : List Char} {c : Char}
    (h : IsName (passed ++ c :: more) ∨ IsQualified (passed ++ c :: more)) (hpassed : passed ≠ [])
    (hbegins : beginsWord passed.getLast? = true) (hfirst : beginsName c = true) :
    (∃ space, passed = space ++ [':', ':'] ∧ IsName space) ∧ IsName (c :: more) := by
  have hnot : ∀ {front first second}, passed = front ++ first → IsName (first ++ second) →
      first = [] := by
    intro front first second hsplit hname
    by_contra hne
    rw [hsplit, hname.no_word_behind hne] at hbegins
    cases hbegins
  rcases h with hplain | ⟨space, second, hqualified, hspace, hsecond⟩
  · exact absurd (hnot (List.nil_append passed).symm hplain) hpassed
  rcases split_behind_or_within hqualified with ⟨more', rfl, -⟩ | ⟨colons, -, rfl, hcolons⟩
  · exact absurd (hnot (List.nil_append passed).symm hspace) hpassed
  rcases split_behind_or_within hcolons with ⟨first, rfl, rfl⟩ | ⟨more', hne, hcolons', hmore⟩
  · obtain rfl := hnot (List.append_assoc ..).symm hsecond
    exact ⟨⟨space, by simp, hspace⟩, hsecond⟩
  · -- What begins between the two names is a colon.
    obtain ⟨d, more', rfl⟩ := List.exists_cons_of_ne_nil hne
    obtain ⟨rfl, -⟩ := List.cons.inj hmore
    have hmem : c ∈ [':', ':'] := by
      rw [hcolons']
      simp
    obtain rfl : c = ':' := by simpa using hmem
    exact absurd hfirst (by decide)

/-- Neither blanks nor a parenthesis begin a name. -/
theorem begins_name_of_mem_gap {c : Char} (hgap : ∀ c ∈ gap, isBlank c = true)
    (hc : c ∈ gap ++ ['(']) : beginsName c = false := by
  rcases List.mem_append.mp hc with hc | hc
  · exact begins_name_of_blank (hgap c hc)
  · obtain rfl := List.mem_singleton.mp hc
    decide

section Search

variable {found : Occurrence (List Char)}

/-- A call takes some characters. -/
theorem consumes_call : Consumes call := by
  intro before text name rest h
  obtain ⟨-, -, gap, rfl, -⟩ := call_eq_some_iff.mp h
  exact ⟨name ++ (gap ++ ['(']), by simp, by simp⟩

/-- A call that begins within another one calls the second part of a qualified name. -/
theorem call_within {passed left : List Char} (hpassed : passed ≠ []) (hleft : left ≠ [])
    (houter : call before (passed ++ (left ++ tail)) = some (outer, tail))
    (hinner : call passed.getLast? (left ++ tail) = some (inner, rest)) :
    (∃ space, passed = space ++ [':', ':'] ∧ IsName space) ∧ IsName inner := by
  obtain ⟨-, hname, gap, hsplit, hgap⟩ := call_eq_some_iff.mp houter
  obtain ⟨hbegins, hinner', gap', hsplit', -⟩ := call_eq_some_iff.mp hinner
  have hwhole : passed ++ left = outer ++ (gap ++ ['(']) := by
    have hcancel : (passed ++ left) ++ tail = (outer ++ (gap ++ ['('])) ++ tail := by
      simpa using hsplit
    exact List.append_cancel_right hcancel
  obtain ⟨c, left, rfl⟩ := List.exists_cons_of_ne_nil hleft
  have hfirst : beginsName c = true := by
    have hhead : (inner ++ (gap' ++ '(' :: rest)).head?.any beginsName = true :=
      any_head_append (head_of_name hinner')
    rwa [← hsplit'] at hhead
  have hnotGap : c ∉ gap ++ ['('] := by
    intro hmem
    rw [begins_name_of_mem_gap hgap hmem] at hfirst
    cases hfirst
  rcases split_behind_or_within hwhole with ⟨more, rfl, hmore⟩ | ⟨more, -, rfl, hmore⟩
  · cases more with
    | nil =>
        refine absurd ?_ hnotGap
        rw [← List.nil_append (gap ++ ['(']), ← hmore]
        exact List.mem_cons_self
    | cons d more =>
        rw [List.cons_append] at hmore
        obtain ⟨rfl, rfl⟩ := List.cons.inj hmore
        obtain ⟨hspace, hsecond⟩ := word_within_name hname hpassed hbegins hfirst
        -- At the same place the call of the second name is read.
        have hcall : call passed.getLast? (c :: (more ++ (gap ++ ['('])) ++ tail) =
            some (c :: more, tail) :=
          call_eq_some_iff.mpr ⟨hbegins, .inl hsecond, gap, by simp, hgap⟩
        rw [hinner] at hcall
        obtain ⟨rfl, -⟩ := Prod.mk.inj (Option.some.inj hcall)
        exact ⟨hspace, hsecond⟩
  · refine absurd ?_ hnotGap
    rw [hmore]
    simp

/-- A call is found, unless it calls the second part of a qualified name. -/
theorem found_or_qualified (h : call front.getLast? tail = some (name, rest)) :
    ⟨byteLength front, name⟩ ∈ occurrences call (front ++ tail) ∨
      EndsQualifying front ∧ IsName name := by
  obtain ⟨⟨offset, value⟩, hfound, start, passed, left, behind, rfl, rfl, hleft, hplace, hholds⟩ :=
    occurrence_covering consumes_call h
  by_cases hpassed : passed = []
  · subst hpassed
    rw [List.append_nil] at h hfound ⊢
    rw [List.nil_append, h] at hholds
    obtain ⟨rfl, -⟩ := Prod.mk.inj (Option.some.inj hholds)
    obtain rfl : offset = byteLength start := hplace
    exact .inl hfound
  · rw [List.getLast?_append_of_ne_nil _ hpassed] at h
    obtain ⟨⟨space, rfl, hspace⟩, hname⟩ := call_within hpassed hleft hholds h
    exact .inr ⟨⟨start, space, rfl, (call_eq_some_iff.mp hholds).1, hspace⟩, hname⟩

/-- A search reports the calls of a text, at their places and as they are written. -/
theorem occurrence_call_iff :
    found ∈ occurrences call text ↔ CalledIn text found.offset found.value := by
  constructor
  · intro hfound
    obtain ⟨front, taken, rest, htext, htaken, hplace, hholds⟩ :=
      taken_of_occurrence consumes_call hfound
    obtain ⟨hbegins, hname, gap, hsplit, hgap⟩ := call_eq_some_iff.mp hholds
    refine ⟨front, gap, rest, by rw [htext, hsplit], hplace.symm, hbegins, hgap,
      hname.symm.imp_right fun hname => ⟨hname, ?_⟩⟩
    rintro ⟨start, space, rfl, hstart, hspace⟩
    -- The qualified name is found where its first part begins, and takes the second one, too.
    have hqualified : IsQualified (space ++ ([':', ':'] ++ found.value)) :=
      ⟨space, found.value, rfl, hspace, hname⟩
    have hmatch : call start.getLast? (space ++ [':', ':'] ++ taken ++ rest) =
        some (space ++ ([':', ':'] ++ found.value), rest) := by
      refine call_eq_some_iff.mpr ⟨hstart, .inr hqualified, gap, ?_, hgap⟩
      rw [List.append_assoc _ taken, hsplit]
      simp
    rcases found_or_qualified hmatch with houter | ⟨-, hplain⟩
    · have htext' : text = start ++ (space ++ [':', ':'] ++ taken ++ rest) := by
        rw [htext]
        simp
      rw [← htext'] at houter
      have hpos := byte_length_pos htaken
      have hspace := byte_length_pos hspace.ne_nil
      simp only [byte_length_append] at hplace
      have hlt : byteLength start < found.offset := by omega
      have hle := ends_before_of_offset_lt consumes_call houter hfound hlt start
        (space ++ [':', ':'] ++ taken) rest htext' rfl hmatch
      simp only [byte_length_append] at hle
      omega
    · exact hplain.not_is_qualified hqualified
  · rintro ⟨front, gap, tail, rfl, hoffset, hbegins, hgap, hname⟩
    have hmatch : call front.getLast? (found.value ++ (gap ++ '(' :: tail)) =
        some (found.value, tail) :=
      call_eq_some_iff.mpr ⟨hbegins, hname.symm.imp_left And.left, gap, rfl, hgap⟩
    rcases found_or_qualified hmatch with hfound | ⟨hends, hplain⟩
    · rwa [hoffset] at hfound
    · rcases hname with hqualified | ⟨-, hnot⟩
      · exact absurd hqualified hplain.not_is_qualified
      · exact absurd hends hnot

end Search

section Outside

/-- A quote does not stand in a plain name. -/
theorem IsName.quote_not_mem (h : IsName name) : '\'' ∉ name :=
  fun hmem => absurd (h.2 _ hmem) (by decide)

/-- A quote does not stand in a name with or without a qualification. -/
theorem quote_not_mem_name (h : IsName name ∨ IsQualified name) : '\'' ∉ name := by
  rcases h with hname | ⟨space, second, rfl, hspace, hsecond⟩
  · exact hname.quote_not_mem
  · simp [hspace.quote_not_mem, hsecond.quote_not_mem]

/-- A quote does not stand in a call. -/
theorem quote_not_mem_call (h : IsName name ∨ IsQualified name)
    (hgap : ∀ c ∈ gap, isBlank c = true) : '\'' ∉ name ++ (gap ++ ['(']) := by
  simp [quote_not_mem_name h, quote_not_mem_blanks hgap]

/-- A name begins with no blank. -/
theorem is_blank_of_head_name (h : IsName name ∨ IsQualified name) :
    ∀ c ∈ (name ++ rest).head?, isBlank c = false := by
  intro c hc
  have hfirst : (name ++ rest).head?.any beginsName = true := any_head_append (head_of_name h)
  rw [Option.mem_def.mp hc] at hfirst
  exact is_blank_of_continues_name (continues_name_of_begins_name hfirst)

/-- A text that ends outside of literals ends with a qualification where its mask does. -/
theorem ends_qualifying_mask (heven : Even (front.count '\'')) :
    EndsQualifying (mask front) ↔ EndsQualifying front := by
  constructor
  · rintro ⟨start, space, hsplit, hbegins, hspace⟩
    have hword : mask front = start ++ (space ++ [':', ':'] ++ []) := by rw [hsplit]; simp
    obtain ⟨start', rest, rfl, rfl, heven', hrest⟩ := exists_run_of_mask hword (by simp)
      (is_blank_of_head_name (.inl hspace)) (by simp [hspace.quote_not_mem])
    have hnil : rest = [] := by
      have hhead := head_mask rest
      rw [show maskFrom false rest = [] from hrest] at hhead
      exact List.head?_eq_none_iff.mp hhead.symm
    subst hnil
    rw [mask, last_mask (ends_inside_of_even heven')] at hbegins
    exact ⟨start', space, by simp, hbegins, hspace⟩
  · rintro ⟨start, space, rfl, hbegins, hspace⟩
    have hword : '\'' ∉ space ++ [':', ':'] := by simp [hspace.quote_not_mem]
    have heven' : Even (start.count '\'') := by
      rwa [List.count_append, List.count_eq_zero_of_not_mem hword] at heven
    refine ⟨mask start, space, ?_, ?_, hspace⟩
    · rw [mask_append heven', mask_of_no_quote hword]
    · rwa [mask, last_mask (ends_inside_of_even heven')]

/-- The calls in the mask of a query are its calls outside of literals. -/
theorem called_in_mask_iff : CalledIn (mask query) offset name ↔ Called query offset name := by
  constructor
  · rintro ⟨front, gap, tail, hsplit, hoffset, hbegins, hgap, hname⟩
    have hkind := hname.symm.imp_left And.left
    have hword : mask query = front ++ (name ++ (gap ++ ['(']) ++ tail) := by rw [hsplit]; simp
    obtain ⟨front', rest, rfl, rfl, heven, -⟩ := exists_run_of_mask hword (by simp)
      (is_blank_of_head_name hkind) (quote_not_mem_call hkind hgap)
    rw [mask, last_mask (ends_inside_of_even heven)] at hbegins
    rw [mask, byte_length_mask_from] at hoffset
    rw [ends_qualifying_mask heven] at hname
    exact ⟨front', gap, rest, by simp, hoffset, heven, hbegins, hgap, hname⟩
  · rintro ⟨front, gap, tail, rfl, hoffset, heven, hbegins, hgap, hname⟩
    have hkind := hname.symm.imp_left And.left
    refine ⟨mask front, gap, mask tail, ?_, ?_, ?_, hgap, ?_⟩
    · have hmask : mask (front ++ (name ++ (gap ++ ['(']) ++ tail)) =
          mask front ++ (name ++ (gap ++ ['(']) ++ mask tail) :=
        mask_run heven (quote_not_mem_call hkind hgap)
      simpa using hmask
    · rw [mask, byte_length_mask_from, hoffset]
    · rwa [mask, last_mask (ends_inside_of_even heven)]
    · rwa [ends_qualifying_mask heven]

end Outside

/-- A name is unknown when it is neither a reserved word nor the name of a function, in any ASCII
letter case. -/
def UnknownName (name : List Char) : Prop :=
  (∀ word ∈ wordsNotCalled, word.toList ≠ capitals name) ∧
    ∀ f ∈ functions, capitals f.name.toList ≠ capitals name

/-- The first call of an unknown name, in whatever letter case the later ones are written. -/
def FirstUnknown (query : List Char) (offset : Nat) (name : List Char) : Prop :=
  Called query offset name ∧ UnknownName name ∧
    ∀ earlier other, Called query earlier other → capitals other = capitals name → offset ≤ earlier

/-- The remark on a call of an unknown name. -/
def unknownFunction (name : List Char) : Remark :=
  .suggestion
    ("Unknown function '" ++ String.ofList name ++ "'; check the function reference")

section Report

variable {seen : List String} {calls : List (Occurrence (List Char))}
  {next found : Occurrence (List Char)}

/-- Whether a name is unknown depends on its capitals only. -/
theorem UnknownName.of_capitals {other : List Char} (h : UnknownName name)
    (hsame : capitals other = capitals name) : UnknownName other := by
  rw [UnknownName, hsame]
  exact h

/-- Capitals have no other capitals. -/
theorem capitals_capitals (cs : List Char) : capitals (capitals cs) = capitals cs := by
  rw [capitals, capitals, List.map_map]
  exact List.map_congr_left fun c _ => to_upper_to_upper c

/-- The check passes over the names that are not unknown. -/
theorem is_known_iff : (wordsNotCalled.contains (String.ofList (capitals name)) ||
    isKnownFunction (String.ofList (capitals name))) = true ↔ ¬ UnknownName name := by
  have hword : wordsNotCalled.contains (String.ofList (capitals name)) = true ↔
      ∃ word ∈ wordsNotCalled, word.toList = capitals name := by
    rw [List.contains_iff_mem]
    constructor
    · intro hmem
      exact ⟨_, hmem, String.toList_ofList⟩
    · rintro ⟨word, hmem, hsame⟩
      rwa [← hsame, String.ofList_toList]
  have hfunction : isKnownFunction (String.ofList (capitals name)) = true ↔
      ∃ f ∈ functions, capitals f.name.toList = capitals name := by
    simp only [isKnownFunction, List.any_eq_true, sameIgnoringCase, String.toList_ofList,
      capitals_capitals, beq_iff_eq]
  rw [Bool.or_eq_true, hword, hfunction, UnknownName, not_and_or]
  simp only [not_forall, ne_eq, not_not, exists_prop]

/-- The call of an unknown name that is new is kept, and its capitals are remembered. -/
theorem unknown_calls_kept (h : UnknownName next.value)
    (hnew : String.ofList (capitals next.value) ∉ seen) :
    unknownCalls seen (next :: calls) =
      next :: unknownCalls (String.ofList (capitals next.value) :: seen) calls := by
  have hcondition : (wordsNotCalled.contains (String.ofList (capitals next.value)) ||
      isKnownFunction (String.ofList (capitals next.value)) ||
      seen.contains (String.ofList (capitals next.value))) = false := by
    have hname : ¬ _ := mt is_known_iff.mp (not_not_intro h)
    rw [Bool.not_eq_true] at hname
    rw [hname, Bool.false_or]
    simpa using hnew
  simp only [unknownCalls, hcondition, Bool.false_eq_true, if_false]

/-- Any other call is passed over. -/
theorem unknown_calls_passed
    (h : ¬ (UnknownName next.value ∧ String.ofList (capitals next.value) ∉ seen)) :
    unknownCalls seen (next :: calls) = unknownCalls seen calls := by
  have hcondition : (wordsNotCalled.contains (String.ofList (capitals next.value)) ||
      isKnownFunction (String.ofList (capitals next.value)) ||
      seen.contains (String.ofList (capitals next.value))) = true := by
    rw [Bool.or_eq_true, is_known_iff, List.contains_iff_mem]
    by_contra hneither
    rw [not_or, not_not] at hneither
    exact h hneither
  simp only [unknownCalls, hcondition, if_true]

/-- A call is kept when its name is unknown and no earlier one has the same capitals. -/
theorem mem_unknown_calls_iff : found ∈ unknownCalls seen calls ↔
    ∃ earlier later, calls = earlier ++ found :: later ∧ UnknownName found.value ∧
      String.ofList (capitals found.value) ∉ seen ∧
      ∀ next ∈ earlier, capitals next.value ≠ capitals found.value := by
  induction calls generalizing seen with
  | nil => simp [unknownCalls]
  | cons next calls ih =>
      by_cases h : UnknownName next.value ∧ String.ofList (capitals next.value) ∉ seen
      · rw [unknown_calls_kept h.1 h.2, List.mem_cons, ih]
        constructor
        · rintro (rfl | ⟨earlier, later, rfl, hunknown, hnew, hfirst⟩)
          · exact ⟨[], calls, rfl, h.1, h.2, by simp⟩
          · rw [List.mem_cons, not_or] at hnew
            refine ⟨next :: earlier, later, rfl, hunknown, hnew.2, fun other hother => ?_⟩
            rcases List.mem_cons.mp hother with rfl | hother
            · exact fun hsame => hnew.1 (by rw [hsame])
            · exact hfirst other hother
        · rintro ⟨- | ⟨_, earlier⟩, later, hsplit, hunknown, hnew, hfirst⟩
          · exact .inl (List.cons.inj hsplit).1.symm
          · obtain ⟨rfl, rfl⟩ := List.cons.inj hsplit
            refine .inr ⟨earlier, later, rfl, hunknown, ?_,
              fun other hother => hfirst other (List.mem_cons_of_mem _ hother)⟩
            rw [List.mem_cons, not_or]
            refine ⟨fun hsame => hfirst next List.mem_cons_self ?_, hnew⟩
            exact (String.ofList_injective hsame).symm
      · rw [unknown_calls_passed h, ih]
        constructor
        · rintro ⟨earlier, later, rfl, hunknown, hnew, hfirst⟩
          refine ⟨next :: earlier, later, rfl, hunknown, hnew, fun other hother => ?_⟩
          rcases List.mem_cons.mp hother with rfl | hother
          · -- With the same capitals this call would have been kept.
            exact fun hsame => h ⟨hunknown.of_capitals hsame, by rwa [hsame]⟩
          · exact hfirst other hother
        · rintro ⟨- | ⟨_, earlier⟩, later, hsplit, hunknown, hnew, hfirst⟩
          · obtain ⟨rfl, -⟩ := List.cons.inj hsplit
            exact absurd ⟨hunknown, hnew⟩ h
          · obtain ⟨rfl, rfl⟩ := List.cons.inj hsplit
            exact ⟨earlier, later, rfl, hunknown, hnew,
              fun other hother => hfirst other (List.mem_cons_of_mem _ hother)⟩

/-- What is kept stands in the order of the calls. -/
theorem unknown_calls_sublist (seen : List String) (calls : List (Occurrence (List Char))) :
    (unknownCalls seen calls).Sublist calls := by
  induction calls generalizing seen with
  | nil => exact List.Sublist.refl _
  | cons next calls ih =>
      simp only [unknownCalls]
      split
      next => exact List.Sublist.cons next (ih seen)
      next => exact List.Sublist.cons_cons next (ih _)

/-- Of calls in the order of their places the first one of each unknown name is kept. -/
theorem mem_unknown_calls_of_sorted
    (hsorted : calls.Pairwise fun next later => next.offset < later.offset) :
    found ∈ unknownCalls [] calls ↔ found ∈ calls ∧ UnknownName found.value ∧
      ∀ next ∈ calls, capitals next.value = capitals found.value → found.offset ≤ next.offset := by
  rw [mem_unknown_calls_iff]
  constructor
  · rintro ⟨earlier, later, rfl, hunknown, -, hfirst⟩
    refine ⟨by simp, hunknown, fun next hnext hsame => ?_⟩
    rcases List.mem_append.mp hnext with hearlier | hlater
    · exact absurd hsame (hfirst next hearlier)
    · rcases List.mem_cons.mp hlater with rfl | hlater
      · exact Nat.le_refl _
      · have hbehind := (List.pairwise_append.mp hsorted).2.1
        exact Nat.le_of_lt (List.rel_of_pairwise_cons hbehind hlater)
  · rintro ⟨hfound, hunknown, hfirst⟩
    obtain ⟨earlier, later, rfl⟩ := List.append_of_mem hfound
    refine ⟨earlier, later, rfl, hunknown, List.not_mem_nil, fun next hnext hsame => ?_⟩
    have hlt : next.offset < found.offset :=
      (List.pairwise_append.mp hsorted).2.2 next hnext found List.mem_cons_self
    have hle := hfirst next (by simp [hnext]) hsame
    omega

/-- The check reports the first call of each unknown name. -/
theorem mem_unknown_calls_mask : found ∈ unknownCalls [] (occurrences call (mask query)) ↔
    FirstUnknown query found.offset found.value := by
  have hcalled : ∀ next, next ∈ occurrences call (mask query) ↔
      Called query next.offset next.value := fun next => by
    rw [occurrence_call_iff, called_in_mask_iff]
  rw [mem_unknown_calls_of_sorted (occurrences_sorted consumes_call), hcalled, FirstUnknown]
  refine and_congr_right fun _ => and_congr_right fun _ => ?_
  constructor
  · intro h earlier other hother
    exact h ⟨earlier, other⟩ ((hcalled _).mpr hother)
  · intro h next hnext
    exact h _ _ ((hcalled next).mp hnext)

/-- An unknown name that is called has a first call. -/
theorem exists_first_unknown (hcalled : Called query offset name) (hunknown : UnknownName name) :
    ∃ first other, FirstUnknown query first other ∧ capitals other = capitals name := by
  classical
  have hsome : ∃ first other, Called query first other ∧ capitals other = capitals name :=
    ⟨offset, name, hcalled, rfl⟩
  obtain ⟨other, hother, hsame⟩ := Nat.find_spec hsome
  refine ⟨Nat.find hsome, other, ⟨hother, hunknown.of_capitals hsame, ?_⟩, hsame⟩
  intro earlier another hanother hsame'
  exact Nat.find_min' hsome ⟨another, hanother, hsame'.trans hsame⟩

end Report

/-- The check of functions reports, in the order of their places, the first calls of the unknown
names outside of literals, each as it is written. Of every unknown name that is called it reports
exactly one call, whatever the letter case, and it is silent exactly when every name that is called
is reserved or known. -/
theorem unknown_functions_reported (query : List Char) :
    ∃ found : List (Occurrence (List Char)),
      found.Pairwise (fun first later => first.offset < later.offset) ∧
      (∀ first, first ∈ found ↔ FirstUnknown query first.offset first.value) ∧
      remarksOf .unknownFunctions query =
        found.map (fun first => (unknownFunction first.value).placed first.offset) ∧
      (∀ offset name, Called query offset name → UnknownName name →
        ∃! first, first ∈ found ∧ capitals first.value = capitals name) ∧
      (remarksOf .unknownFunctions query = [] ↔
        ∀ offset name, Called query offset name → ¬ UnknownName name) := by
  have hsorted : (unknownCalls [] (occurrences call (mask query))).Pairwise
      fun first later => first.offset < later.offset :=
    (occurrences_sorted consumes_call).sublist (unknown_calls_sublist _ _)
  have hremarks : remarksOf .unknownFunctions query =
      (unknownCalls [] (occurrences call (mask query))).map
        fun first => (unknownFunction first.value).placed first.offset := rfl
  refine ⟨_, hsorted, fun first => mem_unknown_calls_mask, hremarks, ?_, ?_⟩
  · intro offset name hcalled hunknown
    obtain ⟨place, other, hfirst, hsame⟩ := exists_first_unknown hcalled hunknown
    have hmem : ⟨place, other⟩ ∈ unknownCalls [] (occurrences call (mask query)) :=
      mem_unknown_calls_mask.mpr hfirst
    refine ⟨⟨place, other⟩, ⟨hmem, hsame⟩, ?_⟩
    rintro another ⟨hmem', hsame'⟩
    -- Two first calls of one name stand at the same place.
    obtain ⟨hcalled', -, hleast⟩ := mem_unknown_calls_mask.mp hmem'
    have hle := hleast place other hfirst.1 (hsame.trans hsame'.symm)
    have hge := hfirst.2.2 another.offset another.value hcalled' (hsame'.trans hsame.symm)
    have hnodup : ((unknownCalls [] (occurrences call (mask query))).map
        Occurrence.offset).Nodup := List.pairwise_map.mpr (hsorted.imp Nat.ne_of_lt)
    exact List.inj_on_of_nodup_map hnodup hmem' hmem (Nat.le_antisymm hle hge)
  · rw [hremarks, List.map_eq_nil_iff, List.eq_nil_iff_forall_not_mem]
    constructor
    · intro hnone offset name hcalled hunknown
      obtain ⟨place, other, hfirst, -⟩ := exists_first_unknown hcalled hunknown
      exact hnone ⟨place, other⟩ (mem_unknown_calls_mask.mpr hfirst)
    · intro hknown first hmem
      obtain ⟨hcalled, hunknown, -⟩ := mem_unknown_calls_mask.mp hmem
      exact hknown _ _ hcalled hunknown

end Ariel.Validation
