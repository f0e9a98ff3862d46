import Ariel.Proofs.Template.Library

/-!
# The order of the values

Values are filled in one after the other, and the first one for a name takes the place of its holes.
As long as no value brings a token of a name that is given, each hole of a library query holds the
first value for its name (`filled_hole`). So the order does not matter when the values for one name
are the same, and it does when they are not (`render_perm_iff`).
-/

namespace Ariel.Template

open Ariel.Text

variable {name cs : List Char} {key : String} {values values' : List (String × String)}
  {placeholder : String} {t : Template}

/-- The first value that is given for a name. -/
def valueOf? (values : List (String × String)) (name : String) : Option String :=
  (values.find? fun pair => placeholderName pair.1 == name).map Prod.snd

/-- No value for one of the names brings in a token of a name that is given. -/
def Inert (names : List String) (values : List (String × String)) : Prop :=
  ∀ pair ∈ values, placeholderName pair.1 ∈ names → ∀ other ∈ values,
    occurs (exactly (token other.1)) pair.2.toList = false

/-- The values for one of the names are all the same. -/
def Unambiguous (names : List String) (values : List (String × String)) : Prop :=
  ∀ pair ∈ values, ∀ other ∈ values, placeholderName pair.1 ∈ names →
    placeholderName pair.1 = placeholderName other.1 → pair.2 = other.2

/-- The first value is that of the first pair, or of the pairs behind it. -/
theorem value_of_cons (key value : String) (values : List (String × String)) (name : String) :
    valueOf? ((key, value) :: values) name =
      if placeholderName key = name then some value else valueOf? values name := by
  rw [valueOf?, List.find?_cons]
  by_cases hkey : placeholderName key = name
  · rw [if_pos hkey, beq_iff_eq.mpr hkey]
    rfl
  · rw [if_neg hkey, beq_eq_false_iff_ne.mpr hkey]
    rfl

section Holes

/-- A hole holds a hole only if it is the same one, all of it. -/
theorem hole_eq_append {name' front back : List Char} (hopening : '\x7b' ∉ name)
    (hclosing : '\x7d' ∉ name) (h : hole name = front ++ (hole name' ++ back)) :
    front = [] ∧ back = [] ∧ name = name' := by
  have hopen : ∀ {name : List Char}, (hole name).count '\x7b' = 2 + name.count '\x7b' := by
    intro name
    rw [hole, List.count_append, List.count_append]
    rfl
  have hclose : ∀ {name : List Char}, (hole name).count '\x7d' = name.count '\x7d' + 2 := by
    intro name
    rw [hole, List.count_append, List.count_append]
    exact Nat.zero_add _
  -- The braces of the one are the braces of the other.
  have hfront : '\x7b' ∉ front := by
    have hcount := congrArg (List.count '\x7b') h
    rw [hopen, List.count_append, List.count_append, hopen, List.count_eq_zero.mpr hopening]
      at hcount
    exact List.count_eq_zero.mp (by omega)
  have hback : '\x7d' ∉ back := by
    have hcount := congrArg (List.count '\x7d') h
    rw [hclose, List.count_append, List.count_append, hclose, List.count_eq_zero.mpr hclosing]
      at hcount
    exact List.count_eq_zero.mp (by omega)
  obtain rfl : front = [] := by
    cases front with
    | nil => rfl
    | cons c front =>
        obtain ⟨rfl, -⟩ := List.cons.inj (show '\x7b' :: _ = c :: _ from h)
        exact absurd List.mem_cons_self hfront
  obtain rfl : back = [] := by
    by_contra hne
    have hlast : (hole name).getLast? = some '\x7d' := by
      rw [hole, List.getLast?_append, List.getLast?_append]
      rfl
    rw [h, List.nil_append, List.getLast?_append_of_ne_nil _ hne] at hlast
    exact hback (List.mem_of_getLast? hlast)
  rw [List.nil_append, List.append_nil, hole, hole, List.append_cancel_left_eq,
    List.append_cancel_right_eq] at h
  exact ⟨rfl, rfl, h⟩

/-- A token of another name does not occur in a hole. -/
theorem token_not_in_hole {name : String} (hopening : '\x7b' ∉ name.toList)
    (hclosing : '\x7d' ∉ name.toList) (hkey : placeholderName key ≠ name) :
    occurrences (exactly (token key)) (hole name.toList) = [] := by
  refine occurrences_exactly_eq_nil fun front back heq => hkey ?_
  rw [to_list_token] at heq
  obtain ⟨-, -, hname⟩ := hole_eq_append hopening hclosing heq
  exact String.toList_inj.mp hname.symm

/-- A text without the tokens of the values stays as it is. -/
theorem filled_of_no_token (h : ∀ pair ∈ values, occurs (exactly (token pair.1)) cs = false) :
    filled values cs = cs := by
  induction values with
  | nil => rfl
  | cons pair values ih =>
      obtain ⟨key, value⟩ := pair
      rw [List.forall_mem_cons] at h
      have hnone : occurrences (exactly (token key)) cs = [] := by
        have hfirst := h.1
        rwa [occurs, Bool.not_eq_false', List.isEmpty_iff] at hfirst
      rw [filled_cons, replace_all_of_no_occurrence _ hnone, ih h.2]

/-- A hole holds the first value for its name, and stays where there is none. -/
theorem filled_hole {name : String} (hopening : '\x7b' ∉ name.toList)
    (hclosing : '\x7d' ∉ name.toList) (hinert : Inert [name] values) :
    filled values (hole name.toList) =
      ((valueOf? values name).map String.toList).getD (hole name.toList) := by
  induction values with
  | nil => rfl
  | cons pair values ih =>
      obtain ⟨key, value⟩ := pair
      rw [filled_cons, value_of_cons]
      by_cases hkey : placeholderName key = name
      · -- What is put in stays, as no later value replaces a part of it.
        have hvalue : filled values value.toList = value.toList :=
          filled_of_no_token fun other hother =>
            hinert (key, value) List.mem_cons_self (List.mem_singleton.mpr hkey) other
              (List.mem_cons_of_mem _ hother)
        have hne : (token key).toList ≠ [] :=
          List.ne_nil_of_mem (List.mem_of_mem_head? (head_token key))
        have htoken : hole name.toList = (token key).toList := by rw [to_list_token, hkey]
        rw [htoken, replace_exactly_self hne, hvalue, if_pos hkey]
        rfl
      · have hlater : Inert [name] values := fun pair hpair hname other hother =>
          hinert pair (List.mem_cons_of_mem _ hpair) hname other (List.mem_cons_of_mem _ hother)
        rw [replace_all_of_no_occurrence _ (token_not_in_hole hopening hclosing hkey), ih hlater,
          if_neg hkey]

end Holes

section Library

variable {names : List String} {name : String} {first : List Char}
  {parts : List (List Char × List Char)}

/-- What stands in the place of a hole when the first value for its name is put there. -/
def contentOf (values : List (String × String)) (name : List Char) : List Char :=
  ((valueOf? values (String.ofList name)).map String.toList).getD (hole name)

/-- The first pair has its value in the place of the holes for its name. -/
theorem content_of_cons (pair : String × String) (values : List (String × String))
    (name : List Char) : contentOf (pair :: values) name =
      if placeholderName pair.1 = String.ofList name then pair.2.toList
      else contentOf values name := by
  rw [contentOf, value_of_cons]
  split
  · rfl
  · rfl

/-- The names that are left when the repetitions of earlier ones are dropped. -/
theorem mem_distinct_iff {seen : List String} :
    name ∈ distinct seen names ↔ name ∈ names ∧ name ∉ seen := by
  induction names generalizing seen with
  | nil => simp [distinct]
  | cons other names ih =>
      rw [distinct]
      by_cases hseen : other ∈ seen
      · rw [if_pos (List.contains_iff_mem.mpr hseen), ih, List.mem_cons]
        constructor
        · exact fun h => ⟨.inr h.1, h.2⟩
        · rintro ⟨rfl | hname, hnot⟩
          · exact absurd hseen hnot
          · exact ⟨hname, hnot⟩
      · rw [if_neg (by simpa using hseen), List.mem_cons, ih, List.mem_cons, List.mem_cons]
        by_cases hname : name = other
        · simp [hname, hseen]
        · simp [hname]

/-- The placeholders of a query are the names of its holes. -/
theorem Dissection.mem_placeholders_iff {query : String} (h : Dissection query.toList first parts) :
    name ∈ placeholders query ↔ ∃ part ∈ parts, String.ofList part.1 = name := by
  have hnames : ((occurrences placeholder query.toList).map fun found =>
      String.ofList found.value) = parts.map fun part => String.ofList part.1 := by
    have hvalues := congrArg (List.map String.ofList) h.holes
    rwa [List.map_map, List.map_map] at hvalues
  rw [placeholders, mem_distinct_iff, hnames, List.mem_map]
  simp

/-- Without values that bring in tokens, each hole holds the first value for its name. -/
theorem Dissection.filled_query {query : String} (h : Dissection query.toList first parts)
    (hinert : Inert (placeholders query) values) :
    filled values query.toList =
      written first (parts.map fun part => ⟨contentOf values part.1, part.2⟩) := by
  have hgaps : ∀ slot ∈ parts.map (fun part => (⟨hole part.1, part.2⟩ : Slot)), Gap slot.gap := by
    intro slot hslot
    obtain ⟨part, hpart, rfl⟩ := List.mem_map.mp hslot
    exact h.gaps part hpart
  rw [h.form, filled_written h.head hgaps, List.map_map]
  congr 1
  refine List.map_congr_left fun part hpart => ?_
  obtain ⟨hopening, hclosing⟩ := h.names part hpart
  have hone : Inert [String.ofList part.1] values := by
    intro pair hpair hname
    refine hinert pair hpair (h.mem_placeholders_iff.mpr ⟨part, hpart, ?_⟩)
    exact (List.mem_singleton.mp hname).symm
  have hcontent := filled_hole (by simpa using hopening) (by simpa using hclosing) hone
  rw [String.toList_ofList] at hcontent
  exact congrArg (Slot.mk · part.2) hcontent

/-- A value is given for a name in an order where all values for the name are the same. -/
theorem value_of_eq_some_iff {value : String} (h : Unambiguous names values)
    (hname : name ∈ names) : valueOf? values name = some value ↔
      ∃ pair ∈ values, placeholderName pair.1 = name ∧ pair.2 = value := by
  constructor
  · intro hvalue
    obtain ⟨pair, hfound, rfl⟩ := Option.map_eq_some_iff.mp hvalue
    exact ⟨pair, List.mem_of_find?_eq_some hfound, by simpa using List.find?_some hfound, rfl⟩
  · rintro ⟨pair, hpair, rfl, rfl⟩
    have hsome : (values.find? fun other =>
        placeholderName other.1 == placeholderName pair.1).isSome :=
      List.find?_isSome.mpr ⟨pair, hpair, beq_self_eq_true _⟩
    obtain ⟨other, hother⟩ := Option.isSome_iff_exists.mp hsome
    have hsame : placeholderName other.1 = placeholderName pair.1 := by
      simpa using List.find?_some hother
    rw [valueOf?, hother, Option.map_some,
      h pair hpair other (List.mem_of_find?_eq_some hother) hname hsame.symm]

/-- The values for one name stay the same in any order. -/
theorem Unambiguous.perm (h : Unambiguous names values) (hperm : values.Perm values') :
    Unambiguous names values' :=
  fun pair hpair other hother => h pair (hperm.mem_iff.mpr hpair) other (hperm.mem_iff.mpr hother)

/-- Values bring in no tokens in any order. -/
theorem Inert.perm (h : Inert names values) (hperm : values.Perm values') : Inert names values' :=
  fun pair hpair hname other hother =>
    h pair (hperm.mem_iff.mpr hpair) hname other (hperm.mem_iff.mpr hother)

/-- The first value for a name is the same in any order. -/
theorem value_of_perm (h : Unambiguous names values) (hname : name ∈ names)
    (hperm : values.Perm values') : valueOf? values' name = valueOf? values name := by
  refine Option.ext fun value => ?_
  rw [value_of_eq_some_iff (h.perm hperm) hname, value_of_eq_some_iff h hname]
  simp only [hperm.mem_iff]

/-- Slots are written with as many characters as their contents have, and more. -/
theorem length_slots_le {f g : List Char × List Char → List Char}
    (hle : ∀ part ∈ parts, (f part).length ≤ (g part).length) :
    (parts.flatMap fun part => f part ++ part.2).length ≤
      (parts.flatMap fun part => g part ++ part.2).length := by
  induction parts with
  | nil => exact Nat.le_refl _
  | cons part parts ih =>
      rw [List.forall_mem_cons] at hle
      have hrest := ih hle.2
      have hpart := hle.1
      simp only [List.flatMap_cons, List.length_append] at hrest ⊢
      omega

/-- Contents that are no longer than others, and written the same with them, are the others. -/
theorem contents_eq_of_slots {f g : List Char × List Char → List Char}
    (hle : ∀ part ∈ parts, (f part).length ≤ (g part).length)
    (h : (parts.flatMap fun part => f part ++ part.2) =
      parts.flatMap fun part => g part ++ part.2) :
    ∀ part ∈ parts, f part = g part := by
  induction parts with
  | nil => simp
  | cons part parts ih =>
      rw [List.forall_mem_cons] at hle ⊢
      have hrest := length_slots_le hle.2
      have hpart := hle.1
      have hlength := congrArg List.length h
      simp only [List.flatMap_cons, List.length_append] at hlength hrest
      simp only [List.flatMap_cons, List.append_assoc] at h
      obtain ⟨hcontent, hbehind⟩ := List.append_inj h (by omega)
      exact ⟨hcontent, ih hle.2 (List.append_cancel_left hbehind)⟩

/-- Where contents differ in one text only, they are the same when they are written the same. -/
theorem contents_eq_of_written {f g : List Char × List Char → List Char}
    {content content' : List Char}
    (hone : ∀ part ∈ parts, f part = g part ∨ (f part = content ∧ g part = content'))
    (h : written first (parts.map fun part => ⟨f part, part.2⟩) =
      written first (parts.map fun part => ⟨g part, part.2⟩)) :
    ∀ part ∈ parts, f part = g part := by
  have hslots : (parts.flatMap fun part => f part ++ part.2) =
      parts.flatMap fun part => g part ++ part.2 := by
    simpa [written, List.flatMap_map] using h
  rcases Nat.le_total content.length content'.length with hle | hle
  · refine contents_eq_of_slots (fun part hpart => ?_) hslots
    rcases hone part hpart with heq | ⟨hcontent, hcontent'⟩
    · rw [heq]
    · rwa [hcontent, hcontent']
  · intro part hpart
    refine (contents_eq_of_slots (fun part hpart => ?_) hslots.symm part hpart).symm
    rcases hone part hpart with heq | ⟨hcontent, hcontent'⟩
    · rw [heq]
    · rwa [hcontent, hcontent']

/-- A pair of values for one name, in front of the others in either order. -/
theorem exists_perm_cons_cons {pair other : String × String} (hpair : pair ∈ values)
    (hother : other ∈ values) (hne : other ≠ pair) :
    ∃ rest, values.Perm (pair :: other :: rest) ∧ values.Perm (other :: pair :: rest) := by
  have hbehind : other ∈ values.erase pair := (List.mem_erase_of_ne hne).mpr hother
  have hfirst := (List.perm_cons_erase hpair).trans ((List.perm_cons_erase hbehind).cons pair)
  exact ⟨_, hfirst, hfirst.trans (.swap ..)⟩

/-- Two values for one name in the other order change the contents of the holes for that name only,
and put one of the two in the place of the other. -/
theorem content_of_swap {pair other : String × String} {rest : List (String × String)}
    (hsame : placeholderName pair.1 = placeholderName other.1) (name : List Char) :
    contentOf (pair :: other :: rest) name = contentOf (other :: pair :: rest) name ∨
      (contentOf (pair :: other :: rest) name = pair.2.toList ∧
        contentOf (other :: pair :: rest) name = other.2.toList) := by
  simp only [content_of_cons, ← hsame]
  by_cases hname : placeholderName pair.1 = String.ofList name
  · simp [hname]
  · simp [hname]

/-- Two values for the name of a hole are the same when a query in which one of them is first is
the query in which the other one is. -/
theorem value_eq_of_written {pair other : String × String} {rest : List (String × String)}
    {part : List Char × List Char} (hpart : part ∈ parts)
    (hname : String.ofList part.1 = placeholderName pair.1)
    (hsame : placeholderName pair.1 = placeholderName other.1)
    (h : written first (parts.map fun part => ⟨contentOf (pair :: other :: rest) part.1, part.2⟩) =
      written first (parts.map fun part =>
        ⟨contentOf (other :: pair :: rest) part.1, part.2⟩)) : pair.2 = other.2 := by
  have hcontent := contents_eq_of_written (fun part _ => content_of_swap hsame part.1) h part hpart
  rw [content_of_cons, if_pos hname.symm, content_of_cons,
    if_pos (hsame.symm.trans hname.symm)] at hcontent
  exact String.toList_inj.mp hcontent

/-- A library query that is filled in with values in one order is the same in every other order
exactly when the values for each of its placeholders are the same, as long as no value for a
placeholder brings in a token of a name that is given. -/
theorem render_perm_iff (ht : t ∈ library) (hinert : Inert (placeholders t.query) values) :
    (∀ values', values.Perm values' → t.render values' = t.render values) ↔
      Unambiguous (placeholders t.query) values := by
  have hform := (shape_of_mem_library t ht).dissection
  generalize (dissect t.query.toList).1 = first at hform
  generalize (dissect t.query.toList).2 = parts at hform
  have hrender : ∀ {values'}, values.Perm values' → (t.render values').toList =
      written first (parts.map fun part => ⟨contentOf values' part.1, part.2⟩) := by
    intro values' hperm
    rw [render, to_list_fill, hform.filled_query (hinert.perm hperm)]
  constructor
  · intro h pair hpair other hother hname hsame
    by_contra hdiffer
    have hne : other ≠ pair := fun heq => hdiffer (by rw [heq])
    obtain ⟨rest, hperm, hperm'⟩ := exists_perm_cons_cons hpair hother hne
    have heq := congrArg String.toList ((h _ hperm).trans (h _ hperm').symm)
    rw [hrender hperm, hrender hperm'] at heq
    obtain ⟨part, hpart, hpartname⟩ := hform.mem_placeholders_iff.mp hname
    exact hdiffer (value_eq_of_written hpart hpartname hsame heq)
  · intro h values' hperm
    rw [← String.toList_inj, hrender hperm, hrender (.refl _)]
    congr 1
    refine List.map_congr_left fun part hpart => ?_
    have hname : String.ofList part.1 ∈ placeholders t.query :=
      hform.mem_placeholders_iff.mpr ⟨part, hpart, rfl⟩
    rw [contentOf, contentOf, value_of_perm h hname hperm]

/-- Two addresses can be given in either order. -/
theorem render_perm_two_addresses :
    connectionsBetweenAddresses ∈ library ∧
    ∀ values', [("source_ip", "10.0.0.1"), (" Dest_IP", "10.0.0.2")].Perm values' →
      connectionsBetweenAddresses.render values' =
        connectionsBetweenAddresses.render
          [("source_ip", "10.0.0.1"), (" Dest_IP", "10.0.0.2")] := by
  have htoken : ∀ pair ∈ [("source_ip", "10.0.0.1"), (" Dest_IP", "10.0.0.2")],
      ∀ other ∈ [("source_ip", "10.0.0.1"), (" Dest_IP", "10.0.0.2")],
        occurs (exactly (token other.1)) pair.2.toList = false := by
    decide +kernel
  have hname : ∀ pair ∈ [("source_ip", "10.0.0.1"), (" Dest_IP", "10.0.0.2")],
      ∀ other ∈ [("source_ip", "10.0.0.1"), (" Dest_IP", "10.0.0.2")],
        placeholderName pair.1 = placeholderName other.1 → pair.2 = other.2 := by
    decide +kernel
  exact ⟨mem_library_connections_between_addresses,
    (render_perm_iff mem_library_connections_between_addresses
      fun pair hpair _ other hother => htoken pair hpair other hother).mpr
        fun pair hpair other hother _ hsame => hname pair hpair other hother hsame⟩

/-- Queries that differ in a character are different. -/
theorem render_ne_of_chars (hquery : t.query.toList = cs)
    (hne : filled values cs ≠ filled values' cs) : t.render values ≠ t.render values' := by
  intro heq
  refine hne ?_
  rw [← hquery, ← to_list_fill, ← to_list_fill]
  exact congrArg String.toList heq

/-- The order matters for names that differ in letter case only, and for a value that brings in the
token of another name. -/
theorem render_depends_on_order :
    (∃ t ∈ library, ∃ values values' : List (String × String),
      (values.map Prod.fst).Nodup ∧ values.Perm values' ∧
        (∀ pair ∈ values, '\x7b' ∉ pair.2.toList ∧ '\x7d' ∉ pair.2.toList) ∧
        t.render values ≠ t.render values') ∧
    ∃ t ∈ library, ∃ values values' : List (String × String),
      (values.map fun pair => placeholderName pair.1).Nodup ∧ values.Perm values' ∧
        t.render values ≠ t.render values' := by
  constructor
  · refine ⟨activityByUsername, mem_library_activity_by_username,
      [("username", "alice"), ("USERNAME", "bob")], [("USERNAME", "bob"), ("username", "alice")],
      by decide, .swap .., by decide, ?_⟩
    exact render_ne_of_chars
      (show (lines _).toList = _ by
        repeat' first
          | with_reducible apply chars_lines
          | with_reducible apply chars_line
          | with_reducible exact String.toList_ofList)
      (by decide +kernel)
  · refine ⟨connectionsBetweenAddresses, mem_library_connections_between_addresses,
      [("source_ip", "\x7b\x7bDEST_IP\x7d\x7d"), ("dest_ip", "10.0.0.1")],
      [("dest_ip", "10.0.0.1"), ("source_ip", "\x7b\x7bDEST_IP\x7d\x7d")],
      by decide +kernel, .swap .., ?_⟩
    exact render_ne_of_chars
      (show (lines _).toList = _ by
        repeat' first
          | with_reducible apply chars_lines
          | with_reducible apply chars_line
          | with_reducible apply chars_append
          | with_reducible exact String.toList_ofList)
      (by decide +kernel)

end Library

end Ariel.Template
