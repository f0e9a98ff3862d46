import Ariel.Proofs.Query.Draft
import Ariel.Proofs.Template.FillingOrder
import Ariel.Query.Window.Parser

/-!
# Values for placeholders

An assignment gives values to some placeholders of a query. Pairs of keys and values can give it in
any order and under any spelling of the names (`Gives`). As long as the values bring in no braces, a
library query is filled in alike by all pairs that give the same assignment
(`render_eq_of_gives`).
-/

namespace Ariel.Template

open Ariel.Query Ariel.Text

variable {query name key : String} {assignment : String → Option String}
  {values values' : List (String × String)} {names : List String} {t : Template}

/-- Values for some placeholders of a query, as they can be typed on one line, and without
braces. -/
structure Assigns (query : String) (assignment : String → Option String) : Prop where
  known : ∀ {name value}, assignment name = some value → name ∈ placeholders query
  neat : ∀ {name value}, assignment name = some value → NeatText value
  braceless : ∀ {name value}, assignment name = some value →
    '\x7b' ∉ value.toList ∧ '\x7d' ∉ value.toList
  unbroken : ∀ {name value}, assignment name = some value → '\n' ∉ value.toList

/-- Pairs of keys and values that give an assignment. -/
def Gives (values : List (String × String)) (assignment : String → Option String) : Prop :=
  ∀ name value, assignment name = some value ↔
    ∃ pair ∈ values, placeholderName pair.1 = name ∧ pair.2 = value

/-- The text for a time range, or none, and the window that it is read as. -/
inductive TimeText : Option String → Window → Prop where
  | kept : TimeText none .unbounded
  | changed {text : String} {window : Window} : NeatText text → '\n' ∉ text.toList →
      Window.parse text = .ok window → TimeText (some text) window

section Spelling

/-- The name of a placeholder that is its own key, and that can stand in front of a value. -/
structure Spelled (name : List Char) : Prop where
  trimmed : trimmed name = name
  capitals : capitals name = name
  dash : '-' ∉ name
  equals : '=' ∉ name

instance (name : List Char) : Decidable (Spelled name) :=
  decidable_of_iff (Text.trimmed name = name ∧ Text.capitals name = name ∧ '-' ∉ name ∧ '=' ∉ name)
    ⟨fun h => ⟨h.1, h.2.1, h.2.2.1, h.2.2.2⟩, fun h => ⟨h.trimmed, h.capitals, h.dash, h.equals⟩⟩

/-- The spelling of placeholders is read off the characters of a query. -/
theorem spelled_of_chars {s : String} {cs : List Char} (hs : s.toList = cs)
    (h : ∀ part ∈ (dissect cs).2, Spelled part.1) :
    ∀ part ∈ (dissect s.toList).2, Spelled part.1 := hs ▸ h

/-- The placeholders of library queries are spelled in this way. -/
theorem spelled_of_mem_library : ∀ t ∈ library, ∀ part ∈ (dissect t.query.toList).2,
    Spelled part.1 := by
  simp only [library, authenticationTemplates, networkTemplates, threatTemplates, systemTemplates,
    windowsTemplates, investigationTemplates, List.cons_append, List.nil_append,
    List.forall_mem_cons, List.not_mem_nil, false_imp_iff, implies_true, and_true]
  repeat' apply And.intro
  all_goals
    exact spelled_of_chars
      (by
        repeat' first
          | with_reducible apply chars_lines
          | with_reducible apply chars_line
          | with_reducible apply chars_append
          | with_reducible exact String.toList_ofList)
      (by decide +kernel)

theorem spelled_of_placeholder (ht : t ∈ library) (hname : name ∈ placeholders t.query) :
    Spelled name.toList := by
  obtain ⟨part, hpart, rfl⟩ :=
    (shape_of_mem_library t ht).dissection.mem_placeholders_iff.mp hname
  rw [String.toList_ofList]
  exact spelled_of_mem_library t ht part hpart

/-- A placeholder of a library query is its own key. -/
theorem placeholder_name_self (ht : t ∈ library) (hname : name ∈ placeholders t.query) :
    placeholderName name = name := by
  have hspelled := spelled_of_placeholder ht hname
  rw [← String.toList_inj, placeholderName, upper, String.toList_ofList, to_list_trim,
    hspelled.trimmed, hspelled.capitals]

end Spelling

section Gives

/-- All pairs for one name give the same value. -/
theorem Gives.unambiguous (h : Gives values assignment) : Unambiguous names values := by
  intro pair hpair other hother _ hsame
  have hvalue := (h _ _).mpr ⟨pair, hpair, rfl, rfl⟩
  have hother := (h _ _).mpr ⟨other, hother, hsame.symm, rfl⟩
  exact Option.some.inj (hvalue.symm.trans hother)

/-- The first value for a name is the one that is assigned to it. -/
theorem Gives.value_of (h : Gives values assignment) (name : String) :
    valueOf? values name = assignment name := by
  refine Option.ext fun value => ?_
  rw [value_of_eq_some_iff h.unambiguous (List.mem_singleton_self name), h]

/-- Values without braces bring in no tokens. -/
theorem Gives.inert (h : Gives values assignment) (hassigns : Assigns query assignment) :
    Inert names values := by
  intro pair hpair _ other _
  have hvalue := (h _ _).mpr ⟨pair, hpair, rfl, rfl⟩
  have hnone : occurrences (exactly (token other.1)) pair.2.toList = [] := by
    refine occurrences_exactly_eq_nil fun front back heq => (hassigns.braceless hvalue).1 ?_
    have hbrace := List.mem_of_mem_head? (head_token other.1)
    rw [heq]
    exact List.mem_append_right _ (List.mem_append_left _ hbrace)
  rw [occurs, hnone]
  rfl

/-- Pairs that give the same assignment fill in a library query alike. -/
theorem render_eq_of_gives (ht : t ∈ library) (hassigns : Assigns t.query assignment)
    (h : Gives values assignment) (h' : Gives values' assignment) :
    t.render values = t.render values' := by
  have hform := (shape_of_mem_library t ht).dissection
  rw [← String.toList_inj, render, render, to_list_fill, to_list_fill,
    hform.filled_query (h.inert hassigns), hform.filled_query (h'.inert hassigns)]
  simp only [contentOf, h.value_of, h'.value_of]

/-- The pairs of an assignment, in the order of the names. -/
def pairsOf (assignment : String → Option String) (names : List String) :
    List (String × String) :=
  names.filterMap fun name => (assignment name).map (name, ·)

/-- The pairs for all placeholders of a library query give the assignment. -/
theorem gives_pairs_of (ht : t ∈ library) (hassigns : Assigns t.query assignment) :
    Gives (pairsOf assignment (placeholders t.query)) assignment := by
  intro name value
  simp only [pairsOf, List.mem_filterMap, Option.map_eq_some_iff]
  constructor
  · intro hvalue
    have hname := hassigns.known hvalue
    exact ⟨(name, value), ⟨name, hname, value, hvalue, rfl⟩, placeholder_name_self ht hname, rfl⟩
  · rintro ⟨pair, ⟨name, hname, value, hvalue, rfl⟩, rfl, rfl⟩
    rwa [placeholder_name_self ht hname]

end Gives

end Ariel.Template
