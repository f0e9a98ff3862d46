import Ariel.Proofs.Session.Typed
import Ariel.Proofs.Template.Assignment

/-!
# Modifying templates

A template is modified by typing a value for each of its placeholders, or nothing, and then a time
range, or nothing. `readings_modified` says which query is shown then.
-/

namespace Ariel.Session

open Ariel.Query Ariel.Text Ariel.Template

/-- What is typed at the prompts for the placeholders. -/
def valueLines (assignment : String → Option String) (names : List String) : List String :=
  names.map fun name => (assignment name).getD ""

/-- What is typed to set the time range to a text, or to keep it. -/
def timeLines : Option String → List String
  | none => [""]
  | some text => ["5", text]

/-- What is typed at a template to modify it. -/
def modifyLines (template : Template) (assignment : String → Option String)
    (time : Option String) : List String :=
  "m" :: (valueLines assignment (placeholders template.query) ++ timeLines time)

/-- What is shown with a modified query. -/
def modifiedPage (query : String) : String :=
  page ["", rule 60, "MODIFIED QUERY:", rule 60, query, rule 60, "", "[c] Copy to clipboard"]
    ++ "[Enter] Back: "

variable {ctx : Context} {memory : Memory} {template : Template} {query output line : String}
  {assignment : String → Option String} {names : List String} {time : Option String}
  {window : Window}

section Lines

/-- A neat text in one line can be typed. -/
theorem typable_of_neat (hneat : NeatText line) (hunbroken : '\n' ∉ line.toList) :
    Typable line := by
  refine ⟨hunbroken, fun hlast => ?_⟩
  have hends := (neat_iff_ends.mp hneat).2
  rw [hlast] at hends
  exact absurd hends (by decide)

/-- What is typed to modify a template can be typed. -/
theorem typable_modify_lines (hassigns : Assigns template.query assignment)
    (htime : TimeText time window) : ∀ line ∈ modifyLines template assignment time,
      Typable line := by
  have hempty : Typable "" := ⟨by decide, by decide⟩
  rw [modifyLines, List.forall_mem_cons, List.forall_mem_append]
  refine ⟨⟨by decide, by decide⟩, ?_, ?_⟩
  · intro line hline
    obtain ⟨name, -, rfl⟩ := List.mem_map.mp hline
    cases hvalue : assignment name with
    | none => exact hempty
    | some value => exact typable_of_neat (hassigns.neat hvalue) (hassigns.unbroken hvalue)
  · cases htime with
    | kept => simpa [timeLines] using hempty
    | changed hneat hunbroken _ =>
        have hfive : Typable "5" := ⟨by decide, by decide⟩
        simpa [timeLines] using ⟨hfive, typable_of_neat hneat hunbroken⟩

end Lines

section Answers

/-- A neat text is not empty. -/
theorem is_empty_of_neat (hneat : NeatText line) : line.isEmpty = false := by
  rw [← hneat.trimmed, is_empty_trim, hneat.filled]

/-- A value is filled in as it is typed, and the next one is asked for. -/
theorem answer_value (ctx : Context) (memory : Memory) (template : Template) (query name : String)
    (names : List String) (hneat : NeatText line) :
    answer ctx memory (.placeholderValue template query name names) line =
      askPlaceholders memory template (fill query [(name, line)]) "" names := by
  simp only [answer, answerPlaceholder, hneat.trimmed, is_empty_of_neat hneat, Bool.false_eq_true,
    if_false]

/-- A time range that is typed replaces the one of the query. -/
theorem answer_time (ctx : Context) (memory : Memory) (template : Template) (query : String)
    (hneat : NeatText line) (hparse : Window.parse line = .ok window) :
    answer ctx memory (.customTimeRange template query) line =
      openModified memory template (withWindow query window) "" := by
  simp only [answer, answerCustomTimeRange, hneat.trimmed, is_empty_of_neat hneat, hparse,
    Bool.false_eq_true, if_false]

/-- The first of several values is filled in before the others. -/
theorem fill_cons (query : String) (pair : String × String) (pairs : List (String × String)) :
    fill query (pair :: pairs) = fill (fill query [pair]) pairs := rfl

/-- The values that are typed are filled in one after the other. -/
theorem follow_value_lines (ctx : Context) (memory : Memory) (template : Template)
    (hneat : ∀ {name value}, assignment name = some value → NeatText value)
    (names : List String) (query output : String) :
    ∃ asked, follow ctx (askPlaceholders memory template query output names)
        (valueLines assignment names) =
      askTimeRange memory template (fill query (pairsOf assignment names)) asked := by
  induction names generalizing query output with
  | nil => exact ⟨output, rfl⟩
  | cons name names ih =>
      cases hvalue : assignment name with
      | none =>
          obtain ⟨asked, hasked⟩ := ih query ""
          refine ⟨asked, ?_⟩
          have hline : valueLines assignment (name :: names) =
              "" :: valueLines assignment names := by
            simp [valueLines, hvalue]
          have hpairs : pairsOf assignment (name :: names) = pairsOf assignment names := by
            simp [pairsOf, hvalue]
          rw [hline, hpairs, ← hasked]
          rfl
      | some value =>
          obtain ⟨asked, hasked⟩ := ih (fill query [(name, value)]) ""
          refine ⟨asked, ?_⟩
          have hline : valueLines assignment (name :: names) =
              value :: valueLines assignment names := by
            simp [valueLines, hvalue]
          have hpairs : pairsOf assignment (name :: names) =
              (name, value) :: pairsOf assignment names := by
            simp [pairsOf, hvalue]
          rw [hline, hpairs, fill_cons, ← hasked,
            ← answer_value ctx memory template query name names (hneat hvalue)]
          rfl

/-- The time range that is typed is put in the query. -/
theorem follow_time_lines (htime : TimeText time window) :
    follow ctx (askTimeRange memory template query output) (timeLines time) =
      openModified memory template (withWindow query window) "" := by
  cases htime with
  | kept => rfl
  | changed hneat _ hparse =>
      rw [← answer_time ctx memory template query hneat hparse]
      rfl

/-- A template is modified by what is typed. -/
theorem follow_modify_lines (hassigns : Assigns template.query assignment)
    (htime : TimeText time window) :
    follow ctx (openTemplate ctx memory template) (modifyLines template assignment time) =
      openModified memory template (withWindow
        (template.render (pairsOf assignment (placeholders template.query))) window) "" := by
  obtain ⟨asked, hasked⟩ := follow_value_lines ctx memory template hassigns.neat
    (placeholders template.query) template.query (banner ctx.settings "MODIFY TEMPLATE" 60
      ++ page ["", "Enter values for placeholders (press Enter to keep default):", ""])
  rw [← follow_time_lines htime, render, ← hasked, ← follow_append]
  rfl

end Answers

/-- The query that is shown when a template was modified. -/
theorem readings_modified (hassigns : Assigns template.query assignment)
    (htime : TimeText time window) (rest : String) :
    let lines := modifyLines template assignment time
    let query := withWindow
      (template.render (pairsOf assignment (placeholders template.query))) window
    (readings ctx (openTemplate ctx memory template)
        (Line.ofInput (page lines ++ rest).toUTF8))[lines.length]? =
      some ⟨memory, .modifiedChoice template query, modifiedPage query⟩ := by
  intro lines query
  rw [of_input_page (typable_modify_lines hassigns htime)]
  refine readings_follow ?_
  rw [follow_modify_lines hassigns htime, openModified, String.empty_append]
  rfl

end Ariel.Session
