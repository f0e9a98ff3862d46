import Ariel.Proofs.Query.Draft
import Ariel.Proofs.Session.Conversation
import Ariel.Proofs.Text.Reader

/-!
# Dialogues change their own part

A choice in one of the two menus opens a dialogue, which lasts until the session waits at a menu
again. `visit` lists the readings of it. `visit_frame` says what a dialogue may do to the draft: a
dialogue about a part changes that part at most, and no earlier than at its last question; an answer
that is refused changes nothing; and outside of such dialogues nothing changes at all.
-/

namespace Ariel.Session

open Ariel.Query Ariel.Text

/-- Two drafts that may differ in one part, and in no other. -/
def DiffersIn (draft edited : Draft) : Part → Prop
  | .columns => ∃ columns, edited = { draft with columns := columns }
  | .table => ∃ table, edited = { draft with table := table }
  | .conditions => ∃ conditions, edited = { draft with conditions := conditions }
  | .groupBy => ∃ groupBy, edited = { draft with groupBy := groupBy }
  | .having => ∃ having, edited = { draft with having := having }
  | .orderBy => ∃ orderBy, edited = { draft with orderBy := orderBy }
  | .limit => ∃ limit, edited = { draft with limit := limit }
  | .window => ∃ window, edited = { draft with window := window }

/-- The session that waits at a moment. -/
def Moment.waiting (moment : Moment) : Progress :=
  .asking moment.memory moment.prompt moment.output

/-- The moments up to the first at which a session waits at a menu. -/
def upToMenu : List Moment → List Moment
  | [] => []
  | moment :: moments =>
      if moment.prompt.isMenu then [moment] else moment :: upToMenu moments

/-- The readings until a session waits at a menu again. -/
def visit (ctx : Context) (progress : Progress) (lines : List Line) : List Moment :=
  upToMenu (readings ctx progress lines)

/-- The answers that a prompt refuses: a limit or an amount that is no positive number, a magnitude
that is not on its scale or is compared in an unknown way, a datetime that is none, and a number
that no predicate has. -/
inductive Refused (draft : Draft) : Prompt → String → Prop where
  | limit {typed} : typed ≠ "" →
      (∀ n, numeral? UInt32.size typed.toList = some n → n = 0) → Refused draft .limit typed
  | operator {operator typed} : trim operator ∉ Condition.numericOperators →
      Refused draft (.magnitudeValue operator) typed
  | magnitude {operator typed} :
      (∀ n, numeral? 256 (orElse typed "5").toList = some n → n < 1 ∨ 10 < n) →
      Refused draft (.magnitudeValue operator) typed
  | amount {amount typed} : (∀ n, numeral? UInt32.size amount.toList = some n → n = 0) →
      Refused draft (.timeUnit amount) typed
  | datetime {start typed} : (Window.absolute start (some typed)).check ≠ .ok () →
      Refused draft (.stopTime start) typed
  | number {which typed} :
      (∀ n, numeral? UInt64.size typed.toList = some n →
        n < 1 ∨ (predicates draft which).length < n) →
      Refused draft (.removal which) typed

section Step

variable {ctx : Context} {memory : Memory} {draft edited : Draft} {prompt : Prompt}
  {part : Part} {typed : String}

theorem DiffersIn.refl (draft : Draft) (part : Part) : DiffersIn draft draft part := by
  cases part <;> exact ⟨_, rfl⟩

theorem differs_in_add_condition {text : String} (h : draft.addCondition? text = some edited) :
    DiffersIn draft edited .conditions := by
  obtain ⟨conditions, -, rfl⟩ := Option.map_eq_some_iff.mp h
  exact ⟨_, rfl⟩

theorem differs_in_filter_groups (draft : Draft) (text : String) :
    DiffersIn draft (draft.filterGroups text) .having := by
  unfold Draft.filterGroups
  cases hadd : draft.addHaving? text with
  | none => exact .refl draft .having
  | some edited =>
      obtain ⟨having, -, rfl⟩ := Option.map_eq_some_iff.mp hadd
      exact ⟨_, rfl⟩

/-- A removal takes one predicate out of its list, and leaves the others in their order. -/
theorem remove_predicate_spec {which : Predicates} {index : Nat} {removed : String}
    (h : removePredicate? draft which index = some (removed, edited)) :
    DiffersIn draft edited which.part ∧ ∃ front back,
      predicates draft which = front ++ removed :: back ∧ front.length = index ∧
        predicates edited which = front ++ back := by
  cases which with
  | rows =>
      obtain ⟨⟨_, conditions⟩, hconditions, heq⟩ := Option.map_eq_some_iff.mp h
      obtain ⟨rfl, rfl⟩ := Prod.mk.inj heq
      exact ⟨⟨_, rfl⟩, remove_at_eq_some_iff.mp hconditions⟩
  | groups =>
      obtain ⟨⟨_, having⟩, hhaving, heq⟩ := Option.map_eq_some_iff.mp h
      obtain ⟨rfl, rfl⟩ := Prod.mk.inj heq
      exact ⟨⟨_, rfl⟩, remove_at_eq_some_iff.mp hhaving⟩

/-- A predicate can be removed exactly when it is in its list. -/
theorem is_some_remove_predicate_iff {which : Predicates} {index : Nat} :
    (removePredicate? draft which index).isSome = true ↔
      index < (predicates draft which).length := by
  cases which <;> simp [removePredicate?, Draft.removeCondition?, Draft.removeHaving?, removeAt?,
    predicates]

/-- An edit at a prompt changes the part that its dialogue is about. -/
theorem Edit.differs_in (h : Edit draft prompt edited) (hpart : prompt.part? = some part) :
    DiffersIn draft edited part := by
  cases h <;> obtain rfl := Option.some.inj hpart
  case columns => exact ⟨_, rfl⟩
  case table => exact ⟨_, rfl⟩
  case condition h => exact differs_in_add_condition h
  case magnitude h => exact differs_in_add_condition h
  case groupCondition text => exact differs_in_filter_groups draft text
  case removal h => exact (remove_predicate_spec h).1
  case clearConditions => exact ⟨_, rfl⟩
  case clearHaving => exact ⟨_, rfl⟩
  case groupBy => exact ⟨_, rfl⟩
  case orderBy entries direction =>
    show DiffersIn draft (draft.setOrderBy _ direction) .orderBy
    unfold Draft.setOrderBy
    split <;> exact ⟨_, rfl⟩
  case clearLimit => exact ⟨_, rfl⟩
  case limit h =>
    unfold Draft.setLimit at h
    split at h
    next => cases h
    next =>
      obtain rfl := Except.ok.inj h
      exact ⟨_, rfl⟩
  case noWindow => exact ⟨_, rfl⟩
  case relativeWindow => exact ⟨_, rfl⟩
  case absoluteWindow => exact ⟨_, rfl⟩

/-- A number that is read is below the bound. -/
theorem lt_of_numeral {below n : Nat} {cs : List Char} (h : numeral? below cs = some n) :
    n < below := by
  obtain ⟨-, -, -, -, -, hlt⟩ := numeral_eq_some_iff.mp h
  exact hlt

/-- A condition on the magnitude is refused with an unknown operator and off the scale. -/
theorem magnitude_ne_ok {operator condition : String} {n : Nat} (hn : n < 256)
    (h : trim operator ∉ Condition.numericOperators ∨ n < 1 ∨ 10 < n) :
    Condition.magnitude operator (UInt8.ofNat n) ≠ .ok condition := by
  have hvalue : (UInt8.ofNat n).toNat = n := UInt8.toNat_ofNat_of_lt' hn
  unfold Condition.magnitude
  dsimp only
  rw [hvalue]
  split
  next => nofun
  next hknown =>
    split
    next => nofun
    next hscale =>
      simp only [List.contains_eq_mem, Bool.not_eq_true', decide_eq_false_iff_not,
        Classical.not_not] at hknown
      simp only [Bool.or_eq_true, decide_eq_true_eq] at hscale
      rcases h with h | h
      · exact absurd hknown h
      · exact absurd h hscale

variable (ctx : Context) (memory : Memory) (typed : String)

theorem settles_refused_limit (hne : typed ≠ "")
    (h : ∀ n, numeral? UInt32.size typed.toList = some n → n = 0) :
    (answerLimit ctx memory typed).Settles memory.draft := by
  unfold answerLimit
  split
  next hempty => exact absurd (String.isEmpty_iff.mp hempty) hne
  next =>
    split
    next => exact settles_pause_then
    next n hn =>
      obtain rfl := h n hn
      exact settles_pause_then

theorem settles_refused_magnitude {operator : String}
    (h : trim operator ∉ Condition.numericOperators ∨
      ∀ n, numeral? 256 (orElse typed "5").toList = some n → n < 1 ∨ 10 < n) :
    (answerMagnitudeValue ctx memory operator typed).Settles memory.draft := by
  dsimp only [answerMagnitudeValue]
  split
  next => exact settles_pause_then
  next n hn =>
    split
    next => exact settles_pause_then
    next condition hcondition =>
      exact absurd hcondition (magnitude_ne_ok (lt_of_numeral hn) (h.imp_right fun h => h n hn))

theorem settles_refused_amount {amount : String}
    (h : ∀ n, numeral? UInt32.size amount.toList = some n → n = 0) :
    (answerTimeUnit ctx memory amount typed).Settles memory.draft := by
  dsimp only [answerTimeUnit]
  split
  next => exact settles_pause_then
  next n hn =>
    obtain rfl := h n hn
    exact settles_pause_then

theorem settles_refused_datetime {start : String}
    (h : (Window.absolute start (some typed)).check ≠ .ok ()) :
    (answerStopTime ctx memory start typed).Settles memory.draft := by
  unfold answerStopTime setSoundWindow
  split
  next => exact settles_go_to
  next =>
    split
    next window hwindow =>
      exact absurd (Window.check_eq_ok_iff.mpr (Window.between_eq_ok_iff.mp hwindow).2) h
    next => exact settles_pause_then

theorem settles_refused_number {which : Predicates}
    (h : ∀ n, numeral? UInt64.size typed.toList = some n →
      n < 1 ∨ (predicates memory.draft which).length < n) :
    (answerRemoval memory which typed).Settles memory.draft := by
  dsimp only [answerRemoval]
  split
  next => exact settles_pause_then
  next =>
    split
    next removed edited hremoved =>
      split at hremoved
      next index hindex =>
        have hlt := is_some_remove_predicate_iff.mp (Option.isSome_of_eq_some hremoved)
        have := h _ hindex
        omega
      next => cases hremoved
    next => exact settles_pause_then

/-- Only a prompt of a dialogue about a part refuses answers. -/
theorem Refused.isSome_part (h : Refused draft prompt typed) : prompt.part?.isSome = true := by
  cases h <;> rfl

/-- Where an answer is refused, the draft is left as it is. -/
theorem settles_of_refused {line : String} (h : Refused memory.draft prompt (trim line)) :
    (answer ctx memory prompt line).Settles memory.draft := by
  unfold answer
  cases h with
  | limit hne hlimit => exact settles_refused_limit ctx memory (trim line) hne hlimit
  | operator h => exact settles_refused_magnitude ctx memory (trim line) (.inl h)
  | magnitude h => exact settles_refused_magnitude ctx memory (trim line) (.inr h)
  | amount h => exact settles_refused_amount ctx memory (trim line) h
  | datetime h => exact settles_refused_datetime ctx memory (trim line) h
  | number h => exact settles_refused_number memory (trim line) h

/-- A removal by a number of the list is made. -/
theorem settles_removal {which : Predicates} {index : Nat}
    {line : String} (hnumber : numeral? UInt64.size (trim line).toList = some (index + 1))
    (hindex : index < (predicates memory.draft which).length) :
    ∃ removed edited, removePredicate? memory.draft which index = some (removed, edited) ∧
      (answer ctx memory (.removal which) line).Settles edited := by
  obtain ⟨⟨removed, edited⟩, hremoved⟩ :=
    Option.isSome_iff_exists.mp (is_some_remove_predicate_iff.mpr hindex)
  refine ⟨removed, edited, hremoved, ?_⟩
  have heq : answerRemoval memory which (trim line) =
      pauseThen { memory with draft := edited } .builder (page ["", "  Removed: " ++ removed]) := by
    dsimp only [answerRemoval]
    split
    next hempty =>
      rw [String.isEmpty_iff.mp hempty] at hnumber
      cases hnumber
    next => simp only [hnumber, hremoved]
  show (answerRemoval memory which (trim line)).Settles edited
  rw [heq]
  exact ⟨rfl, rfl, trivial⟩

/-- A turn in a dialogue about a part asks on there with the draft as it is, or ends the dialogue
with a draft that differs in this part at most. -/
theorem Progress.Turns.asks_or_settles {progress : Progress} (h : progress.Turns draft prompt)
    (hpart : prompt.part? = some part) : progress.Asks draft (some part) ∨
      ∃ edited, DiffersIn draft edited part ∧ progress.Settles edited := by
  obtain ⟨memory, next, output, rfl, hturn⟩ := h.exists_asking
  generalize hafter : memory.draft = after at hturn
  cases hturn with
  | edit hedit hnext =>
      exact .inr ⟨after, hedit.differs_in hpart, hafter, hnext, holds_of_part hnext⟩
  | ask hnext hholds =>
      cases hnone : next.part? with
      | none => exact .inr ⟨draft, .refl draft part, hafter, hnone, hholds⟩
      | some other =>
          obtain rfl : part = other := Option.some.inj (hpart.symm.trans (hnext other hnone))
          exact .inl ⟨hafter, hnone, hholds⟩

/-- Without a dialogue about a part, no turn changes the draft. -/
theorem Progress.Turns.settles {progress : Progress} (h : progress.Turns draft prompt)
    (hpart : prompt.part? = none) : progress.Settles draft := by
  obtain ⟨memory, next, output, rfl, hturn⟩ := h.exists_asking
  generalize hafter : memory.draft = after at hturn
  cases hturn with
  | edit hedit => cases hedit <;> cases hpart
  | ask hnext hholds =>
      refine ⟨hafter, Option.eq_none_iff_forall_not_mem.mpr fun part hmem => ?_, hholds⟩
      cases hpart.symm.trans (hnext part hmem)

end Step

section Run

variable {ctx : Context} {progress : Progress} {draft : Draft} {part : Part} {moment : Moment}
  {lines : List Line} {i : Nat}

section Reading

variable {memory : Memory} {prompt : Prompt} {output : String}

theorem visit_finished (lines : List Line) : visit ctx (.finished memory output) lines = [] := by
  cases lines <;> rfl

theorem visit_menu (hmenu : prompt.isMenu = true) (lines : List Line) :
    visit ctx (.asking memory prompt output) lines = [⟨memory, prompt, output⟩] := by
  have hfirst : ∀ moments, upToMenu (⟨memory, prompt, output⟩ :: moments) =
      [⟨memory, prompt, output⟩] := fun moments => if_pos hmenu
  cases lines with
  | nil => exact hfirst _
  | cons line lines => cases line <;> exact hfirst _

theorem visit_text (hmenu : prompt.isMenu = false) (text : String) (lines : List Line) :
    visit ctx (.asking memory prompt output) (.text text :: lines) =
      ⟨memory, prompt, output⟩ :: visit ctx (answer ctx memory prompt text) lines := by
  simp [visit, readings, upToMenu, hmenu]

theorem visit_undecodable (lines : List Line) :
    visit ctx (.asking memory prompt output) (.undecodable :: lines) =
      [⟨memory, prompt, output⟩] := by
  simp [visit, readings, upToMenu]

theorem visit_nil (hmenu : prompt.isMenu = false) :
    visit ctx (.asking memory prompt output) [] =
      ⟨memory, prompt, output⟩ :: visit ctx (answerEnd ctx memory prompt) [] := by
  simp [visit, readings_nil, upToMenu, hmenu]

/-- A session that waits at a prompt reads there. -/
theorem visit_asking (ctx : Context) (memory : Memory) (prompt : Prompt) (output : String)
    (lines : List Line) : ∃ moments,
      visit ctx (.asking memory prompt output) lines = ⟨memory, prompt, output⟩ :: moments := by
  cases hmenu : prompt.isMenu with
  | true => exact ⟨[], visit_menu hmenu lines⟩
  | false =>
      cases lines with
      | nil => exact ⟨_, visit_nil hmenu⟩
      | cons line lines =>
          cases line with
          | text text => exact ⟨_, visit_text hmenu text lines⟩
          | undecodable => exact ⟨[], visit_undecodable lines⟩

end Reading

/-- At the end of the input nothing is edited. -/
theorem visit_end (ctx : Context) (memory : Memory) (prompt : Prompt) :
    ∀ moment ∈ visit ctx (answerEnd ctx memory prompt) [],
      moment.memory.draft = memory.draft ∧ moment.prompt.part? = none := by
  intro moment hmoment
  rcases answer_end_eq ctx memory prompt with hend | ⟨next, asked, hend, hpart, hagain⟩
  · rw [hend] at hmoment
    cases hmoment
  · rw [hend] at hmoment
    have hmoment : moment = ⟨memory, next, asked⟩ := by
      cases hmenu : next.isMenu with
      | true =>
          rw [visit_menu hmenu] at hmoment
          exact List.mem_singleton.mp hmoment
      | false =>
          rw [visit_nil hmenu, hagain] at hmoment
          exact List.mem_singleton.mp hmoment
    subst hmoment
    exact ⟨rfl, hpart⟩

/-- At the end of the input a session keeps what it has. -/
theorem converse_end (ctx : Context) (memory : Memory) (prompt : Prompt) (output : String) :
    (converse ctx (.asking memory prompt output) []).memory = memory := by
  rw [converse_nil]
  rcases answer_end_eq ctx memory prompt with hend | ⟨next, asked, hend, -, hagain⟩
  · rw [hend]
    rfl
  · rw [hend, converse_nil, hagain]
    rfl

/-- Outside of the dialogues about its parts the draft stays as it is, and so does the session until
it waits at a menu. -/
theorem visit_of_settles (h : progress.Settles draft) :
    ∀ moment ∈ visit ctx progress lines,
      moment.memory.draft = draft ∧ moment.prompt.part? = none := by
  induction lines generalizing progress with
  | nil =>
      obtain ⟨memory, prompt, output, rfl, rfl, hpart, -⟩ := h.exists_asking
      cases hmenu : prompt.isMenu with
      | true => simp [visit_menu hmenu, hpart]
      | false =>
          rw [visit_nil hmenu, List.forall_mem_cons]
          exact ⟨⟨rfl, hpart⟩, visit_end ctx memory prompt⟩
  | cons line lines ih =>
      obtain ⟨memory, prompt, output, rfl, rfl, hpart, -⟩ := h.exists_asking
      cases hmenu : prompt.isMenu with
      | true => simp [visit_menu hmenu, hpart]
      | false =>
          cases line with
          | undecodable => simp [visit_undecodable, hpart]
          | text text =>
              rw [visit_text hmenu, List.forall_mem_cons]
              exact ⟨⟨rfl, hpart⟩, ih ((turns_answer ctx memory text hmenu).settles hpart)⟩

/-- A dialogue about a part asks with the draft as it was, and goes on with a draft that differs in
this part at most. -/
theorem visit_split (lines : List Line) (h : progress.Asks draft (some part)) :
    ∃ front back edited, visit ctx progress lines = front ++ back ∧
      (∀ moment ∈ front, moment.memory.draft = draft ∧ moment.prompt.part? = some part) ∧
      (∀ moment ∈ back, moment.memory.draft = edited ∧ moment.prompt.part? = none) ∧
      DiffersIn draft edited part := by
  induction lines generalizing progress with
  | nil =>
      obtain ⟨memory, prompt, output, rfl, rfl, hpart, -⟩ := h.exists_asking
      refine ⟨[⟨memory, prompt, output⟩], visit ctx (answerEnd ctx memory prompt) [], memory.draft,
        ?_, ?_, ?_, .refl memory.draft part⟩
      · rw [visit_nil (is_menu_of_part hpart), List.singleton_append]
      · simp [hpart]
      · exact visit_end ctx memory prompt
  | cons line lines ih =>
      obtain ⟨memory, prompt, output, rfl, rfl, hpart, -⟩ := h.exists_asking
      cases line with
      | undecodable =>
          exact ⟨[⟨memory, prompt, output⟩], [], memory.draft, visit_undecodable lines,
            by simp [hpart], List.forall_mem_nil _, .refl memory.draft part⟩
      | text text =>
          have hmenu := is_menu_of_part hpart
          rw [visit_text hmenu]
          rcases (turns_answer ctx memory text hmenu).asks_or_settles hpart with
            hasks | ⟨edited, hdiffers, hsettles⟩
          · obtain ⟨front, back, edited, heq, hfront, hback⟩ := ih hasks
            exact ⟨⟨memory, prompt, output⟩ :: front, back, edited, by rw [heq, List.cons_append],
              List.forall_mem_cons.mpr ⟨⟨rfl, hpart⟩, hfront⟩, hback⟩
          · exact ⟨[⟨memory, prompt, output⟩], visit ctx (answer ctx memory prompt text) lines,
              edited, rfl, by simp [hpart], visit_of_settles hsettles, hdiffers⟩

/-- Where a dialogue about a part waits at one of its prompts, nothing has been edited yet, and the
session goes on from there over the lines that are left. -/
theorem visit_from (h : progress.Asks draft (some part))
    (hmoment : (visit ctx progress lines)[i]? = some moment)
    (hpart : moment.prompt.part?.isSome = true) :
    moment.memory.draft = draft ∧
      (∀ earlier ∈ (visit ctx progress lines).take i, earlier.memory.draft = draft) ∧
      (visit ctx progress lines).drop i = visit ctx moment.waiting (lines.drop i) ∧
      (converse ctx progress lines).memory =
        (converse ctx moment.waiting (lines.drop i)).memory := by
  induction i generalizing progress lines with
  | zero =>
      obtain ⟨memory, prompt, output, rfl, rfl, hprompt, -⟩ := h.exists_asking
      obtain ⟨moments, hmoments⟩ := visit_asking ctx memory prompt output lines
      obtain rfl : ⟨memory, prompt, output⟩ = moment := by simpa [hmoments] using hmoment
      exact ⟨rfl, by simp, rfl, rfl⟩
  | succ i ih =>
      obtain ⟨memory, prompt, output, rfl, rfl, hprompt, -⟩ := h.exists_asking
      have hmenu := is_menu_of_part hprompt
      cases lines with
      | nil =>
          rw [visit_nil hmenu, List.getElem?_cons_succ] at hmoment
          have hnone := (visit_end ctx memory prompt moment (List.mem_of_getElem? hmoment)).2
          rw [hnone] at hpart
          cases hpart
      | cons line lines =>
          cases line with
          | undecodable => simp [visit_undecodable] at hmoment
          | text text =>
              rw [visit_text hmenu, List.getElem?_cons_succ] at hmoment
              rw [visit_text hmenu, List.take_succ_cons, List.drop_succ_cons, List.drop_succ_cons,
                List.forall_mem_cons, converse]
              rcases (turns_answer ctx memory text hmenu).asks_or_settles hprompt with
                hasks | ⟨edited, -, hsettles⟩
              · obtain ⟨hdraft, hearlier, hdrop, hconverse⟩ := ih hasks hmoment
                exact ⟨hdraft, ⟨rfl, hearlier⟩, hdrop, hconverse⟩
              · have hnone := (visit_of_settles hsettles moment (List.mem_of_getElem? hmoment)).2
                rw [hnone] at hpart
                cases hpart

/-- An answer at a prompt of a dialogue about a part decides what comes after it. Before it nothing
has been edited. -/
theorem visit_answered {line : String} (h : progress.Asks draft (some part))
    (hmoment : (visit ctx progress lines)[i]? = some moment)
    (hpart : moment.prompt.part?.isSome = true) (hline : lines[i]? = some (.text line)) :
    moment.memory.draft = draft ∧
      (∀ earlier ∈ (visit ctx progress lines).take (i + 1), earlier.memory.draft = draft) ∧
      (visit ctx progress lines).drop (i + 1) =
        visit ctx (answer ctx moment.memory moment.prompt line) (lines.drop (i + 1)) := by
  obtain ⟨hdraft, hearlier, hdrop, -⟩ := visit_from h hmoment hpart
  obtain ⟨part, hpart⟩ := Option.isSome_iff_exists.mp hpart
  obtain ⟨hlt, hget⟩ := List.getElem?_eq_some_iff.mp hline
  rw [List.drop_eq_getElem_cons hlt, hget, Moment.waiting,
    visit_text (is_menu_of_part hpart)] at hdrop
  refine ⟨hdraft, fun earlier hmem => ?_, ?_⟩
  · rw [List.take_add_one, hmoment] at hmem
    rcases List.mem_append.mp hmem with hmem | hmem
    · exact hearlier earlier hmem
    · rw [List.mem_singleton.mp hmem]
      exact hdraft
  · rw [← List.tail_drop, hdrop]
    rfl

/-- Where the input breaks off a dialogue about a part, nothing has been edited. -/
theorem visit_broken_off (h : progress.Asks draft (some part))
    (hmoment : (visit ctx progress lines)[i]? = some moment)
    (hpart : moment.prompt.part?.isSome = true)
    (hline : lines[i]? = none ∨ lines[i]? = some .undecodable) :
    (∀ met ∈ visit ctx progress lines, met.memory.draft = draft) ∧
      (converse ctx progress lines).memory.draft = draft := by
  obtain ⟨hdraft, hearlier, hdrop, hconverse⟩ := visit_from h hmoment hpart
  obtain ⟨part, hpart⟩ := Option.isSome_iff_exists.mp hpart
  suffices hrest : (∀ met ∈ visit ctx moment.waiting (lines.drop i), met.memory.draft = draft) ∧
      (converse ctx moment.waiting (lines.drop i)).memory.draft = draft by
    refine ⟨fun met hmet => ?_, by rw [hconverse]; exact hrest.2⟩
    rw [← List.take_append_drop i (visit ctx progress lines), List.mem_append, hdrop] at hmet
    exact hmet.elim (hearlier met) (hrest.1 met)
  unfold Moment.waiting
  rcases hline with hline | hline
  · rw [List.drop_eq_nil_of_le (List.getElem?_eq_none_iff.mp hline),
      visit_nil (is_menu_of_part hpart), List.forall_mem_cons, converse_end]
    exact ⟨⟨hdraft, fun met hmet => (visit_end _ _ _ met hmet).1.trans hdraft⟩, hdraft⟩
  · obtain ⟨hlt, hget⟩ := List.getElem?_eq_some_iff.mp hline
    rw [List.drop_eq_getElem_cons hlt, hget, visit_undecodable]
    exact ⟨by simpa using hdraft, hdraft⟩

variable {memory : Memory} {choice : String}

/-- Only a dialogue about a part waits at a prompt of one. -/
theorem exists_asks (hmoment : moment ∈ visit ctx (answer ctx memory .builderMenu choice) lines)
    (hpart : moment.prompt.part?.isSome = true) :
    ∃ part, (answer ctx memory .builderMenu choice).Asks memory.draft (some part) := by
  have hother : ∀ draft, ¬ (answer ctx memory .builderMenu choice).Settles draft :=
    fun draft hsettles => by
      rw [(visit_of_settles hsettles moment hmoment).2] at hpart
      cases hpart
  by_cases hclear : lowercase (trim choice) = "9"
  · exact absurd (settles_restart ctx memory _ hclear) (hother _)
  · have hasks := asks_builder ctx memory _ hclear
    cases hchosen : chosenPart? (lowercase (trim choice)) with
    | none =>
        rw [hchosen] at hasks
        exact absurd hasks (hother _)
    | some part =>
        rw [hchosen] at hasks
        exact ⟨part, hasks⟩

/-- A dialogue about a part changes that part at most, and asks its questions with the draft as it
was. -/
theorem visit_of_part (h : progress.Asks draft (some part)) :
    ∀ moment ∈ visit ctx progress lines, DiffersIn draft moment.memory.draft part ∧
      (moment.prompt.part?.isSome = true → moment.memory.draft = draft) := by
  obtain ⟨front, back, edited, hvisit, hfront, hback, hdiffers⟩ := visit_split lines h
  intro moment hmoment
  rw [hvisit] at hmoment
  rcases List.mem_append.mp hmoment with hmoment | hmoment
  · obtain ⟨hdraft, -⟩ := hfront moment hmoment
    rw [hdraft]
    exact ⟨.refl draft part, fun _ => rfl⟩
  · obtain ⟨hdraft, hpart⟩ := hback moment hmoment
    rw [hdraft, hpart]
    exact ⟨hdiffers, nofun⟩

/-- The main menu leaves the draft as it is, unless the builder is entered. -/
theorem visit_main_menu (hentry : trim choice ≠ "1") :
    ∀ moment ∈ visit ctx (answer ctx memory .mainMenu choice) lines,
      moment.memory.draft = memory.draft := by
  intro moment hmoment
  have hanswer : answer ctx memory .mainMenu choice =
      answerMainMenu ctx memory (trim choice) := rfl
  rw [hanswer] at hmoment
  by_cases hexit : trim choice = "0"
  · rw [hexit, answerMainMenu, visit_finished] at hmoment
    cases hmoment
  · exact (visit_of_settles (settles_main_menu ctx memory _ hexit hentry) moment hmoment).1

/-- Where an answer is refused, the draft is the one before the dialogue, all along. -/
theorem visit_refused {line : String} (h : progress.Asks draft (some part))
    (hmoment : (visit ctx progress lines)[i]? = some moment) (hline : lines[i]? = some (.text line))
    (hrefused : Refused moment.memory.draft moment.prompt (trim line)) :
    ∀ met ∈ visit ctx progress lines, met.memory.draft = draft := by
  obtain ⟨hdraft, hearlier, hdrop⟩ := visit_answered h hmoment hrefused.isSome_part hline
  intro met hmet
  rw [← List.take_append_drop (i + 1) (visit ctx progress lines), List.mem_append, hdrop] at hmet
  rcases hmet with hmet | hmet
  · exact hearlier met hmet
  · have hsettles := settles_of_refused ctx moment.memory hrefused
    exact (visit_of_settles hsettles met hmet).1.trans hdraft

/-- Where a predicate is removed by its number, the others are kept in their order. -/
theorem visit_removal {line : String} {which : Predicates} {index : Nat}
    (h : progress.Asks draft (some part))
    (hmoment : (visit ctx progress lines)[i]? = some moment) (hline : lines[i]? = some (.text line))
    (hprompt : moment.prompt = .removal which)
    (hnumber : numeral? UInt64.size (trim line).toList = some (index + 1))
    (hindex : index < (predicates draft which).length) :
    ∃ front removed back, predicates draft which = front ++ removed :: back ∧
      front.length = index ∧
      ∀ later ∈ (visit ctx progress lines).drop (i + 1),
        predicates later.memory.draft which = front ++ back := by
  have hpart : moment.prompt.part?.isSome = true := by rw [hprompt]; rfl
  obtain ⟨rfl, -, hdrop⟩ := visit_answered h hmoment hpart hline
  obtain ⟨removed, edited, hremoved, hsettles⟩ :=
    settles_removal ctx moment.memory hnumber hindex
  obtain ⟨-, front, back, hsplit, hlength, hleft⟩ := remove_predicate_spec hremoved
  refine ⟨front, removed, back, hsplit, hlength, fun later hlater => ?_⟩
  rw [hdrop, hprompt] at hlater
  rw [(visit_of_settles hsettles later hlater).1, hleft]

end Run

/-- What a session does with the draft between two menus. A dialogue about a part changes that part
at most, and asks its questions with the draft as it was; clearing begins a fresh draft; any other
choice leaves the draft as it is. An answer that is refused edits nothing, a removal takes out the
predicate with the number that is given, and a dialogue that the input breaks off edits nothing. -/
theorem visit_frame (ctx : Context) (memory : Memory) (choice : String) (lines : List Line) :
    let opened := answer ctx memory .builderMenu choice
    let moments := visit ctx opened lines
    (∀ part, chosenPart? (lowercase (trim choice)) = some part →
      ∀ moment ∈ moments, DiffersIn memory.draft moment.memory.draft part ∧
        (moment.prompt.part?.isSome → moment.memory.draft = memory.draft)) ∧
    (lowercase (trim choice) = "9" →
      ∀ moment ∈ moments, moment.memory.draft = freshDraft ctx.settings) ∧
    (chosenPart? (lowercase (trim choice)) = none → lowercase (trim choice) ≠ "9" →
      ∀ moment ∈ moments, moment.memory.draft = memory.draft) ∧
    (trim choice ≠ "1" →
      ∀ moment ∈ visit ctx (answer ctx memory .mainMenu choice) lines,
        moment.memory.draft = memory.draft) ∧
    ∀ (i : Nat) (moment : Moment), moments[i]? = some moment →
      (∀ line : String, lines[i]? = some (.text line) →
        Refused moment.memory.draft moment.prompt (trim line) →
          ∀ met ∈ moments, met.memory.draft = memory.draft) ∧
      (∀ (line : String) (which : Predicates) (index : Nat), lines[i]? = some (.text line) →
        moment.prompt = .removal which →
        numeral? UInt64.size (trim line).toList = some (index + 1) →
        index < (predicates memory.draft which).length →
          ∃ front removed back, predicates memory.draft which = front ++ removed :: back ∧
            front.length = index ∧
            ∀ later ∈ moments.drop (i + 1),
              predicates later.memory.draft which = front ++ back) ∧
      (moment.prompt.part?.isSome → lines[i]? = none ∨ lines[i]? = some .undecodable →
        (∀ met ∈ moments, met.memory.draft = memory.draft) ∧
          (converse ctx opened lines).memory.draft = memory.draft) := by
  intro opened moments
  have hchoice : ∀ hclear : lowercase (trim choice) ≠ "9",
      opened.Asks memory.draft (chosenPart? (lowercase (trim choice))) := fun hclear =>
    asks_builder ctx memory _ hclear
  refine ⟨fun part hpart => ?_, fun hclear moment hmoment => ?_,
    fun hnone hclear moment hmoment => ?_, visit_main_menu, fun i moment hmoment => ?_⟩
  · have hclear : lowercase (trim choice) ≠ "9" := fun hclear => by
      rw [hclear] at hpart
      cases hpart
    have hasks := hchoice hclear
    rw [hpart] at hasks
    exact visit_of_part hasks
  · exact (visit_of_settles (settles_restart ctx memory _ hclear) moment hmoment).1
  · have hsettles := hchoice hclear
    rw [hnone] at hsettles
    exact (visit_of_settles hsettles moment hmoment).1
  · have hmem : moment ∈ moments := List.mem_of_getElem? hmoment
    refine ⟨fun line hline hrefused => ?_, fun line which index hline hprompt => ?_,
      fun hpart => ?_⟩
    · have hpart : moment.prompt.part?.isSome = true := hrefused.isSome_part
      obtain ⟨part, hasks⟩ := exists_asks hmem hpart
      exact visit_refused hasks hmoment hline hrefused
    · obtain ⟨part, hasks⟩ := exists_asks hmem (by rw [hprompt]; rfl)
      exact visit_removal hasks hmoment hline hprompt
    · obtain ⟨part, hasks⟩ := exists_asks hmem hpart
      exact visit_broken_off hasks hmoment hpart

/-- A draft with three conditions. -/
def threeConditions : Draft where
  table := some .events
  columns := ["*"]
  conditions := ["magnitude >= 5", "category = 1", "eventcount > 10"]

/-- A dialogue that removes the second of three conditions. -/
theorem visit_frame_second_condition :
    let moments := visit {} (answer {} { draft := threeConditions } .builderMenu "3")
      [.text "2", .text "2", .text ""]
    moments.length = 4 ∧ ∀ later ∈ moments.drop 2,
      predicates later.memory.draft .rows = ["magnitude >= 5", "eventcount > 10"] := by
  intro moments
  refine ⟨by decide +kernel, ?_⟩
  have hprompt : (moments[1]?.map Moment.prompt) = some (.removal .rows) := by decide +kernel
  obtain ⟨moment, hmoment, hprompt⟩ := Option.map_eq_some_iff.mp hprompt
  obtain ⟨-, -, -, -, hanswers⟩ :=
    visit_frame {} { draft := threeConditions } "3" [.text "2", .text "2", .text ""]
  obtain ⟨front, removed, back, hsplit, hlength, hlater⟩ :=
    (hanswers 1 moment hmoment).2.1 "2" .rows 1 rfl hprompt (by decide) (by decide)
  obtain ⟨first, rfl⟩ := List.length_eq_one_iff.mp hlength
  obtain ⟨rfl, -, rfl⟩ : "magnitude >= 5" = first ∧ "category = 1" = removed ∧
    ["eventcount > 10"] = back := by simpa [threeConditions, predicates] using hsplit
  exact hlater

end Ariel.Session
