import Ariel.Session.Conversation

/-!
# Turns of a session

A turn is a line of input and what the session makes of it. `Edit` lists the edits that the prompts
make of a draft, one for each way in which an answer is stored. `turns_answer` says that an answer
outside of the menus makes one edit and ends its dialogue, or leaves the draft as it is and asks on
in the same dialogue or outside of any. What the menus lead to is said by `asks_builder` and
`settles_main_menu`. `answers_answer` joins these into all that an answer can lead to, and
`answer_end_eq` says what the end of the input leads to.
-/

namespace Ariel.Session

open Ariel.Query Ariel.Text

/-- The parts of a draft. -/
inductive Part where
  | columns
  | table
  | conditions
  | groupBy
  | having
  | orderBy
  | limit
  | window
  deriving DecidableEq, Repr

/-- The part of a draft that a list of predicates is. -/
def Predicates.part : Predicates → Part
  | .rows => .conditions
  | .groups => .having

/-- The part of the draft that the dialogue of a prompt is about. -/
def Prompt.part? : Prompt → Option Part
  | .columns => some .columns
  | .table => some .table
  | .predicateMenu which => some which.part
  | .quickAdd => some .conditions
  | .conditionValue _ => some .conditions
  | .magnitudeOperator => some .conditions
  | .magnitudeValue _ => some .conditions
  | .groupCondition => some .having
  | .removal which => some which.part
  | .groupBy => some .groupBy
  | .orderColumns => some .orderBy
  | .orderDirection _ => some .orderBy
  | .limit => some .limit
  | .timeMenu => some .window
  | .timeAmount => some .window
  | .timeUnit _ => some .window
  | .startTime => some .window
  | .stopTime _ => some .window
  | _ => none

/-- The part of the draft that a choice in the builder opens the dialogue of. -/
def chosenPart? : (choice : String) → Option Part
  | "1" => some .columns
  | "2" => some .table
  | "3" => some .conditions
  | "4" => some .groupBy
  | "5" => some .having
  | "6" => some .orderBy
  | "7" => some .limit
  | "8" => some .window
  | _ => none

/-- Whether a prompt is one of the two menus that dialogues return to. -/
def Prompt.isMenu : Prompt → Bool
  | .mainMenu => true
  | .builderMenu => true
  | _ => false

/-- A list of entries as it is typed: some entries, each trimmed, not blank and without a comma. -/
def Listed (entries : List String) : Prop :=
  entries ≠ [] ∧ ∃ typed, splitList typed = entries

/-- Where a prompt waits for the direction of a sort order, its columns have been typed. -/
def Prompt.Holds : Prompt → Prop
  | .orderDirection entries => Listed entries
  | _ => True

/-- Outside of the dialogues about its parts no columns have been typed. -/
theorem holds_of_part {prompt : Prompt} (h : prompt.part? = none) : prompt.Holds := by
  cases prompt with
  | orderDirection columns => cases h
  | _ => trivial

/-- No menu belongs to a dialogue about a part. -/
theorem is_menu_of_part {prompt : Prompt} {part : Part} (h : prompt.part? = some part) :
    prompt.isMenu = false := by
  cases prompt with
  | mainMenu => cases h
  | builderMenu => cases h
  | _ => rfl

/-- The edits of a draft that an answer at a prompt may make. -/
inductive Edit (draft : Draft) : Prompt → Draft → Prop where
  | columns {entries} : Listed entries → Edit draft .columns (draft.setColumns entries)
  | table (table) : Edit draft .table (draft.setTable table)
  | condition {kind text edited} : draft.addCondition? text = some edited →
      Edit draft (.conditionValue kind) edited
  | magnitude {operator text edited} : draft.addCondition? text = some edited →
      Edit draft (.magnitudeValue operator) edited
  | groupCondition (text) : Edit draft .groupCondition (draft.filterGroups text)
  | removal {which index removed edited} :
      removePredicate? draft which index = some (removed, edited) →
      Edit draft (.removal which) edited
  | clearConditions : Edit draft (.predicateMenu .rows) draft.clearConditions
  | clearHaving : Edit draft (.predicateMenu .groups) draft.clearHaving
  | groupBy {entries} : Listed entries → Edit draft .groupBy (draft.setGroupBy entries)
  | orderBy {entries} (direction) :
      Edit draft (.orderDirection entries) (draft.setOrderBy entries direction)
  | clearLimit : Edit draft .limit draft.clearLimit
  | limit {rows edited} : draft.setLimit rows = .ok edited → Edit draft .limit edited
  | noWindow : Edit draft .timeMenu (draft.setWindow .unbounded)
  | relativeWindow {amount count unit} : (Window.relative count unit).check = .ok () →
      Edit draft (.timeUnit amount) (draft.setWindow (.relative count unit))
  | absoluteWindow {start stop window} : Window.between start stop = .ok window →
      Edit draft (.stopTime start) (draft.setWindow window)

/-- A turn at a prompt: an edit that ends the dialogue of the prompt, or none. Without an edit the
session asks on in the same dialogue, or outside of any. -/
inductive Turn (draft : Draft) (prompt : Prompt) : Draft → Prompt → Prop where
  | edit {edited next} : Edit draft prompt edited → next.part? = none →
      Turn draft prompt edited next
  | ask {next} : (∀ part ∈ next.part?, prompt.part? = some part) → next.Holds →
      Turn draft prompt draft next

/-- A session goes on by a turn at a prompt. -/
inductive Progress.Turns (draft : Draft) (prompt : Prompt) : Progress → Prop where
  | asking {memory next output} : Turn draft prompt memory.draft next →
      Turns draft prompt (.asking memory next output)

/-- A session asks on with a draft, in a dialogue about one of its parts or outside of any. -/
inductive Progress.Asks (draft : Draft) (part? : Option Part) : Progress → Prop where
  | asking {memory next output} : memory.draft = draft → next.part? = part? → next.Holds →
      Asks draft part? (.asking memory next output)

theorem Progress.Turns.exists_asking {draft : Draft} {prompt : Prompt} {progress : Progress}
    (h : progress.Turns draft prompt) : ∃ memory next output,
      progress = .asking memory next output ∧ Turn draft prompt memory.draft next := by
  cases h with
  | asking hturn => exact ⟨_, _, _, rfl, hturn⟩

theorem Progress.Asks.exists_asking {draft : Draft} {part? : Option Part} {progress : Progress}
    (h : progress.Asks draft part?) : ∃ memory next output,
      progress = .asking memory next output ∧ memory.draft = draft ∧ next.part? = part? ∧
        next.Holds := by
  cases h with
  | asking hdraft hpart hholds => exact ⟨_, _, _, rfl, hdraft, hpart, hholds⟩

/-- A session asks on with a draft, outside of any dialogue about its parts. -/
abbrev Progress.Settles (draft : Draft) (progress : Progress) : Prop :=
  progress.Asks draft none

section Settle

variable {ctx : Context} {memory : Memory} {draft edited : Draft} {prompt : Prompt}
  {progress : Progress} {place : Place} {typed output query : String}

theorem settles_go_to : (goTo ctx memory place output).Settles memory.draft := by
  cases place <;> exact ⟨rfl, rfl, trivial⟩

theorem settles_pause_then : (pauseThen memory place output).Settles memory.draft :=
  ⟨rfl, rfl, trivial⟩

/-- Copying a query does not touch the draft. -/
theorem settles_copy_then : (copyThen ctx memory place query).Settles memory.draft := by
  dsimp only [copyThen]
  split <;> exact ⟨rfl, rfl, trivial⟩

/-- Outside of any dialogue about its parts a draft is left as it is. -/
theorem Progress.Settles.turns (h : progress.Settles draft) : progress.Turns draft prompt := by
  obtain ⟨memory, next, output, rfl, rfl, hpart, hholds⟩ := h.exists_asking
  exact ⟨.ask (by simp [hpart]) hholds⟩

/-- An edit ends a dialogue. -/
theorem Progress.Settles.turns_of_edit (h : progress.Settles edited)
    (hedit : Edit draft prompt edited) : progress.Turns draft prompt := by
  obtain ⟨memory, next, output, rfl, rfl, hpart, -⟩ := h.exists_asking
  exact ⟨.edit hedit hpart⟩

end Settle

section Builder

variable (ctx : Context) (memory : Memory) (typed : String)

theorem turns_columns : (answerColumns ctx memory typed).Turns memory.draft .columns := by
  unfold answerColumns
  split
  next => exact settles_go_to.turns
  next hne => exact settles_go_to.turns_of_edit (.columns ⟨hne, typed, rfl⟩)

theorem turns_table : (answerTable ctx memory typed).Turns memory.draft .table := by
  unfold answerTable
  split
  next => exact settles_go_to.turns
  next table _ => exact settles_go_to.turns_of_edit (.table table)

theorem turns_removal_menu (which : Predicates) :
    (openRemoval memory which).Turns memory.draft (.predicateMenu which) := by
  unfold openRemoval
  split
  next => exact settles_pause_then.turns
  next => exact ⟨.ask (fun _ h => h) trivial⟩

theorem turns_predicates (which : Predicates) :
    (answerPredicates ctx memory which typed).Turns memory.draft (.predicateMenu which) := by
  unfold answerPredicates
  split
  next => exact ⟨.ask (fun _ h => h) trivial⟩
  next => exact ⟨.ask (fun _ h => h) trivial⟩
  next => exact turns_removal_menu memory which
  next => exact settles_pause_then.turns_of_edit .clearConditions
  next => exact settles_go_to.turns_of_edit .clearHaving
  next => exact settles_go_to.turns

theorem turns_quick_add : (answerQuickAdd ctx memory typed).Turns memory.draft .quickAdd := by
  unfold answerQuickAdd
  split
  case h_8 => exact settles_go_to.turns
  all_goals exact ⟨.ask (fun _ h => h) trivial⟩

/-- A condition is added and shown, unless it is blank. -/
theorem add_condition_eq (condition : String) :
    (addCondition ctx memory condition).Settles memory.draft ∨
      ∃ edited, memory.draft.addCondition? condition = some edited ∧
        (addCondition ctx memory condition).Settles edited := by
  unfold addCondition
  split
  next => exact .inl settles_go_to
  next edited hadd => exact .inr ⟨edited, hadd, rfl, rfl, trivial⟩

theorem turns_condition_value (kind : ValueCondition) :
    (answerConditionValue ctx memory kind typed).Turns memory.draft (.conditionValue kind) := by
  unfold answerConditionValue
  split
  next => exact settles_go_to.turns
  next =>
    rcases add_condition_eq ctx memory (kind.condition typed) with
      h | ⟨edited, hadd, h⟩
    · exact h.turns
    · exact h.turns_of_edit (.condition hadd)

theorem turns_magnitude_operator :
    (answerMagnitudeOperator memory typed).Turns memory.draft .magnitudeOperator :=
  ⟨.ask (fun _ h => h) trivial⟩

theorem turns_magnitude_value (operator : String) :
    (answerMagnitudeValue ctx memory operator typed).Turns memory.draft
      (.magnitudeValue operator) := by
  dsimp only [answerMagnitudeValue]
  split
  next => exact settles_pause_then.turns
  next =>
    split
    next => exact settles_pause_then.turns
    next condition _ =>
      rcases add_condition_eq ctx memory condition with
        h | ⟨edited, hadd, h⟩
      · exact h.turns
      · exact h.turns_of_edit (.magnitude hadd)

theorem turns_group_condition :
    (answerGroupCondition ctx memory typed).Turns memory.draft .groupCondition := by
  have hedit : Edit memory.draft .groupCondition (memory.draft.filterGroups typed) :=
    .groupCondition typed
  unfold answerGroupCondition
  generalize memory.draft.filterGroups typed = edited at hedit ⊢
  exact settles_go_to.turns_of_edit hedit

theorem turns_removal (which : Predicates) :
    (answerRemoval memory which typed).Turns memory.draft (.removal which) := by
  dsimp only [answerRemoval]
  split
  next => exact settles_pause_then.turns
  next =>
    split
    next removed edited hremoved =>
      split at hremoved
      next index _ => exact settles_pause_then.turns_of_edit (.removal hremoved)
      next => cases hremoved
    next => exact settles_pause_then.turns

theorem turns_group_by : (answerGroupBy ctx memory typed).Turns memory.draft .groupBy := by
  unfold answerGroupBy
  split
  next => exact settles_go_to.turns
  next hne => exact settles_go_to.turns_of_edit (.groupBy ⟨hne, typed, rfl⟩)

theorem turns_order_columns :
    (answerOrderColumns ctx memory typed).Turns memory.draft .orderColumns := by
  unfold answerOrderColumns
  split
  next => exact settles_go_to.turns
  next hne => exact ⟨.ask (fun _ h => h) ⟨hne, typed, rfl⟩⟩

theorem turns_order_direction (columns : List String) :
    (answerOrderDirection ctx memory columns typed).Turns memory.draft
      (.orderDirection columns) :=
  settles_go_to.turns_of_edit (.orderBy _)

theorem turns_limit : (answerLimit ctx memory typed).Turns memory.draft .limit := by
  unfold answerLimit
  split
  next => exact settles_go_to.turns_of_edit .clearLimit
  next =>
    split
    next => exact settles_pause_then.turns
    next =>
      split
      next => exact settles_pause_then.turns
      next edited hlimit => exact settles_go_to.turns_of_edit (.limit hlimit)

theorem turns_time_menu : (answerTimeMenu ctx memory typed).Turns memory.draft .timeMenu := by
  unfold answerTimeMenu
  split
  next => exact ⟨.ask (fun _ h => h) trivial⟩
  next => exact ⟨.ask (fun _ h => h) trivial⟩
  next => exact settles_go_to.turns_of_edit .noWindow
  next => exact settles_go_to.turns

theorem turns_time_amount : (answerTimeAmount memory typed).Turns memory.draft .timeAmount :=
  ⟨.ask (fun _ h => h) trivial⟩

theorem turns_time_unit (amount : String) :
    (answerTimeUnit ctx memory amount typed).Turns memory.draft (.timeUnit amount) := by
  dsimp only [answerTimeUnit, setSoundWindow]
  split
  next => exact settles_pause_then.turns
  next count _ =>
    cases hcheck : (Window.relative (UInt32.ofNat count)
        ((pick? typed TimeUnit.all).getD .hours)).check with
    | error e => exact settles_pause_then.turns
    | ok => exact settles_go_to.turns_of_edit (.relativeWindow hcheck)

theorem turns_start_time : (answerStartTime memory typed).Turns memory.draft .startTime :=
  ⟨.ask (fun _ h => h) trivial⟩

theorem turns_stop_time (start : String) :
    (answerStopTime ctx memory start typed).Turns memory.draft (.stopTime start) := by
  unfold answerStopTime setSoundWindow
  split
  next => exact settles_go_to.turns
  next =>
    split
    next window hwindow => exact settles_go_to.turns_of_edit (.absoluteWindow hwindow)
    next => exact settles_pause_then.turns

end Builder

section Aside

variable (ctx : Context) (memory : Memory) (typed : String) (template : Template)
  (query output : String)

theorem settles_final : (answerFinal ctx memory query typed).Settles memory.draft := by
  unfold answerFinal
  split
  next => exact settles_copy_then
  next => exact settles_go_to
  next => exact settles_go_to

theorem settles_template_category :
    (answerTemplateCategory ctx memory typed).Settles memory.draft := by
  unfold answerTemplateCategory
  split
  next => exact settles_go_to
  next => split <;> exact settles_go_to

theorem settles_template_choice (category : TemplateCategory) :
    (answerTemplateChoice ctx memory category typed).Settles memory.draft := by
  unfold answerTemplateChoice
  split
  next => exact settles_go_to
  next =>
    split
    next => exact ⟨rfl, rfl, trivial⟩
    next => exact settles_go_to

theorem settles_ask_placeholders (names : List String) :
    (askPlaceholders memory template query output names).Settles memory.draft := by
  cases names <;> exact ⟨rfl, rfl, trivial⟩

theorem settles_template_action :
    (answerTemplateAction ctx memory template typed).Settles memory.draft := by
  unfold answerTemplateAction
  dsimp only
  split
  next => exact settles_copy_then
  next => exact settles_ask_placeholders memory template _ _ _
  next => exact settles_go_to

theorem settles_time_range :
    (answerTimeRange memory template query typed).Settles memory.draft := by
  unfold answerTimeRange
  split
  next => exact ⟨rfl, rfl, trivial⟩
  next => split <;> exact ⟨rfl, rfl, trivial⟩

theorem settles_custom_time_range :
    (answerCustomTimeRange memory template query typed).Settles memory.draft := by
  unfold answerCustomTimeRange
  split
  next => exact ⟨rfl, rfl, trivial⟩
  next => split <;> exact ⟨rfl, rfl, trivial⟩

theorem settles_modified :
    (answerModified ctx memory template query typed).Settles memory.draft := by
  dsimp only [answerModified]
  split
  next => exact settles_copy_then
  next => exact settles_go_to

theorem settles_field_table : (answerFieldTable ctx memory typed).Settles memory.draft := by
  unfold answerFieldTable
  split
  next => exact settles_go_to
  next => exact settles_pause_then

theorem settles_function_category :
    (answerFunctionCategory ctx memory typed).Settles memory.draft := by
  unfold answerFunctionCategory
  split
  next => exact settles_go_to
  next => exact settles_pause_then

/-- A typed query is shown, or the session goes back to the main menu. -/
theorem answer_query_eq (purpose : Purpose) (lines : List String) : ∃ next output,
    answerQuery ctx memory purpose lines = .asking memory next output ∧
      (next = .mainMenu ∨ next = .pause .mainMenu ∨ ∃ query, next = .quickChoice query) := by
  cases purpose with
  | quickQuery =>
      dsimp only [answerQuery, openQuickQuery]
      split
      next => exact ⟨_, _, rfl, .inl rfl⟩
      next => exact ⟨_, _, rfl, .inr (.inr ⟨_, rfl⟩)⟩
  | validation =>
      dsimp only [answerQuery, openValidation]
      split
      next => exact ⟨_, _, rfl, .inr (.inl rfl)⟩
      next => exact ⟨_, _, rfl, .inr (.inl rfl)⟩

theorem settles_query (purpose : Purpose) (lines : List String) :
    (answerQuery ctx memory purpose lines).Settles memory.draft := by
  obtain ⟨next, output, heq, hnext⟩ := answer_query_eq ctx memory purpose lines
  rw [heq]
  obtain rfl | rfl | ⟨query, rfl⟩ := hnext <;> exact ⟨rfl, rfl, trivial⟩

theorem settles_query_line (purpose : Purpose) (lines : List String) (line : String) :
    (answerQueryLine ctx memory purpose lines line).Settles memory.draft := by
  unfold answerQueryLine
  split
  next => exact settles_query ctx memory purpose lines
  next => exact ⟨rfl, rfl, trivial⟩

theorem settles_quick_choice : (answerQuickChoice ctx memory query typed).Settles memory.draft := by
  unfold answerQuickChoice
  split
  next => exact settles_copy_then
  next => exact settles_go_to

end Aside

section Answer

variable (ctx : Context) (memory : Memory) {prompt : Prompt} (line : String)

/-- An answer outside of the menus is a turn: it makes one edit, or none and asks on. -/
theorem turns_answer (hmenu : prompt.isMenu = false) :
    (answer ctx memory prompt line).Turns memory.draft prompt := by
  cases prompt with
  | mainMenu => cases hmenu
  | builderMenu => cases hmenu
  | pause place => exact settles_go_to.turns
  | columns => exact turns_columns ctx memory (trim line)
  | table => exact turns_table ctx memory (trim line)
  | predicateMenu which => exact turns_predicates ctx memory (trim line) which
  | quickAdd => exact turns_quick_add ctx memory (trim line)
  | conditionValue kind => exact turns_condition_value ctx memory (trim line) kind
  | magnitudeOperator => exact turns_magnitude_operator memory (trim line)
  | magnitudeValue operator => exact turns_magnitude_value ctx memory (trim line) operator
  | groupCondition => exact turns_group_condition ctx memory (trim line)
  | removal which => exact turns_removal memory (trim line) which
  | groupBy => exact turns_group_by ctx memory (trim line)
  | orderColumns => exact turns_order_columns ctx memory (trim line)
  | orderDirection columns => exact turns_order_direction ctx memory (trim line) columns
  | limit => exact turns_limit ctx memory (trim line)
  | timeMenu => exact turns_time_menu ctx memory (trim line)
  | timeAmount => exact turns_time_amount memory (trim line)
  | timeUnit amount => exact turns_time_unit ctx memory (trim line) amount
  | startTime => exact turns_start_time memory (trim line)
  | stopTime start => exact turns_stop_time ctx memory (trim line) start
  | finalChoice query => exact (settles_final ctx memory (trim line) query).turns
  | templateCategory => exact (settles_template_category ctx memory (trim line)).turns
  | templateChoice category =>
      exact (settles_template_choice ctx memory (trim line) category).turns
  | templateAction template => exact (settles_template_action ctx memory (trim line) template).turns
  | placeholderValue template query name later =>
      exact (settles_ask_placeholders memory template _ _ later).turns
  | timeRange template query => exact (settles_time_range memory (trim line) template query).turns
  | customTimeRange template query =>
      exact (settles_custom_time_range memory (trim line) template query).turns
  | modifiedChoice template query =>
      exact (settles_modified ctx memory (trim line) template query).turns
  | fieldTable => exact (settles_field_table ctx memory (trim line)).turns
  | functionCategory => exact (settles_function_category ctx memory (trim line)).turns
  | queryLine purpose lines => exact (settles_query_line ctx memory purpose lines line).turns
  | quickChoice query => exact (settles_quick_choice ctx memory (trim line) query).turns

end Answer

section Menu

variable (ctx : Context) (memory : Memory) (typed : String)

theorem settles_final_page : (openFinal ctx memory).Settles memory.draft := by
  dsimp only [openFinal]
  split
  next => exact ⟨rfl, rfl, trivial⟩
  next => exact settles_pause_then
  next => exact settles_pause_then

/-- A choice in the builder opens the dialogue of its part, or none. -/
theorem asks_builder (h : lowercase typed ≠ "9") :
    (answerBuilder ctx memory typed).Asks memory.draft (chosenPart? (lowercase typed)) := by
  unfold answerBuilder
  revert h
  generalize lowercase typed = choice
  intro h
  split
  case h_1 => exact settles_go_to
  case h_10 => exact absurd rfl h
  case h_11 =>
    split
    next => exact settles_copy_then
    next => exact settles_pause_then
  case h_12 => exact settles_final_page ctx memory
  case h_13 =>
    have hnone : chosenPart? choice = none := by
      unfold chosenPart?
      split <;> first | rfl | contradiction
    rw [hnone]
    exact settles_go_to
  all_goals exact ⟨rfl, rfl, trivial⟩

/-- Clearing in the builder begins a fresh draft. -/
theorem settles_restart (h : lowercase typed = "9") :
    (answerBuilder ctx memory typed).Settles (freshDraft ctx.settings) := by
  unfold answerBuilder
  rw [h]
  exact ⟨rfl, rfl, trivial⟩

/-- Entering the builder begins a fresh draft. -/
theorem settles_entry : (answerMainMenu ctx memory "1").Settles (freshDraft ctx.settings) :=
  ⟨rfl, rfl, trivial⟩

/-- Any other choice in the main menu than the builder and the exit leaves the draft as it is. -/
theorem settles_main_menu (hexit : typed ≠ "0") (hentry : typed ≠ "1") :
    (answerMainMenu ctx memory typed).Settles memory.draft := by
  unfold answerMainMenu
  split
  case h_1 => exact absurd rfl hexit
  case h_2 => exact absurd rfl hentry
  case h_3 => exact settles_go_to
  case h_11 => exact settles_go_to
  all_goals exact ⟨rfl, rfl, trivial⟩

/-- All that an answer can lead to: a turn at its prompt, a dialogue that is opened, a fresh draft,
or the end of the session. -/
inductive Progress.Answers (ctx : Context) (memory : Memory) (prompt : Prompt) :
    Progress → Prop where
  | turn {progress} : progress.Turns memory.draft prompt → Answers ctx memory prompt progress
  | opened {progress part?} : progress.Asks memory.draft part? → Answers ctx memory prompt progress
  | restarted {progress} : progress.Settles (freshDraft ctx.settings) →
      Answers ctx memory prompt progress
  | ended : Answers ctx memory prompt (.finished memory "\nGoodbye!\n")

theorem answers_answer (prompt : Prompt) (line : String) :
    (answer ctx memory prompt line).Answers ctx memory prompt := by
  cases hmenu : prompt.isMenu with
  | false => exact .turn (turns_answer ctx memory line hmenu)
  | true =>
      cases prompt with
      | builderMenu =>
          show (answerBuilder ctx memory (trim line)).Answers ctx memory .builderMenu
          by_cases hclear : lowercase (trim line) = "9"
          · exact .restarted (settles_restart ctx memory _ hclear)
          · exact .opened (asks_builder ctx memory _ hclear)
      | mainMenu =>
          show (answerMainMenu ctx memory (trim line)).Answers ctx memory .mainMenu
          by_cases hexit : trim line = "0"
          · rw [hexit]
            exact .ended
          by_cases hentry : trim line = "1"
          · rw [hentry]
            exact .restarted (settles_entry ctx memory)
          · exact .opened (settles_main_menu ctx memory _ hexit hentry)
      | _ => cases hmenu

/-- The end of the input ends a session, at once or when it is met a second time: a typed query that
has lines is complete when it is met first. -/
theorem answer_end_eq (prompt : Prompt) :
    answerEnd ctx memory prompt = .finished memory "\n\nGoodbye!\n" ∨
      ∃ next output, answerEnd ctx memory prompt = .asking memory next output ∧
        next.part? = none ∧ answerEnd ctx memory next = .finished memory "\n\nGoodbye!\n" := by
  unfold answerEnd
  split
  next purpose line lines =>
    obtain ⟨next, output, heq, hnext⟩ := answer_query_eq ctx memory purpose (line :: lines)
    refine .inr ⟨next, output, heq, ?_⟩
    obtain rfl | rfl | ⟨query, rfl⟩ := hnext <;> exact ⟨rfl, rfl⟩
  next => exact .inl rfl

end Menu

end Ariel.Session
