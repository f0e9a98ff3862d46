import Ariel.Proofs.Query.Draft
import Ariel.Proofs.Session.Conversation

/-!
# What a session keeps

At every reading of a session its draft is complete and clean: `Kept` says how. Each edit keeps
that, so every turn does, and hence every conversation. A query can be assembled at any time
(`kept_at_readings`).
-/

namespace Ariel.Session

open Ariel.Query Ariel.Text

/-- A draft as sessions keep it. Besides being neat it has a table and columns, no entry of a list
that is typed with commas holds one, and limit and window are sound. -/
structure Kept (draft : Draft) : Prop extends draft.Neat where
  table : draft.table.isSome = true
  columns_ne_nil : draft.columns ≠ []
  columns_single : ∀ entry ∈ draft.columns, ',' ∉ entry.toList
  groupBy_single : ∀ entry ∈ draft.groupBy, ',' ∉ entry.toList
  orderBy_single : ∀ order ∈ draft.orderBy, ∀ column ∈ order.columns, ',' ∉ column.toList
  limit_pos : ∀ limit ∈ draft.limit, 0 < limit.rows.toNat
  window_sound : draft.window.check = .ok ()
  window_neat : draft.window.NeatBounds

section Listed

variable {entries : List String} {entry : String} {cs piece : List Char} {mark : Char}

/-- What stands between two marks does not hold the mark. -/
theorem not_mem_of_split_at (h : piece ∈ splitAt mark cs) : mark ∉ piece := by
  induction cs generalizing piece with
  | nil =>
      obtain rfl := List.mem_singleton.mp h
      exact List.not_mem_nil
  | cons c cs ih =>
      unfold splitAt at h
      split at h
      next =>
        rcases List.mem_cons.mp h with rfl | h
        · exact List.not_mem_nil
        · exact ih h
      next hc =>
        split at h
        next =>
          obtain rfl := List.mem_singleton.mp h
          simpa using Ne.symm hc
        next first pieces hsplit =>
          rcases List.mem_cons.mp h with rfl | h
          · have hfirst : mark ∉ first := ih (by simp [hsplit])
            simp [Ne.symm hc, hfirst]
          · exact ih (by simp [hsplit, h])

/-- The entries of a typed list are neat and hold no comma. -/
theorem Listed.neat_and_single (h : Listed entries) (hentry : entry ∈ entries) :
    NeatText entry ∧ ',' ∉ entry.toList := by
  obtain ⟨-, typed, rfl⟩ := h
  simp only [splitList, List.mem_filter, List.mem_map, Bool.not_eq_true'] at hentry
  obtain ⟨⟨piece, hpiece, rfl⟩, hfilled⟩ := hentry
  have htrim : String.ofList (trimmed piece) = trim (String.ofList piece) := by
    rw [trim, String.toList_ofList]
  refine ⟨?_, ?_⟩
  · rw [htrim, is_empty_trim] at hfilled
    rw [htrim]
    exact neat_trim hfilled
  · rw [String.toList_ofList]
    exact fun hmem => not_mem_of_split_at hpiece (mem_of_mem_trimmed hmem)

/-- A typed list is tidy already. -/
theorem Listed.tidy_eq (h : Listed entries) : tidy entries = entries :=
  tidy_of_neat fun _ hentry => (h.neat_and_single hentry).1

end Listed

section Step

variable {ctx : Context} {draft edited : Draft} {prompt : Prompt} {progress : Progress}

/-- The draft that a session begins with is kept. -/
theorem kept_fresh_draft (settings : BuilderSettings) : Kept (freshDraft settings) where
  columns := fun _ => neat_of_mem_tidy
  conditions := nofun
  groupBy := nofun
  having := nofun
  orderBy := nofun
  table := rfl
  columns_ne_nil := by
    show tidy ["*"] ≠ []
    decide
  columns_single := fun entry hentry => by
    obtain rfl : entry = "*" := List.mem_singleton.mp hentry
    decide
  groupBy_single := nofun
  orderBy_single := nofun
  limit_pos := nofun
  window_sound := rfl
  window_neat := trivial

theorem Kept.add_condition (h : Kept draft) {text : String}
    (hadd : draft.addCondition? text = some edited) : Kept edited := by
  obtain ⟨conditions, hconditions, rfl⟩ := Option.map_eq_some_iff.mp hadd
  exact { h with conditions := neat_of_add h.conditions hconditions }

theorem Kept.filter_groups (h : Kept draft) (text : String) : Kept (draft.filterGroups text) := by
  unfold Draft.filterGroups
  cases hadd : draft.addHaving? text with
  | none => exact h
  | some edited =>
      obtain ⟨having, hhaving, rfl⟩ := Option.map_eq_some_iff.mp hadd
      exact { h with having := neat_of_add h.having hhaving }

theorem Kept.remove_predicate (h : Kept draft) {which : Predicates} {index : Nat} {removed : String}
    (hremove : removePredicate? draft which index = some (removed, edited)) : Kept edited := by
  cases which with
  | rows =>
      obtain ⟨⟨_, conditions⟩, hconditions, heq⟩ := Option.map_eq_some_iff.mp hremove
      obtain ⟨rfl, rfl⟩ := Prod.mk.inj heq
      exact { h with conditions := neat_of_remove h.conditions hconditions }
  | groups =>
      obtain ⟨⟨_, having⟩, hhaving, heq⟩ := Option.map_eq_some_iff.mp hremove
      obtain ⟨rfl, rfl⟩ := Prod.mk.inj heq
      exact { h with having := neat_of_remove h.having hhaving }

theorem Kept.set_order_by (h : Kept draft) {entries : List String} (hlisted : Listed entries)
    (direction : Direction) : Kept (draft.setOrderBy entries direction) := by
  have horder : draft.setOrderBy entries direction =
      { draft with orderBy := some ⟨entries, direction⟩ } := by
    obtain ⟨first, others, rfl⟩ := List.exists_cons_of_ne_nil hlisted.1
    rw [Draft.setOrderBy, hlisted.tidy_eq]
  rw [horder]
  exact { h with
    orderBy := fun order horder => by
      obtain rfl := Option.some.inj horder
      exact ⟨hlisted.1, fun _ hcolumn => (hlisted.neat_and_single hcolumn).1⟩
    orderBy_single := fun order horder => by
      obtain rfl := Option.some.inj horder
      exact fun _ hcolumn => (hlisted.neat_and_single hcolumn).2 }

theorem Kept.set_window (h : Kept draft) {window : Window} (hsound : window.check = .ok ())
    (hneat : window.NeatBounds) : Kept (draft.setWindow window) :=
  { h with window_sound := hsound, window_neat := hneat }

/-- Every edit keeps a draft as it should be. -/
theorem Kept.edit (h : Kept draft) (hholds : prompt.Holds) (hedit : Edit draft prompt edited) :
    Kept edited := by
  cases hedit with
  | columns hlisted =>
      exact { h with
        columns := fun _ => neat_of_mem_tidy
        columns_ne_nil := by rw [Draft.setColumns, hlisted.tidy_eq]; exact hlisted.1
        columns_single := fun _ hentry => by
          rw [Draft.setColumns, hlisted.tidy_eq] at hentry
          exact (hlisted.neat_and_single hentry).2 }
  | table table => exact { h with table := rfl }
  | condition hadd => exact h.add_condition hadd
  | magnitude hadd => exact h.add_condition hadd
  | groupCondition text => exact h.filter_groups text
  | removal hremove => exact h.remove_predicate hremove
  | clearConditions => exact { h with conditions := nofun }
  | clearHaving => exact { h with having := nofun }
  | groupBy hlisted =>
      exact { h with
        groupBy := fun _ => neat_of_mem_tidy
        groupBy_single := fun _ hentry => by
          rw [Draft.setGroupBy, hlisted.tidy_eq] at hentry
          exact (hlisted.neat_and_single hentry).2 }
  | orderBy direction => exact h.set_order_by hholds direction
  | clearLimit => exact { h with limit_pos := nofun }
  | limit hlimit =>
      unfold Draft.setLimit at hlimit
      split at hlimit
      next => cases hlimit
      next =>
        obtain rfl := Except.ok.inj hlimit
        exact { h with limit_pos := fun limit _ => row_limit_pos limit }
  | noWindow => exact h.set_window rfl trivial
  | relativeWindow hcheck => exact h.set_window hcheck trivial
  | absoluteWindow hwindow =>
      obtain ⟨rfl, hsound⟩ := Window.between_eq_ok_iff.mp hwindow
      exact h.set_window (Window.check_eq_ok_iff.mpr (Window.sound_normal.mpr hsound))
        (Window.neat_bounds_normal hsound)

/-- A session goes on with a draft that is kept. -/
inductive Progress.Keeps : Progress → Prop where
  | asking {memory next output} : Kept memory.draft → next.Holds →
      Keeps (.asking memory next output)
  | finished (memory output) : Keeps (.finished memory output)

theorem Progress.Asks.keeps {part? : Option Part} (h : progress.Asks draft part?)
    (hkept : Kept draft) : progress.Keeps := by
  obtain ⟨memory, next, output, rfl, rfl, -, hholds⟩ := h.exists_asking
  exact .asking hkept hholds

theorem Progress.Turns.keeps (h : progress.Turns draft prompt) (hkept : Kept draft)
    (hholds : prompt.Holds) : progress.Keeps := by
  obtain ⟨memory, next, output, rfl, hturn⟩ := h.exists_asking
  cases hturn with
  | edit hedit hpart => exact .asking (hkept.edit hholds hedit) (holds_of_part hpart)
  | ask hpart hnext => exact .asking hkept hnext

/-- Whatever is answered, the draft is kept. -/
theorem Progress.Answers.keeps {memory : Memory} (h : progress.Answers ctx memory prompt)
    (hkept : Kept memory.draft) (hholds : prompt.Holds) : progress.Keeps := by
  cases h with
  | turn hturns => exact hturns.keeps hkept hholds
  | opened hasks => exact hasks.keeps hkept
  | restarted hsettles => exact hsettles.keeps (kept_fresh_draft ctx.settings)
  | ended => exact .finished _ _

end Step

section Run

variable {ctx : Context} {progress : Progress} {moment : Moment}

/-- The end of the input leaves the draft as it is. -/
theorem keeps_end {memory : Memory} {prompt : Prompt} (hkept : Kept memory.draft) :
    (answerEnd ctx memory prompt).Keeps := by
  rcases settles_or_finished_end ctx memory prompt with hend | hsettles
  · rw [hend]
    exact .finished _ _
  · exact hsettles.keeps hkept

/-- At each reading of a conversation the draft is kept, when it is at the beginning. -/
theorem kept_of_mem_readings {lines : List Line} (h : progress.Keeps)
    (hmoment : moment ∈ readings ctx progress lines) : Kept moment.memory.draft := by
  have hkeeps : (Progress.asking moment.memory moment.prompt moment.output).Keeps := by
    refine reading_induction (fun {memory prompt output text} _ hkeeps => ?_) (fun hkeeps => ?_)
      h hmoment
    · obtain ⟨hkept, hholds⟩ | _ := hkeeps
      exact (answers_answer ctx memory prompt text).keeps hkept hholds
    · obtain ⟨hkept, -⟩ | _ := hkeeps
      exact keeps_end hkept
  obtain ⟨hkept, -⟩ | _ := hkeeps
  exact hkept

/-- A session begins with a draft that is kept. -/
theorem keeps_start (ctx : Context) : (start ctx).Keeps :=
  .asking (kept_fresh_draft ctx.settings) trivial

/-- A draft that is kept is complete. -/
theorem Kept.complete {draft : Draft} (h : Kept draft) : draft.missing? = none := by
  refine Draft.missing_eq_none_iff.mpr ⟨h.table, ?_⟩
  obtain ⟨column, hcolumn⟩ := List.exists_mem_of_ne_nil _ h.columns_ne_nil
  exact ⟨column, hcolumn, (h.columns column hcolumn).filled⟩

/-- Where a query can be assembled, it is copied from the builder on demand. -/
theorem answer_builder_copy (ctx : Context) {memory : Memory} {query : String}
    (h : memory.draft.assemble = .ok query) :
    answerBuilder ctx memory "c" = copyThen ctx memory .builder query := by
  have hchoice : lowercase "c" = "c" := by decide
  simp only [answerBuilder, hchoice, h]

end Run

/-- At every reading of a session the draft is kept. Hence a query can be assembled then, on one
line and on several: the builder shows it, copies it when asked to, and finishes with it. -/
theorem kept_at_readings (ctx : Context) (lines : List Line) :
    ∀ moment ∈ readings ctx (start ctx) lines,
      Kept moment.memory.draft ∧ ∃ query formatted,
        moment.memory.draft.assemble = .ok query ∧
        moment.memory.draft.assembleLines = .ok formatted ∧
        currentQuery moment.memory.draft = formatted ∧
        answerBuilder ctx moment.memory "c" = copyThen ctx moment.memory .builder query ∧
        ∃ output, openFinal ctx moment.memory =
          .asking moment.memory (.finalChoice query) output := by
  intro moment hmoment
  have hkept := kept_of_mem_readings (keeps_start ctx) hmoment
  obtain ⟨table, -, hquery, hformatted⟩ := Draft.assemble_of_complete hkept.complete
  refine ⟨hkept, _, _, hquery, hformatted, ?_, ?_, ?_⟩
  · rw [currentQuery, hformatted]
  · exact answer_builder_copy ctx hquery
  · simp only [openFinal, hquery, hformatted]
    exact ⟨_, rfl⟩

/-- Lines that drop blank columns, set two limits of which one is refused, and end while a window is
asked for. -/
def twoColumns : List Line :=
  ["1", "1", " sourceip,, username ,", "7", "10", "7", "0", "", "8", "1"].map .text

/-- Where the input ends, the draft is kept with its two columns and its limit. -/
theorem kept_at_readings_two_columns :
    ∃ moment ∈ readings {} (start {}) twoColumns,
      Kept moment.memory.draft ∧
      moment.memory.draft.assemble = .ok "SELECT sourceip, username FROM events LIMIT 10" := by
  have hdraft : ((readings {} (start {}) twoColumns)[10]?.map fun moment =>
      moment.memory.draft.assemble) =
        some (.ok "SELECT sourceip, username FROM events LIMIT 10") := by
    decide +kernel
  obtain ⟨moment, hmoment, hquery⟩ := Option.map_eq_some_iff.mp hdraft
  have hmem := List.mem_of_getElem? hmoment
  exact ⟨moment, hmem, (kept_at_readings {} twoColumns moment hmem).1, hquery⟩

end Ariel.Session
