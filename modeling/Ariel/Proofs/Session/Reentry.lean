import Ariel.Proofs.Query.Editing
import Ariel.Proofs.Query.Reading
import Ariel.Proofs.Session.Dialogue
import Ariel.Proofs.Session.Kept
import Ariel.Proofs.Session.Modification

/-!
# Lists typed again

A list that is shown is typed again as it stands, between two entries a comma and a blank. It is
read as the same list (`split_list_join`), since no entry holds a comma or outer blanks. The screen
for the columns shows them in one line (`lines_behind_current`), because a line of input brings no
line break into the draft. So typing the shown line at its prompt edits nothing
(`columns_reentered`).
-/

namespace Ariel.Session

open Ariel.Query Ariel.Text

section Lists

variable {mark c : Char} {cs piece : List Char} {s entry : String} {entries : List String}

/-- A text is split at a mark as lists are split at an element. -/
theorem split_at_eq_split_on (mark : Char) (cs : List Char) :
    splitAt mark cs = cs.splitOn mark := by
  induction cs with
  | nil => rfl
  | cons c cs ih =>
      rw [splitAt, ih, List.splitOn_cons_eq_if_modifyHead]
      by_cases hc : c = mark
      · rw [if_pos hc, if_pos (beq_iff_eq.mpr hc)]
      · rw [if_neg hc, if_neg (fun heq => hc (beq_iff_eq.mp heq))]
        obtain ⟨first, pieces, hpieces⟩ :=
          List.exists_cons_of_ne_nil (List.splitOn_ne_nil mark cs)
        rw [hpieces]
        rfl

/-- The pieces of a text hold its characters only. -/
theorem mem_of_split_at (hpiece : piece ∈ splitAt mark cs) (hc : c ∈ piece) : c ∈ cs := by
  induction cs generalizing piece with
  | nil =>
      obtain rfl := List.mem_singleton.mp hpiece
      exact hc
  | cons first cs ih =>
      unfold splitAt at hpiece
      split at hpiece
      next =>
        rcases List.mem_cons.mp hpiece with rfl | hpiece
        · cases hc
        · exact List.mem_cons_of_mem _ (ih hpiece hc)
      next =>
        split at hpiece
        next =>
          obtain rfl := List.mem_singleton.mp hpiece
          exact List.mem_cons.mpr (.inl (List.mem_singleton.mp hc))
        next front pieces hsplit =>
          rcases List.mem_cons.mp hpiece with rfl | hpiece
          · rcases List.mem_cons.mp hc with rfl | hc
            · exact List.mem_cons_self
            · exact List.mem_cons_of_mem _ (ih (hsplit ▸ List.mem_cons_self) hc)
          · exact List.mem_cons_of_mem _ (ih (hsplit ▸ List.mem_cons_of_mem _ hpiece) hc)

/-- A typed list is what stands between its commas, tidied. -/
theorem split_list_eq_tidy (s : String) :
    splitList s = tidy ((s.toList.splitOn ',').map String.ofList) := by
  simp only [splitList, split_at_eq_split_on, tidy, List.map_map, Function.comp_def, trim,
    String.toList_ofList]

/-- A comma ends one list and begins another. -/
theorem split_list_append (left right : String) :
    splitList (left ++ "," ++ right) = splitList left ++ splitList right := by
  have hcomma : (left ++ "," ++ right).toList = left.toList ++ ',' :: right.toList := by
    simp [String.toList_append]
  simp only [split_list_eq_tidy, hcomma, List.splitOn_append_cons_self, List.map_append, tidy,
    List.filter_append]

/-- The entries of a list hold typed characters only. -/
theorem mem_of_split_list (h : entry ∈ splitList s) (hc : c ∈ entry.toList) : c ∈ s.toList := by
  simp only [splitList, List.mem_filter, List.mem_map] at h
  obtain ⟨⟨piece, hpiece, rfl⟩, -⟩ := h
  rw [String.toList_ofList] at hc
  exact mem_of_split_at hpiece (mem_of_mem_trimmed hc)

/-- Neat entries without commas are read back from the list that shows them. -/
theorem split_list_join (hneat : ∀ entry ∈ entries, NeatText entry)
    (hcommas : ∀ entry ∈ entries, ',' ∉ entry.toList) :
    splitList (join ", " entries) = entries := by
  cases entries with
  | nil => decide
  | cons first others =>
      obtain ⟨_, _, hcons, hsplit⟩ := split_on_join_comma (List.cons_ne_nil first others) hcommas
      obtain ⟨rfl, rfl⟩ := List.cons.inj hcons
      -- Trimming takes away the blank that stands behind each comma.
      have hblank : ∀ entry, trim (" " ++ entry) = trim entry := by
        intro entry
        have hgap : ∀ c ∈ " ".toList, isBlank c = true := by simp [isBlank]
        rw [trim, String.toList_append]
        exact congrArg (String.ofList <| dropLastBlanks ·) (drop_blanks_append hgap)
      rw [split_list_eq_tidy, hsplit]
      calc tidy ((first.toList :: others.map fun entry => ' ' :: entry.toList).map String.ofList)
          = tidy (first :: others) := by simp [tidy, Function.comp_def, hblank]
        _ = first :: others := tidy_of_neat hneat

/-- The entries of a typed list are neat and hold no comma. -/
theorem neat_and_single_of_split_list (h : entry ∈ splitList s) :
    NeatText entry ∧ ',' ∉ entry.toList :=
  Listed.neat_and_single ⟨List.ne_nil_of_mem h, s, rfl⟩ h

/-- A typed list is read back from the list that shows it. -/
theorem split_list_again (s : String) : splitList (join ", " (splitList s)) = splitList s :=
  split_list_join (fun _ hentry => (neat_and_single_of_split_list hentry).1)
    fun _ hentry => (neat_and_single_of_split_list hentry).2

end Lists

section Lines

variable {lines more : List String} {last label shown : String}

/-- The lines of a page are told apart by their line breaks. -/
theorem split_on_page (hlines : ∀ line ∈ lines, '\n' ∉ line.toList) (hlast : '\n' ∉ last.toList) :
    (page lines ++ last).toList.splitOn '\n' = lines.map String.toList ++ [last.toList] := by
  induction lines with
  | nil => rw [page, String.empty_append, List.splitOn_eq_singleton hlast, List.map_nil,
      List.nil_append]
  | cons line lines ih =>
      rw [List.forall_mem_cons] at hlines
      have hpage : (page (line :: lines) ++ last).toList =
          line.toList ++ '\n' :: (page lines ++ last).toList := by
        simp [page, String.toList_append]
      rw [hpage, List.splitOn_append_cons_self_of_not_mem hlines.1, ih hlines.2]
      rfl

theorem page_append (lines more : List String) :
    page (lines ++ more) = page lines ++ page more := by
  induction lines with
  | nil => rw [List.nil_append, page, String.empty_append]
  | cons line lines ih => rw [List.cons_append, page, page, ih, ← String.append_assoc]

/-- What stands behind a label, in the lines of an output that begin with it. -/
def linesBehind (label output : String) : List String :=
  (output.toList.splitOn '\n').filterMap fun line =>
    if label.toList.isPrefixOf line then some (String.ofList (line.drop label.length)) else none

/-- A line that does not begin with a label. -/
structure Aside (label line : String) : Prop where
  unbroken : '\n' ∉ line.toList
  other : label.toList.isPrefixOf line.toList = false

instance (label line : String) : Decidable (Aside label line) :=
  decidable_of_iff ('\n' ∉ line.toList ∧ label.toList.isPrefixOf line.toList = false)
    ⟨fun h => ⟨h.1, h.2⟩, fun h => ⟨h.unbroken, h.other⟩⟩

/-- A line that is shown behind a label is found among other lines. -/
theorem lines_behind_page (hlines : ∀ line ∈ lines, Aside label line)
    (hmore : ∀ line ∈ more, Aside label line) (hlast : Aside label last)
    (hlabel : '\n' ∉ label.toList) (hshown : '\n' ∉ shown.toList) :
    linesBehind label (page (lines ++ (label ++ shown) :: more) ++ last) = [shown] := by
  have hnone : ∀ {lines : List String}, (∀ line ∈ lines, Aside label line) →
      (lines.map String.toList).filterMap (fun line =>
        if label.toList.isPrefixOf line then some (String.ofList (line.drop label.length))
        else none) = [] := by
    intro lines h
    rw [List.filterMap_eq_nil_iff, List.forall_mem_map]
    intro line hline
    rw [(h line hline).other]
    rfl
  have hunbroken : ∀ line ∈ lines ++ (label ++ shown) :: more, '\n' ∉ line.toList := by
    rw [List.forall_mem_append, List.forall_mem_cons]
    refine ⟨fun line hline => (hlines line hline).unbroken, ?_,
      fun line hline => (hmore line hline).unbroken⟩
    rw [String.toList_append, List.mem_append, not_or]
    exact ⟨hlabel, hshown⟩
  have hmark : label.toList.isPrefixOf (label ++ shown).toList = true := by
    rw [String.toList_append, List.isPrefixOf_iff_prefix]
    exact List.prefix_append _ _
  rw [linesBehind, split_on_page hunbroken hlast.unbroken, List.map_append, List.map_cons,
    List.filterMap_append, List.filterMap_append, hnone hlines, List.filterMap_cons, if_pos hmark,
    hnone hmore, Draft.drop_keyword, String.ofList_toList, List.filterMap_cons, hlast.other]
  rfl

end Lines

section Screen

variable {ctx : Context} {memory : Memory} {prompt : Prompt} {output : String}
  {names : List String}

/-- An indented line is broken where its text is, and does not begin with the label. -/
theorem aside_of_indented {s : String} (h : '\n' ∉ s.toList) :
    Aside "Current: " (String.ofList (dropLastBlanks ("  " ++ s).toList)) := by
  obtain ⟨gap, hsplit, -⟩ := drop_last_blanks_spec ("  " ++ s).toList
  rw [← @String.toList_ofList (dropLastBlanks _)] at hsplit
  have hindent : ("  " ++ s).toList = ' ' :: ' ' :: s.toList := by
    rw [String.toList_append]
    rfl
  constructor
  · intro hmem
    have hfeed : '\n' ∈ ("  " ++ s).toList := by
      rw [hsplit]
      exact List.mem_append_left gap hmem
    simp [hindent, h] at hfeed
  · rw [Bool.eq_false_iff, Ne, List.isPrefixOf_iff_prefix]
    intro hmark
    have hfront : "Current: ".toList <+: ("  " ++ s).toList := hmark.trans ⟨gap, hsplit.symm⟩
    rw [hindent] at hfront
    exact absurd (List.cons_prefix_cons.mp hfront).1 (by decide)

/-- A text is padded with blanks only. -/
theorem line_feed_not_mem_pad_right {s : String} (width : Nat) (h : '\n' ∉ s.toList) :
    '\n' ∉ (padRight width s).toList := by
  rw [padRight, String.toList_append, String.toList_ofList, List.mem_append, not_or]
  exact ⟨h, fun hmem => absurd (List.eq_of_mem_replicate hmem) (by decide)⟩

/-- The lines that show fields are indented. -/
theorem aside_of_field_pairs (hnames : ∀ name ∈ names, '\n' ∉ name.toList) :
    ∀ line ∈ fieldPairs names, Aside "Current: " line := by
  fun_induction fieldPairs names with
  | case1 => nofun
  | case2 name =>
      rw [List.forall_mem_singleton] at hnames ⊢
      exact aside_of_indented (line_feed_not_mem_pad_right 30 hnames)
  | case3 left right names ih =>
      rw [List.forall_mem_cons, List.forall_mem_cons] at hnames
      rw [List.forall_mem_cons]
      refine ⟨?_, ih hnames.2.2⟩
      rw [String.append_assoc, String.append_assoc]
      refine aside_of_indented ?_
      simp only [String.toList_append, List.mem_append, not_or]
      exact ⟨line_feed_not_mem_pad_right 30 hnames.1, by decide,
        line_feed_not_mem_pad_right 30 hnames.2.1⟩

/-- The screen for the columns, from its title to the rule above the current ones. -/
def columnsScreen (table : Table) : List String :=
  ["  " ++ "SELECT COLUMNS", doubleRule 60,
      "", "Available fields for " ++ table.name ++ ":", rule 40]
    ++ fieldPairs ((Catalog.fields table).map Catalog.Field.name)
    ++ ["", "COMMON FUNCTIONS:",
      "  LOGSOURCENAME(logsourceid), QIDNAME(qid), CATEGORYNAME(category)",
      "  DATEFORMAT(starttime, 'yyyy-MM-dd HH:mm:ss'), COUNT(*), SUM(field)",
      "", rule 60,
      "Enter columns separated by commas, or:",
      "  * for all columns",
      "  Press Enter to keep current selection",
      rule 60]

/-- No other line of the screen begins with the label. -/
theorem aside_of_columns_screen (table : Table) :
    ∀ line ∈ columnsScreen table, Aside "Current: " line := by
  have hnames : ∀ name ∈ (Catalog.fields table).map Catalog.Field.name, '\n' ∉ name.toList := by
    cases table <;> decide +kernel
  rw [columnsScreen, List.forall_mem_append, List.forall_mem_append]
  refine ⟨⟨?_, aside_of_field_pairs hnames⟩, by decide +kernel⟩
  cases table <;> decide +kernel

/-- The screen for the columns as a page. -/
theorem open_columns_eq (ctx : Context) (memory : Memory) :
    openColumns ctx memory = .asking memory .columns
      (page ((clearing ctx.settings ++ doubleRule 60) ::
        columnsScreen (memory.draft.table.getD ctx.settings.defaultTable) ++
          ("Current: " ++ join ", " memory.draft.columns) :: [""]) ++ "Columns: ") := by
  rw [openColumns, banner, columnsScreen]
  simp only [page_append, page, List.cons_append, List.nil_append, String.append_assoc,
    String.empty_append]

/-- A draft whose columns can be shown in one line. -/
def UnbrokenColumns (draft : Draft) : Prop :=
  ∀ column ∈ draft.columns, '\n' ∉ column.toList

/-- The screen for the columns shows them in one line. -/
theorem lines_behind_current (hunbroken : UnbrokenColumns memory.draft)
    (h : openColumns ctx memory = .asking memory prompt output) :
    linesBehind "Current: " output = [join ", " memory.draft.columns] := by
  rw [open_columns_eq] at h
  obtain ⟨-, -, rfl⟩ := Progress.asking.inj h
  have hfirst : Aside "Current: " (clearing ctx.settings ++ doubleRule 60) := by
    unfold clearing
    split <;> decide
  refine lines_behind_page (List.forall_mem_cons.mpr ⟨hfirst, aside_of_columns_screen _⟩)
    (by decide) (by decide) (by decide) ?_
  exact Draft.not_mem_join (by decide) hunbroken

end Screen

section Step

variable {ctx : Context} {memory : Memory} {prompt : Prompt} {line : String}
  {draft edited : Draft} {part : Part} {progress : Progress}

/-- A session goes on with columns that can be shown in one line, and shows them where it asks for
others. -/
inductive Progress.Shows (ctx : Context) : Progress → Prop where
  | asking {memory next output} : UnbrokenColumns memory.draft →
      (next = .columns → openColumns ctx memory = .asking memory next output) →
      Shows ctx (.asking memory next output)
  | finished (memory output) : Shows ctx (.finished memory output)

/-- The columns have a dialogue of one prompt. -/
theorem part_eq_columns_iff : prompt.part? = some .columns ↔ prompt = .columns := by
  cases prompt with
  | predicateMenu which => cases which <;> simp [Prompt.part?, Predicates.part]
  | removal which => cases which <;> simp [Prompt.part?, Predicates.part]
  | _ => simp [Prompt.part?]

/-- The dialogue about the columns is opened by one choice. -/
theorem chosen_part_eq_columns_iff {choice : String} :
    chosenPart? choice = some .columns ↔ choice = "1" := by
  unfold chosenPart?
  split <;> simp_all

theorem DiffersIn.columns_eq (h : DiffersIn draft edited part) (hother : part ≠ .columns) :
    edited.columns = draft.columns := by
  cases part with
  | columns => exact absurd rfl hother
  | _ =>
      obtain ⟨_, rfl⟩ := h
      rfl

/-- Only an answer at its own prompt edits the columns. -/
theorem Edit.columns_eq (h : Edit draft prompt edited) (hother : prompt ≠ .columns) :
    edited.columns = draft.columns := by
  cases hpart : prompt.part? with
  | none => cases h <;> cases hpart
  | some part =>
      refine (h.differs_in hpart).columns_eq ?_
      rintro rfl
      exact hother (part_eq_columns_iff.mp hpart)

theorem Progress.Asks.shows {part? : Option Part} (h : progress.Asks draft part?)
    (hother : part? ≠ some .columns) (hunbroken : UnbrokenColumns draft) :
    progress.Shows ctx := by
  obtain ⟨memory, next, output, rfl, rfl, rfl, -⟩ := h.exists_asking
  exact .asking hunbroken fun hnext => absurd (part_eq_columns_iff.mpr hnext) hother

theorem Progress.Turns.shows (h : progress.Turns draft prompt) (hother : prompt ≠ .columns)
    (hunbroken : UnbrokenColumns draft) : progress.Shows ctx := by
  obtain ⟨memory, next, output, rfl, hturn⟩ := h.exists_asking
  generalize hafter : memory.draft = after at hturn
  cases hturn with
  | edit hedit hpart =>
      refine .asking ?_ fun hnext => ?_
      · rw [UnbrokenColumns, hafter, hedit.columns_eq hother]
        exact hunbroken
      · rw [part_eq_columns_iff.mpr hnext] at hpart
        cases hpart
  | ask hpart hholds =>
      refine .asking (hafter ▸ hunbroken) fun hnext => ?_
      exact absurd (part_eq_columns_iff.mp (hpart _ (part_eq_columns_iff.mpr hnext))) hother

theorem unbroken_fresh_draft (settings : BuilderSettings) :
    UnbrokenColumns (freshDraft settings) := by
  intro column hcolumn
  obtain rfl : column = "*" := List.mem_singleton.mp hcolumn
  decide

/-- The columns that a line sets can be shown in one line, as the line itself. -/
theorem shows_columns (hline : '\n' ∉ line.toList) (hunbroken : UnbrokenColumns memory.draft) :
    (answer ctx memory .columns line).Shows ctx := by
  show (answerColumns ctx memory (trim line)).Shows ctx
  unfold answerColumns
  split
  next => exact .asking hunbroken nofun
  next hne =>
    have hlisted : Listed (splitList (trim line)) := ⟨hne, _, rfl⟩
    have hcolumns : (memory.draft.setColumns (splitList (trim line))).columns =
        splitList (trim line) := by
      rw [Draft.setColumns, hlisted.tidy_eq]
    refine .asking ?_ nofun
    rw [UnbrokenColumns, hcolumns]
    intro column hcolumn hfeed
    have hmem := mem_of_split_list hcolumn hfeed
    rw [to_list_trim] at hmem
    exact hline (mem_of_mem_trimmed hmem)

/-- After a line without a line feed the columns can be shown in one line, and are where others are
asked for. -/
theorem shows_answer (ctx : Context) (prompt : Prompt) (hline : '\n' ∉ line.toList)
    (hunbroken : UnbrokenColumns memory.draft) : (answer ctx memory prompt line).Shows ctx := by
  by_cases hcolumns : prompt = .columns
  · rw [hcolumns]
    exact shows_columns hline hunbroken
  cases hmenu : prompt.isMenu with
  | false => exact (turns_answer ctx memory line hmenu).shows hcolumns hunbroken
  | true =>
      cases prompt with
      | builderMenu =>
          show (answerBuilder ctx memory (trim line)).Shows ctx
          by_cases hopen : lowercase (trim line) = "1"
          · rw [answerBuilder, hopen]
            exact .asking hunbroken fun _ => rfl
          by_cases hclear : lowercase (trim line) = "9"
          · exact (settles_restart ctx memory _ hclear).shows (by simp) (unbroken_fresh_draft _)
          · exact (asks_builder ctx memory _ hclear).shows
              (fun hchosen => hopen (chosen_part_eq_columns_iff.mp hchosen)) hunbroken
      | mainMenu =>
          show (answerMainMenu ctx memory (trim line)).Shows ctx
          by_cases hexit : trim line = "0"
          · rw [hexit]
            exact .finished _ _
          by_cases hentry : trim line = "1"
          · rw [hentry]
            exact (settles_entry ctx memory).shows (by simp) (unbroken_fresh_draft _)
          · exact (settles_main_menu ctx memory _ hexit hentry).shows (by simp) hunbroken
      | _ => cases hmenu

end Step

section Run

variable {ctx : Context} {progress : Progress} {moment : Moment}

/-- The end of the input asks for no columns. -/
theorem shows_end {memory : Memory} {prompt : Prompt} (hunbroken : UnbrokenColumns memory.draft) :
    (answerEnd ctx memory prompt).Shows ctx := by
  rcases settles_or_finished_end ctx memory prompt with hend | hsettles
  · rw [hend]
    exact .finished _ _
  · exact hsettles.shows nofun hunbroken

/-- Over lines without line feeds, a session shows the columns at each reading at their prompt. -/
theorem shows_of_mem_readings {lines : List Line} (h : progress.Shows ctx)
    (hlines : ∀ line, .text line ∈ lines → '\n' ∉ line.toList)
    (hmoment : moment ∈ readings ctx progress lines) :
    (Progress.asking moment.memory moment.prompt moment.output).Shows ctx := by
  refine reading_induction (fun {memory prompt output text} hline hshows => ?_) (fun hshows => ?_)
    h hmoment
  · obtain ⟨hunbroken, -⟩ | _ := hshows
    exact shows_answer ctx prompt (hlines text hline) hunbroken
  · obtain ⟨hunbroken, -⟩ | _ := hshows
    exact shows_end hunbroken

/-- Columns that are kept are typed as they are shown to leave everything as it is. -/
theorem answer_shown_columns {memory : Memory} (hkept : Kept memory.draft) :
    answer ctx memory .columns (join ", " memory.draft.columns) = goTo ctx memory .builder := by
  have hneat : NeatText (join ", " memory.draft.columns) :=
    Draft.neat_join hkept.columns_ne_nil hkept.columns
  have hlist : splitList (join ", " memory.draft.columns) = memory.draft.columns :=
    split_list_join hkept.columns hkept.columns_single
  have hsame : memory.draft.setColumns memory.draft.columns = memory.draft := by
    rw [Draft.setColumns, tidy_of_neat hkept.columns]
  show answerColumns ctx memory (trim (join ", " memory.draft.columns)) = _
  rw [hneat.trimmed, answerColumns, hlist]
  split
  next hnil => rfl
  next => rw [hsame]

end Run

/-- A session begins with columns that are shown in one line. -/
theorem shows_start (ctx : Context) : (start ctx).Shows ctx :=
  .asking (unbroken_fresh_draft ctx.settings) nofun

/-- A list that is shown is typed again as it stands. Every typed list has neat entries without
commas, which are read back when they are joined, and a comma between two lists joins them. So, at
each reading at the prompt for the columns, one line of the screen shows behind its label what is
typed to leave everything as it is. -/
theorem columns_reentered (ctx : Context) (input : ByteArray) :
    (∀ typed, ∀ entry ∈ splitList typed, NeatText entry ∧ ',' ∉ entry.toList) ∧
    (∀ typed, splitList (join ", " (splitList typed)) = splitList typed) ∧
    (∀ left right, splitList (left ++ "," ++ right) = splitList left ++ splitList right) ∧
    ∀ moment ∈ readings ctx (start ctx) (Line.ofInput input), moment.prompt = .columns →
      let shown := join ", " moment.memory.draft.columns
      linesBehind "Current: " moment.output = [shown] ∧
        Line.ofInput (shown ++ "\n").toUTF8 = [.text shown] ∧
        answer ctx moment.memory moment.prompt shown = goTo ctx moment.memory .builder := by
  refine ⟨fun typed entry => neat_and_single_of_split_list, split_list_again,
    split_list_append, ?_⟩
  intro moment hmoment hprompt shown
  have hkept : Kept moment.memory.draft := kept_of_mem_readings (keeps_start ctx) hmoment
  obtain ⟨hunbroken, hscreen⟩ | _ := shows_of_mem_readings (shows_start ctx)
    (fun line hline => (typable_of_read hline).unbroken) hmoment
  have hshown : '\n' ∉ shown.toList := Draft.not_mem_join (by decide) hunbroken
  have htypable : Typable shown :=
    typable_of_neat (Draft.neat_join hkept.columns_ne_nil hkept.columns) hshown
  refine ⟨lines_behind_current hunbroken (hscreen hprompt), ?_, ?_⟩
  · have hinput := of_input_page (List.forall_mem_singleton.mpr htypable) ""
    rw [page, page, String.append_empty, String.append_empty] at hinput
    exact hinput
  · rw [hprompt]
    exact answer_shown_columns hkept

/-- Lines that set two columns, drop the blank ones between them, and ask for columns again. -/
def columnsTwice : ByteArray := "1\n1\n sourceip,, username ,\n1\n".toUTF8

/-- The two columns are shown in one line, which is typed to keep them. -/
theorem columns_reentered_two_columns :
    ∃ moment ∈ readings {} (start {}) (Line.ofInput columnsTwice),
      moment.prompt = .columns ∧ linesBehind "Current: " moment.output = ["sourceip, username"] ∧
        answer {} moment.memory moment.prompt "sourceip, username" =
          goTo {} moment.memory .builder := by
  have hreading : ((readings {} (start {}) (Line.ofInput columnsTwice))[4]?.map fun moment =>
      (moment.prompt, moment.memory.draft.columns)) =
        some (.columns, ["sourceip", "username"]) := by
    decide +kernel
  obtain ⟨moment, hmoment, hreading⟩ := Option.map_eq_some_iff.mp hreading
  obtain ⟨hprompt, hcolumns⟩ := Prod.mk.inj hreading
  have hmem := List.mem_of_getElem? hmoment
  obtain ⟨-, -, -, hreadings⟩ := columns_reentered {} columnsTwice
  obtain ⟨hlines, -, hanswer⟩ := hreadings moment hmem hprompt
  rw [hcolumns] at hlines hanswer
  exact ⟨moment, hmem, hprompt, hlines, hanswer⟩

end Ariel.Session
