import Ariel.CommandLine.Program
import Ariel.Proofs.Query.Window.Parser
import Ariel.Proofs.Template.Assignment

/-!
# Calls that fill in templates

A call names a template, then any number of values, and then perhaps a time clause. It is read as
it is meant (`read_render_call`), and it prints the query that the template makes with them
(`plan_render_call`).
-/

namespace Ariel.CommandLine

open Ariel.Query Ariel.Text Ariel.Template

variable {name value : String} {values : List (String × String)} {texts : List String}
  {time : Option String} {options : RenderOptions} {globals : Globals} {rest : List String}

/-- The arguments that fill in a template. -/
def renderCall (name : String) (texts : List String) (time : Option String) : List String :=
  "templates" :: "render" :: name ::
    (texts.flatMap (["--set", ·]) ++ time.toList.flatMap (["--last", ·]))

/-- What the command that fills in templates can be called with. -/
def renderUsage : Usage (Globals × (Option String × RenderOptions)) where
  named := renderArguments.map besideGlobals ++ globalArguments
  operands := [once some (·.1) fun (_, options) name => (some name, options)].map
    fun change text => second (change text)

/-- The arguments that choose how results are printed. -/
def formatArguments : Format → List String
  | .text => []
  | .json => ["--format", "json"]

section Reading

/-- A value is added to those before it. -/
theorem read_from_set (hvalue : Usage.looksNamed value = false) :
    renderUsage.readFrom [] (globals, some name, options) ("--set" :: value :: rest) =
      renderUsage.readFrom []
        (globals, some name, { options with values := options.values ++ [value] }) rest := by
  have hnamed : Usage.looksNamed "--set" = true := by decide
  have hset : renderUsage.readNamed (globals, some name, options) "--set" =
      .awaiting fun value => some
        (globals, some name, { options with values := options.values ++ [value] }) := rfl
  rw [Usage.readFrom, if_neg (by decide), if_neg (by decide), if_pos hnamed, hset]
  simp only [hvalue, Bool.false_eq_true, if_false]

/-- Values are added in their order. -/
theorem read_from_sets (htexts : ∀ text ∈ texts, Usage.looksNamed text = false) :
    renderUsage.readFrom [] (globals, some name, options) (texts.flatMap (["--set", ·]) ++ rest) =
      renderUsage.readFrom []
        (globals, some name, { options with values := options.values ++ texts }) rest := by
  induction texts generalizing options with
  | nil => rw [List.append_nil]; rfl
  | cons text texts ih =>
      rw [List.forall_mem_cons] at htexts
      have hsets : (text :: texts).flatMap (["--set", ·]) ++ rest =
          "--set" :: text :: (texts.flatMap (["--set", ·]) ++ rest) := rfl
      rw [hsets, read_from_set htexts.1, ih htexts.2, List.append_assoc]
      rfl

/-- A time clause is read behind the values. -/
theorem read_from_last (htime : ∀ text ∈ time, Usage.looksNamed text = false) :
    renderUsage.readFrom [] (globals, some name, ⟨texts, none⟩)
        (time.toList.flatMap (["--last", ·])) =
      .ok ((globals, some name, ⟨texts, time⟩), none) := by
  cases time with
  | none => rfl
  | some text =>
      have hnamed : Usage.looksNamed "--last" = true := by decide
      have hlast : renderUsage.readNamed (globals, some name, ⟨texts, none⟩) "--last" =
          .awaiting fun text => some (globals, some name, ⟨texts, some text⟩) := rfl
      have htext : Usage.looksNamed text = false := htime text rfl
      show renderUsage.readFrom [] _ ["--last", text] = _
      rw [Usage.readFrom, if_neg (by decide), if_neg (by decide), if_pos hnamed, hlast]
      simp only [htext, Bool.false_eq_true, if_false]
      rfl

/-- The name of a template is read in front of them. -/
theorem read_from_name (hname : Usage.looksNamed name = false) (hdashes : name ≠ "--") :
    renderUsage.read (globals, none, {}) (name :: rest) =
      renderUsage.readFrom [] (globals, some name, {}) rest := by
  have hcommands : renderUsage.commands.contains name = false := by simp [renderUsage]
  rw [Usage.read, Usage.readFrom.eq_def]
  simp only [hcommands, hdashes, hname, Bool.false_eq_true, if_false]
  rfl

/-- The call is read as it is meant. -/
theorem read_render_call (format : Format) (hname : Usage.looksNamed name = false)
    (hdashes : name ≠ "--") (htexts : ∀ text ∈ texts, Usage.looksNamed text = false)
    (htime : ∀ text ∈ time, Usage.looksNamed text = false) :
    Invocation.read (formatArguments format ++ renderCall name texts time) =
      .ok (⟨none, (formatArguments format)[1]?⟩, .renderTemplate name ⟨texts, time⟩) := by
  have hrecord : renderUsage.read ({}, none, {}) (name :: (texts.flatMap (["--set", ·]) ++
      time.toList.flatMap (["--last", ·]))) = .ok (({}, some name, ⟨texts, time⟩), none) := by
    rw [read_from_name hname hdashes, read_from_sets htexts, List.nil_append, read_from_last htime]
  have hcommand : readCommand renderArguments
      [once some (·.1) fun (_, options) name => (some name, options)] (none, {})
      (fun (name, options) => name.map fun name => .renderTemplate name options)
      (name :: (texts.flatMap (["--set", ·]) ++ time.toList.flatMap (["--last", ·]))) =
        .ok ({}, .renderTemplate name ⟨texts, time⟩) := by
    show (renderUsage.read ({}, none, {}) _ >>= _) = _
    rw [hrecord]
    rfl
  have hbranch : readBranch [] templateCommands ("render" :: name ::
      (texts.flatMap (["--set", ·]) ++ time.toList.flatMap (["--last", ·]))) =
        .ok ({}, .renderTemplate name ⟨texts, time⟩) := by
    show (readCommand renderArguments _ _ _ _ >>= _) = _
    rw [hcommand]
    rfl
  cases format with
  | text =>
      show (readBranch [] templateCommands _ >>= _) = _
      rw [hbranch]
      rfl
  | json =>
      show (readBranch [] templateCommands _ >>= _) = _
      rw [hbranch]
      rfl

/-- The call fills in the template of the name. -/
theorem plan_render_call (env : Environment) (format : Format)
    (hname : Usage.looksNamed name = false) (hdashes : name ≠ "--")
    (htexts : ∀ text ∈ texts, Usage.looksNamed text = false)
    (htime : ∀ text ∈ time, Usage.looksNamed text = false) :
    Program.query.plan env (formatArguments format ++ renderCall name texts time) =
      .done (withTemplate name (renderOutcome format ⟨texts, time⟩)) := by
  rw [Program.plan, read_render_call format hname hdashes htexts htime]
  cases format with
  | text =>
      have hformat : Format.ofName? "text" = .ok .text := by decide +kernel
      show Invocation.plan env (⟨none, none⟩, _) = _
      rw [Invocation.plan, Option.getD_none, hformat]
      rfl
  | json =>
      have hformat : Format.ofName? "json" = .ok .json := by decide +kernel
      show Invocation.plan env (⟨none, some "json"⟩, _) = _
      rw [Invocation.plan, Option.getD_some, hformat]
      rfl

end Reading

section Rendering

variable {template : Template} {window : Window} {assignment : String → Option String}

/-- A key and a value, as they are given in one text. -/
def pairText (pair : String × String) : String := pair.1 ++ "=" ++ pair.2

/-- A text that does not begin with a dash does not look like a name. -/
theorem looks_named_eq_false {text : String} (h : text.toList.head? ≠ some '-') :
    Usage.looksNamed text = false := by
  unfold Usage.looksNamed
  split
  next hdash => exact absurd (by rw [hdash]; rfl) h
  next => rfl

/-- A character of a key, its outer blanks apart, is in the name that the key stands for. -/
theorem mem_placeholder_name {key : String} {c : Char} (hc : c ∈ key.toList)
    (hblank : isBlank c = false) : c.toUpper ∈ (placeholderName key).toList := by
  obtain ⟨left, right, hsplit, hleft, hright⟩ := trimmed_spec key.toList
  rw [hsplit] at hc
  have hmem : c ∈ trimmed key.toList := by
    rcases List.mem_append.mp hc with hc | hc
    · rcases List.mem_append.mp hc with hc | hc
      · rw [hleft c hc] at hblank
        cases hblank
      · exact hc
    · rw [hright c hc] at hblank
      cases hblank
  rw [placeholderName, upper, String.toList_ofList, to_list_trim, capitals]
  exact List.mem_map_of_mem hmem

/-- A key for a placeholder of a library query holds neither dashes nor equals signs. -/
theorem key_plain (ht : template ∈ library) (hassigns : Assigns template.query assignment)
    (hvalues : Gives values assignment) :
    ∀ pair ∈ values, '-' ∉ pair.1.toList ∧ '=' ∉ pair.1.toList := by
  intro pair hpair
  have hvalue := (hvalues _ _).mpr ⟨pair, hpair, rfl, rfl⟩
  have hspelled := spelled_of_placeholder ht (hassigns.known hvalue)
  exact ⟨fun hdash => hspelled.dash (mem_placeholder_name hdash (by decide)),
    fun hequals => hspelled.equals (mem_placeholder_name hequals (by decide))⟩

/-- A key and a value do not look like a name. -/
theorem looks_named_pair_text {pair : String × String} (h : '-' ∉ pair.1.toList) :
    Usage.looksNamed (pairText pair) = false := by
  refine looks_named_eq_false fun hhead => ?_
  rw [pairText, String.append_assoc, String.toList_append, String.toList_append] at hhead
  cases hkey : pair.1.toList with
  | nil =>
      rw [hkey] at hhead
      exact absurd hhead (by simp)
  | cons c cs =>
      rw [hkey] at hhead h
      obtain rfl : c = '-' := by simpa using hhead
      exact h List.mem_cons_self

/-- No time clause begins with a dash. -/
theorem head_of_clause_text {text : List Char} {clause : Window.Clause}
    (h : Window.ClauseText text clause) : text.head? ≠ some '-' := by
  have hbound : ∀ {text content}, Window.BoundText "START" text content →
      ∀ rest, (text ++ rest).head? ≠ some '-' := by
    rintro text content ⟨word, gap, rfl, hword, -, -⟩ rest
    obtain ⟨c, cs, rfl, hc⟩ := Window.head_of_capitals hword
    rintro hhead
    obtain rfl : c = '-' := by simpa using hhead
    exact absurd hc (by decide)
  cases clause with
  | relative amount unit =>
      cases h with
      | bare hamount =>
          obtain ⟨c, cs, rfl, hc⟩ := hamount.head
          rintro hhead
          obtain rfl : c = '-' := by simpa using hhead
          exact absurd hc (by decide)
      | last hword _ _ _ =>
          obtain ⟨c, cs, rfl, hc⟩ := Window.head_of_capitals hword
          rintro hhead
          obtain rfl : c = '-' := by simpa using hhead
          exact absurd hc (by decide)
  | absolute start stop =>
      cases h with
      | startOnly hstart => simpa using hbound hstart []
      | startStop hstart _ _ _ =>
          rw [List.append_assoc]
          exact hbound hstart _

/-- A text for a time range does not look like a name. -/
theorem looks_named_time (htime : TimeText time window) :
    ∀ text ∈ time, Usage.looksNamed text = false := by
  cases htime with
  | kept => nofun
  | @changed text _ hneat _ hparse =>
      rintro _ ⟨⟩
      refine looks_named_eq_false ?_
      have hdenotes := Window.parse_eq_ok_iff.mp hparse
      rw [← to_list_trim, hneat.trimmed] at hdenotes
      generalize text.toList = cs at hdenotes
      cases hdenotes with
      | unbounded => simp
      | clause hclause _ => exact head_of_clause_text hclause

/-- A text is cut at the first mark. -/
theorem cut_at_append {mark : Char} {left : List Char} (h : mark ∉ left) (right : List Char) :
    cutAt? mark (left ++ mark :: right) = some (left, right) := by
  induction left with
  | nil => simp [cutAt?]
  | cons c left ih =>
      rw [List.mem_cons, not_or] at h
      rw [List.cons_append, cutAt?, if_neg (Ne.symm h.1), ih h.2]
      rfl

/-- A key and a value are read back, the key trimmed. -/
theorem value_of_pair_text {pair : String × String} (h : '=' ∉ pair.1.toList) :
    valueOf (pairText pair) = .ok (trim pair.1, pair.2) := by
  have htext : (pairText pair).toList = pair.1.toList ++ '=' :: pair.2.toList := by
    simp [pairText, String.toList_append]
  rw [valueOf, htext, cut_at_append h]
  simp only [String.ofList_toList]

/-- Keys and values are read back one after the other. -/
theorem map_value_of (h : ∀ pair ∈ values, '=' ∉ pair.1.toList) :
    (values.map pairText).mapM valueOf =
      .ok (values.map fun pair => (trim pair.1, pair.2)) := by
  induction values with
  | nil => rfl
  | cons pair values ih =>
      rw [List.forall_mem_cons] at h
      rw [List.map_cons, List.mapM_cons, value_of_pair_text h.1, ih h.2]
      rfl

/-- The query that the options make of a template. -/
theorem render_options (h : ∀ pair ∈ values, '=' ∉ pair.1.toList)
    (htime : TimeText time window) :
    RenderOptions.render ⟨values.map pairText, time⟩ template =
      .ok (withWindow (template.render (values.map fun pair => (trim pair.1, pair.2))) window) := by
  rw [RenderOptions.render, map_value_of h]
  cases htime with
  | kept => rfl
  | changed _ _ hparse =>
      simp only [bind, Except.bind, hparse]
      rfl

/-- Trimmed keys give the same assignment. -/
theorem gives_trimmed (h : Gives values assignment) :
    Gives (values.map fun pair => (trim pair.1, pair.2)) assignment := by
  intro name value
  simp [h name value, placeholderName]

end Rendering

end Ariel.CommandLine
