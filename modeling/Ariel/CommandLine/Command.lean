import Ariel.CommandLine.Arguments
import Ariel.Query.Selection
import Ariel.Query.Window.Parser
import Ariel.Settings.Environment

/-!
# Commands

What the query program can be asked to do: build a query, validate one, show and fill in templates,
look something up, or write a settings file. The settings file and the output format may be named
before or after a command; the innermost one counts.
-/

namespace Ariel.CommandLine

open Ariel.Query Ariel.Text

/-- A query to build. The time range is a time clause, or a start and perhaps a stop. -/
structure BuildOptions where
  selection : Selection := {}
  last : Option String := none
  start : Option String := none
  stop : Option String := none
  multiline : Bool := false
  deriving DecidableEq, Repr

/-- Values for the placeholders of a template, and perhaps a time clause. -/
structure RenderOptions where
  values : List String := []
  last : Option String := none
  deriving DecidableEq, Repr

/-- A command of the query program. -/
inductive Command where
  | build (options : BuildOptions)
  | validate (query : Option String)
  | listTemplates (category : Option String)
  | showTemplate (name : String)
  | renderTemplate (name : String) (options : RenderOptions)
  | searchTemplates (keyword : String)
  | fields (table : Table)
  | functions (category : Option String)
  | operators
  | timeClauses
  | writeSettings (path : Option String)
  deriving DecidableEq, Repr

/-- What can be named with every command. -/
structure Globals where
  config : Option String := none
  format : Option String := none
  deriving DecidableEq, Repr

/-- The globals of a command and of a command inside it. -/
def Globals.overlaid (outer inner : Globals) : Globals :=
  ⟨inner.config.or outer.config, inner.format.or outer.format⟩

/-- The arguments that set the globals, beside a record of other arguments. -/
def globalArguments {ρ : Type} : List (Named (Globals × ρ)) := [
  ⟨"config", some 'c', .value (once path? (·.1.config) fun (globals, record) path =>
    ({ globals with config := some path }, record))⟩,
  ⟨"format", some 'f', .value (once some (·.1.format) fun (globals, record) format =>
    ({ globals with format := some format }, record))⟩,
  helpArgument]

/-- A command with its globals. -/
abbrev Invocation := Globals × Command

/-- Change the second part of a pair. -/
def second {ρ : Type} (change : ρ → Option ρ) : Globals × ρ → Option (Globals × ρ)
  | (globals, record) => (change record).map (globals, ·)

/-- A named argument beside the globals. -/
def besideGlobals {ρ : Type} (named : Named ρ) : Named (Globals × ρ) where
  long := named.long
  short := named.short
  use := match named.use with
    | .notice notice => .notice notice
    | .switch change => .switch (second change)
    | .value change => .value fun text => second (change text)

/-- Read the arguments of a command that has no further commands. -/
def readCommand {ρ : Type} (named : List (Named ρ)) (operands : List (String → ρ → Option ρ))
    (initial : ρ) (command : ρ → Option Command) (arguments : List String) :
    Except Stop Invocation := do
  let usage : Usage (Globals × ρ) := {
    named := named.map besideGlobals ++ globalArguments
    operands := operands.map fun change text => second (change text) }
  let ((globals, record), _) ← usage.read ({}, initial) arguments
  match command record with
  | some command => pure (globals, command)
  | none => throw .refused

/-- Read the arguments of a command that needs a further command. -/
def readBranch (notices : List (Named (Globals × Unit)))
    (commands : List (String × (List String → Except Stop Invocation)))
    (arguments : List String) : Except Stop Invocation := do
  let usage : Usage (Globals × Unit) := {
    named := notices ++ globalArguments
    commands := "help" :: commands.map Prod.fst }
  match ← usage.read ({}, ()) arguments with
  | (_, none) => throw .refused
  | ((outer, _), some (name, arguments)) =>
      match commands.lookup name, arguments with
      | some inner, _ => do
          let (globals, command) ← inner arguments
          pure (outer.overlaid globals, command)
      | none, [] => throw (.notice .help)
      | none, name :: _ => throw (if (commands.lookup name).isSome then .notice .help else .refused)

/-- An integer in decimal digits with an optional sign, from zero up to a bound. -/
def naturalBelow? (below : Nat) (text : String) : Option Nat :=
  match text.toList with
  | '-' :: digits =>
      if digits.head?.any Char.isDigit then (numeral? 1 digits) else none
  | digits => numeral? below digits

/-- A limit of rows. -/
def rows? (text : String) : Option UInt32 :=
  (naturalBelow? UInt32.size text).map UInt32.ofNat

/-- The name of a table. -/
def table? (text : String) : Option Table := (Table.ofName text).toOption

/-- The keyword of a direction. -/
def direction? (text : String) : Option Direction := (Direction.ofKeyword text).toOption

/-- An argument of a query to build that goes into its selection. -/
def selecting (long : String) (short : Option Char)
    (change : String → Selection → Option Selection) : Named BuildOptions :=
  ⟨long, short, .value fun text options =>
    (change text options.selection).map fun selection => { options with selection }⟩

/-- The arguments of a query to build. -/
def buildArguments : List (Named BuildOptions) := [
  selecting "table" (some 't') (once table? (·.table) fun s table => { s with table }),
  selecting "select" (some 's') (moreOfList fun s texts =>
    { s with columns := s.columns ++ texts }),
  selecting "where" (some 'w') (more fun s text => { s with conditions := s.conditions ++ [text] }),
  selecting "group-by" (some 'g') (moreOfList fun s texts =>
    { s with groupBy := s.groupBy ++ texts }),
  selecting "having" none (more fun s text => { s with having := s.having ++ [text] }),
  selecting "order-by" (some 'o') (moreOfList fun s texts =>
    { s with orderBy := s.orderBy ++ texts }),
  selecting "order" none (once direction? (·.direction) fun s direction => { s with direction }),
  selecting "limit" (some 'l') (once rows? (·.limit) fun s limit => { s with limit }),
  ⟨"last", none, .value (once some (·.last) fun options last => { options with last })⟩,
  ⟨"start", none, .value (once some (·.start) fun options start => { options with start })⟩,
  ⟨"stop", none, .value (once some (·.stop) fun options stop => { options with stop })⟩,
  ⟨"multiline", some 'm', .switch (onceOn (·.multiline) fun options =>
    { options with multiline := true })⟩]

/-- The query to build. A time clause excludes a start, and a stop needs a start unless there is a
time clause. -/
def BuildOptions.toCommand? (options : BuildOptions) : Option Command :=
  match options.last, options.start, options.stop with
  | some _, some _, _ => none
  | none, none, some _ => none
  | _, _, _ => some (.build options)

/-- An operand that is a text. -/
def operand : String → Option String → Option (Option String) :=
  once some id fun _ text => some text

/-- Read the arguments of a command that has one text as an operand. -/
def readOperand (command : Option String → Option Command) :
    List String → Except Stop Invocation :=
  readCommand [] [operand] none command

/-- The arguments of a template to fill in. -/
def renderArguments : List (Named (Option String × RenderOptions)) := [
  ⟨"set", some 's', .value (more fun (name, options) text =>
    (name, { options with values := options.values ++ [text] }))⟩,
  ⟨"last", none, .value (once some (·.2.last) fun (name, options) last =>
    (name, { options with last := some last }))⟩]

/-- The commands on templates. -/
def templateCommands : List (String × (List String → Except Stop Invocation)) := [
  ("list", readCommand
    [⟨"category", none, .value operand⟩] [] none fun category => some (.listTemplates category)),
  ("show", readOperand fun name => name.map .showTemplate),
  ("render", readCommand renderArguments
    [once some (·.1) fun (_, options) name => (some name, options)] (none, {})
    fun (name, options) => name.map fun name => .renderTemplate name options),
  ("search", readOperand fun keyword => keyword.map .searchTemplates)]

/-- The commands that look something up. -/
def referenceCommands : List (String × (List String → Except Stop Invocation)) := [
  ("fields", readCommand [] [once table? id fun _ table => some table] none
    fun table => some (.fields (table.getD .events))),
  ("functions", readOperand fun category => some (.functions category)),
  ("operators", readCommand [] [] () fun _ => some .operators),
  ("time", readCommand [] [] () fun _ => some .timeClauses)]

/-- The commands of the query program. -/
def queryCommands : List (String × (List String → Except Stop Invocation)) := [
  ("build", readCommand buildArguments [] {} BuildOptions.toCommand?),
  ("validate", readOperand fun query => some (.validate query)),
  ("templates", readBranch [] templateCommands),
  ("reference", readBranch [] referenceCommands),
  ("config", readCommand
    [⟨"output", some 'o', .value (once path? id fun _ path => some path)⟩] [] none
    fun path => some (.writeSettings path))]

/-- Read the arguments of the query program. -/
def Invocation.read (arguments : List String) : Except Stop Invocation :=
  readBranch [versionArgument] queryCommands arguments

/-- The arguments of the session program. -/
structure SessionOptions where
  config : Option String := none
  table : Option Table := none
  noClear : Bool := false
  noClipboard : Bool := false
  deriving DecidableEq, Repr

/-- Read the arguments of the session program. -/
def SessionOptions.read (arguments : List String) : Except Stop SessionOptions :=
  let usage : Usage SessionOptions := { named := [
    ⟨"config", some 'c', .value (once path? (·.config) fun options path =>
      { options with config := some path })⟩,
    ⟨"table", some 't', .value (once table? (·.table) fun options table =>
      { options with table := some table })⟩,
    ⟨"no-clear", none, .switch (onceOn (·.noClear) fun options =>
      { options with noClear := true })⟩,
    ⟨"no-clipboard", none, .switch (onceOn (·.noClipboard) fun options =>
      { options with noClipboard := true })⟩,
    helpArgument, versionArgument] }
  (usage.read {} arguments).map Prod.fst

/-- The arguments of the service program. -/
structure ServiceOptions where
  config : Option String := none
  host : Option String := none
  port : Option UInt16 := none
  deriving DecidableEq, Repr

/-- Read the arguments of the service program. -/
def ServiceOptions.read (arguments : List String) : Except Stop ServiceOptions :=
  let usage : Usage ServiceOptions := { named := [
    ⟨"config", some 'c', .value (once path? (·.config) fun options path =>
      { options with config := some path })⟩,
    ⟨"host", none, .value (once some (·.host) fun options host =>
      { options with host := some host })⟩,
    ⟨"port", some 'p', .value (once (fun text => (naturalBelow? UInt16.size text).map UInt16.ofNat)
      (·.port) fun options port => { options with port := some port })⟩,
    helpArgument, versionArgument] }
  (usage.read {} arguments).map Prod.fst

end Ariel.CommandLine
