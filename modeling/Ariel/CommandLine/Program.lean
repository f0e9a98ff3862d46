import Ariel.CommandLine.Outcome
import Ariel.Session.Conversation
import Ariel.Text.Shown
import Ariel.Text.Utf8
import Ariel.Version

/-!
# Programs

There are three programs: one that runs a single command, one that holds a session, and one that
serves requests. What a program does is a plan: it asks its surroundings for files and input step by
step, and comes to an outcome.
-/

namespace Ariel.CommandLine

open Ariel.Query Ariel.Text

/-- Why a file cannot be written: its directory cannot be made, for a reason, or the file itself
cannot be written. -/
inductive WriteFault where
  | noDirectory (reason : String)
  | noFile
  deriving DecidableEq, Repr

/-- What a program does from a point on. -/
inductive Plan where
  | done (outcome : Outcome)
  | readFile (path : String) (next : Option String → Plan)
  | readInput (next : Option String → Plan)
  | writeFile (path text : String) (next : Option WriteFault → Plan)
  | openLog (path : String) (next : Bool → Plan)
  | hold (settings : BuilderSettings)
  | serve (settings : Settings)

namespace Plan

/-- Read files one after the other. -/
def readFiles : List String → (List (Option String) → Plan) → Plan
  | [], next => next []
  | path :: paths, next =>
      .readFile path fun file => readFiles paths fun files => next (file :: files)

/-- Load the settings from the file asked for, which must be well-formed, or else from the standard
places. -/
def loadSettings (env : Environment) (asked : Option String) (next : Settings → Plan) : Plan :=
  match asked with
  | some path =>
      .readFile path fun file =>
        match Settings.loadWith env file with
        | .error _ => .done (.fault "Failed to load configuration")
        | .ok settings => next settings
  | none =>
      readFiles (Settings.standardPlaces env) fun files => next (Settings.loadFirst env files)

/-- Open the log, when it goes to a file. -/
def startLog (settings : LoggingSettings) (next : Plan) : Plan :=
  match settings.file with
  | none => next
  | some path =>
      .openLog path fun opened =>
        if opened then next else .done (.fault "Failed to initialize logging")

end Plan

/-- The three programs. -/
inductive Program where
  | query
  | session
  | service
  deriving DecidableEq, Repr

namespace Program

/-- The name by which a program is called. -/
def name : Program → String
  | .query => "aql-builder-cli"
  | .session => "aql-builder"
  | .service => "aql-builder-api"

/-- The program of a name. -/
def ofName? (name : String) : Option Program :=
  [query, session, service].find? fun program => program.name == name

/-- What a program is for, and what it can be called with. -/
def help : Program → List String
  | .query => [
      "Build, validate and look up QRadar AQL queries", "",
      "Usage: aql-builder-cli [OPTIONS] <COMMAND>", "",
      "Commands:",
      "  build      Assemble a query from clause parts",
      "  validate   Validate query text (reads stdin when no query is given)",
      "  templates  Browse query templates",
      "  reference  Print reference data",
      "  config     Generate default configuration file", "",
      "Options:",
      "  -c, --config <CONFIG>  Config file (default: standard locations)",
      "  -f, --format <FORMAT>  Output format (text, json) [default: text]",
      "  -h, --help             Print help",
      "  -V, --version          Print version"]
  | .session => [
      "Interactive IBM QRadar AQL query builder", "",
      "Usage: aql-builder [OPTIONS]", "",
      "Options:",
      "  -c, --config <CONFIG>  Config file (default: standard locations)",
      "  -t, --table <TABLE>    Table new drafts start from (events, flows)",
      "      --no-clear         Keep previous screens instead of clearing the terminal",
      "      --no-clipboard     Never call external clipboard tools",
      "  -h, --help             Print help",
      "  -V, --version          Print version"]
  | .service => [
      "HTTP API and browser form for the AQL builder", "",
      "Usage: aql-builder-api [OPTIONS]", "",
      "Options:",
      "  -c, --config <CONFIG>  Config file (default: standard locations)",
      "      --host <HOST>      Bind address, overrides the config file",
      "  -p, --port <PORT>      Port, overrides the config file",
      "  -h, --help             Print help",
      "  -V, --version          Print version"]

/-- The outcome when the arguments keep a program from running. -/
def stopped (program : Program) : Stop → Outcome
  | .refused =>
      { status := 2
        errors := page ["error: unexpected arguments", "",
          "For more information, try '--help'."] }
  | .notice .version => .lines [program.name ++ " " ++ version]
  | .notice .help => .lines program.help

end Program

/-- What a command of the query program does. -/
def Command.plan (env : Environment) (config : Option String) (format : Format) :
    Command → Plan
  | .build options =>
      .loadSettings env config fun settings =>
        .done (buildOutcome format options settings.builder)
  | .validate (some query) => .done (validateOutcome format query)
  | .validate none =>
      .readInput fun input =>
        match input with
        | none => .done (.fault "Failed to read query from stdin")
        | some text => .done (validateOutcome format (withoutLineEnd text))
  | .listTemplates category => .done (listOutcome format category)
  | .showTemplate name => .done (withTemplate name (showOutcome format))
  | .renderTemplate name options => .done (withTemplate name (renderOutcome format options))
  | .searchTemplates keyword => .done (searchOutcome format keyword)
  | .fields table => .done (fieldsOutcome format table)
  | .functions none => .done (categoriesOutcome format)
  | .functions (some category) => .done (functionsOutcome format category)
  | .operators => .done (operatorsOutcome format)
  | .timeClauses => .done (timeClausesOutcome format)
  | .writeSettings none => .done (.lines [Settings.sample])
  | .writeSettings (some path) =>
      .writeFile path Settings.sample fun fault =>
        match fault with
        | none => .done (.lines ["Configuration written to " ++ shown path])
        | some .noFile => .done (.fault ("Failed to write " ++ shown path))
        | some (.noDirectory reason) => .done (.fault reason)

/-- What the query program does. -/
def Invocation.plan (env : Environment) (invocation : Invocation) : Plan :=
  let (globals, command) := invocation
  match Format.ofName? (globals.format.getD "text") with
  | .error name =>
      .done (.failure ("Unknown output format: " ++ name ++ " (use text or json)"))
  | .ok format => command.plan env globals.config format

/-- The settings of a session as its options override them. -/
def SessionOptions.overriding (options : SessionOptions) (settings : BuilderSettings) :
    BuilderSettings :=
  { settings with
    defaultTable := options.table.getD settings.defaultTable
    clearScreen := settings.clearScreen && !options.noClear
    clipboard := settings.clipboard && !options.noClipboard }

/-- What the session program does. -/
def SessionOptions.plan (env : Environment) (options : SessionOptions) : Plan :=
  .loadSettings env options.config fun settings =>
    .startLog settings.logging (.hold (options.overriding settings.builder))

/-- The settings of the service as its options override them. -/
def ServiceOptions.overriding (options : ServiceOptions) (settings : ApiSettings) : ApiSettings :=
  { settings with
    host := options.host.getD settings.host
    port := options.port.getD settings.port }

/-- What the service program does. -/
def ServiceOptions.plan (env : Environment) (options : ServiceOptions) : Plan :=
  .loadSettings env options.config fun settings =>
    .startLog settings.logging
      (.serve { settings with api := options.overriding settings.api })

/-- What a program does when it is called with arguments. -/
def Program.plan (program : Program) (env : Environment) (arguments : List String) : Plan :=
  let running := match program with
    | .query => (Invocation.read arguments).map (Invocation.plan env)
    | .session => (SessionOptions.read arguments).map (SessionOptions.plan env)
    | .service => (ServiceOptions.read arguments).map (ServiceOptions.plan env)
  match running with
  | .ok plan => plan
  | .error stop => .done (program.stopped stop)

/-- The outcome when a line of a session cannot be read. -/
def sessionFault : Outcome := .fault "Terminal session failed"

/-- The outcome of a session. -/
def sessionOutcome (transcript : Session.Transcript) : Outcome :=
  { output := join "" transcript.chunks
    status := if transcript.ok then 0 else 1
    errors := if transcript.ok then "" else sessionFault.errors }

/-- What a program finds around it. -/
structure Surroundings where
  file : String → Option String
  input : ByteArray
  writeFault : String → Option WriteFault
  canLog : String → Bool
  canListen : String → Bool
  tools : Clipboard.Attempts

/-- How a plan ends: with an outcome, or in serving requests without end. -/
inductive Ending where
  | finished (outcome : Outcome)
  | serving (settings : Settings)

/-- The end of a plan, and the files that were written on the way. -/
structure Result where
  ending : Ending
  written : List (String × String) := []

/-- The outcome when the service cannot listen on its address. -/
def serviceFault : Outcome := .fault "API server failed"

/-- Carry out a plan. -/
def Plan.perform (around : Surroundings) : Plan → Result
  | .done outcome => { ending := .finished outcome }
  | .readFile path next => (next (around.file path)).perform around
  | .readInput next => (next (textOfBytes? around.input.toList)).perform around
  | .writeFile path text next =>
      match around.writeFault path with
      | some fault => (next (some fault)).perform around
      | none =>
          let result := (next none).perform around
          { result with written := (path, text) :: result.written }
  | .openLog path next => (next (around.canLog path)).perform around
  | .hold settings =>
      let transcript := Session.run ⟨settings, around.tools⟩ (Session.Line.ofInput around.input)
      { ending := .finished (sessionOutcome transcript) }
  | .serve settings =>
      { ending := if around.canListen settings.api.address then .serving settings
          else .finished serviceFault }

end Ariel.CommandLine
