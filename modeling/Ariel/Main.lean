import Ariel.CommandLine.Program

/-!
# Running the programs

The first argument is the name of a program and the others are its own arguments. What the program
asks of its surroundings is done here; what it says is decided elsewhere.
-/

namespace Ariel.Main

open Ariel.CommandLine

/-- Print an outcome and return its status. -/
def finish (outcome : Outcome) : IO UInt32 := do
  IO.print outcome.output
  IO.eprint outcome.errors
  (← IO.getStdout).flush
  return outcome.status.toUInt32

/-- The text of a file, when it can be read as text. -/
def fileText (path : String) : IO (Option String) := do
  try return some (← IO.FS.readFile path) catch _ => return none

/-- The directory of a path. -/
def directory (path : String) : String :=
  let kept := (path.toList.reverse.dropWhile (· == '/')).dropWhile (· != '/')
  String.ofList kept.reverse

/-- Write a file into its directory, which is made when it is missing. -/
def write (path text : String) : IO (Option WriteFault) := do
  let parent := directory path
  try
    unless parent.isEmpty do IO.FS.createDirAll parent
  catch error => return some (.noDirectory error.toString)
  try
    IO.FS.writeFile path text
    return none
  catch _ => return some .noFile

/-- Whether a file can be opened to add to it. -/
def canAppend (path : String) : IO Bool := do
  try
    let _ ← IO.FS.Handle.mk path .append
    return true
  catch _ => return false

/-- The bytes of the input up to its end. -/
partial def inputBytes (input : IO.FS.Stream) (before : ByteArray) : IO ByteArray := do
  let bytes ← input.read 65536
  if bytes.isEmpty then return before
  inputBytes input (before ++ bytes)

/-- Print text at once. -/
def say (text : String) : IO Unit := do
  IO.print text
  (← IO.getStdout).flush

/-- The bytes of a line of input, its end included. -/
partial def lineBytes (input : IO.FS.Stream) (before : List UInt8) : IO (List UInt8) := do
  match (← input.read 1).toList with
  | [] => return before.reverse
  | b :: _ => if b = 10 then return (b :: before).reverse else lineBytes input (b :: before)

/-- Read one line of a session, unless the input has ended. -/
def readLine (input : IO.FS.Stream) : IO (Option Session.Line) := do
  match ← lineBytes input [] with
  | [] => return none
  | bytes => return some (Session.Line.ofBytes bytes)

/-- Hold a session up to its end. -/
partial def hold (ctx : Session.Context) (input : IO.FS.Stream) :
    Session.Progress → IO UInt32
  | .finished _ output => do
      say output
      return 0
  | .asking memory prompt output => do
      say output
      match ← readLine input with
      | some (.text line) => hold ctx input (Session.answer ctx memory prompt line)
      | some .undecodable => finish sessionFault
      | none => hold ctx input (Session.answerEnd ctx memory prompt)

/-- Carry out a plan. No clipboard tool is started, and no address is listened on. -/
def carryOut : Plan → IO UInt32
  | .done outcome => finish outcome
  | .readFile path next => do carryOut (next (← fileText path))
  | .readInput next => do
      let bytes ← inputBytes (← IO.getStdin) .empty
      carryOut (next (String.fromUTF8? bytes))
  | .writeFile path text next => do carryOut (next (← write path text))
  | .openLog path next => do carryOut (next (← canAppend path))
  | .hold settings => do
      let ctx : Session.Context := { settings }
      hold ctx (← IO.getStdin) (Session.start ctx)
  | .serve _ => finish serviceFault

/-- The environment variables that settings depend on. -/
def settingVariables : List String :=
  ["AQL_BUILDER_API_HOST", "AQL_BUILDER_API_PORT", "AQL_BUILDER_DEFAULT_TABLE",
    "AQL_BUILDER_CLIPBOARD", "AQL_BUILDER_LOG_LEVEL", "AQL_BUILDER_LOG_FORMAT",
    "XDG_CONFIG_HOME", "HOME"]

/-- The environment of the process. -/
def environment : IO Environment := do
  let values ← settingVariables.mapM fun name => do return (name, ← IO.getEnv name)
  return fun name => (values.lookup name).join

/-- The names of the programs, for a call that names none. -/
def usage : String :=
  "error: the first argument must be one of "
    ++ Text.join ", " ([Program.query, .session, .service].map Program.name)

end Ariel.Main

/-- Run the program that the first argument names. -/
def main (arguments : List String) : IO UInt32 := do
  match (arguments.head?.bind Ariel.CommandLine.Program.ofName?), arguments with
  | some program, _ :: arguments =>
      Ariel.Main.carryOut (program.plan (← Ariel.Main.environment) arguments)
  | _, _ =>
      Ariel.Main.finish { status := 2, errors := Ariel.Text.page [Ariel.Main.usage] }
