/-!
# The clipboard

Text is copied by handing it to a clipboard tool. The tools are tried in a fixed order: one that is
not installed or that fails is passed over, and one that cannot be started, or that the text cannot
be written to, ends the attempt. How the tools respond is given from outside, and may differ from
attempt to attempt.
-/

namespace Ariel.Clipboard

/-- The clipboard tools, in the order in which they are tried. -/
inductive Tool where
  | xclip
  | xsel
  | pbcopy
  deriving DecidableEq, Repr

namespace Tool

/-- Every tool, in the order of trial. -/
def all : List Tool := [.xclip, .xsel, .pbcopy]

/-- The name of a tool. -/
def name : Tool → String
  | .xclip => "xclip"
  | .xsel => "xsel"
  | .pbcopy => "pbcopy"

/-- The arguments that make a tool take the text from its input. -/
def arguments : Tool → List String
  | .xclip => ["-selection", "clipboard"]
  | .xsel => ["--clipboard", "--input"]
  | .pbcopy => []

end Tool

/-- What happens when a tool is started: it is not there, it cannot be started for a reason, it is
started and the text cannot be written to it for a reason, or it takes the text and ends with a
status, which is zero for success. An attempt waits for the tool that it has started, so there is no
response for a tool that never ends: a tool that is started ends. -/
inductive Response where
  | missing
  | refused (reason : String)
  | broken (reason : String)
  | exited (status : Nat)
  deriving DecidableEq, Repr

/-- How each tool responds in one attempt. -/
abbrev Tools := Tool → Response

/-- No tool is installed. -/
def noTools : Tools := fun _ => .missing

/-- How the tools respond in each attempt, counted from zero. -/
structure Attempts where
  response : Nat → Tools

/-- Tools that respond alike in every attempt. -/
instance : Coe Tools Attempts where
  coe tools := ⟨fun _ => tools⟩

/-- Why a text is not copied. -/
inductive Failure where
  | disabled
  | unavailable
  | notCopied (reason : String)
  deriving DecidableEq, Repr

/-- The wording of a failure. -/
def Failure.message : Failure → String
  | .disabled => "Clipboard support is disabled"
  | .unavailable => "Clipboard tools not available (install xclip or xsel)"
  | .notCopied reason => "Could not copy to clipboard: " ++ reason

/-- The outcome of an attempt, and the tools that were started for the text. -/
structure Outcome where
  result : Except Failure Tool
  fed : List Tool

/-- Try the tools in order. -/
def tryTools (tools : Tools) : List Tool → Outcome
  | [] => ⟨.error .unavailable, []⟩
  | tool :: others =>
      match tools tool with
      | .missing => tryTools tools others
      | .refused reason => ⟨.error (.notCopied reason), []⟩
      | .broken reason => ⟨.error (.notCopied reason), [tool]⟩
      | .exited 0 => ⟨.ok tool, [tool]⟩
      | .exited (_ + 1) =>
          let later := tryTools tools others
          ⟨later.result, tool :: later.fed⟩

/-- Copy a text, when copying is enabled. -/
def copy (enabled : Bool) (tools : Tools) : Outcome :=
  if enabled then tryTools tools Tool.all else ⟨.error .disabled, []⟩

end Ariel.Clipboard
