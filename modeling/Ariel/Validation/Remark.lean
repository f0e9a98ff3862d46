import Ariel.Text.Blank

/-!
# Remarks

What a check has to say about a query: a severity, a message, and where it applies.
-/

namespace Ariel.Validation

open Ariel.Text

/-- How grave a remark is, gravest first. -/
inductive Severity where
  | error
  | warning
  | suggestion
  deriving DecidableEq, Repr

/-- The name of a severity. -/
def Severity.name : Severity → String
  | .error => "error"
  | .warning => "warning"
  | .suggestion => "suggestion"

/-- A remark on a query. The position is a byte offset into the query. -/
structure Remark where
  severity : Severity
  message : String
  position : Option Nat := none
  deriving DecidableEq, Repr

namespace Remark

/-- A remark that makes the query invalid. -/
def error (message : String) : Remark := { severity := .error, message }

/-- A remark on something that is probably not meant. -/
def warning (message : String) : Remark := { severity := .warning, message }

/-- A remark on something that could be better. -/
def suggestion (message : String) : Remark := { severity := .suggestion, message }

/-- The remark, made about a position. -/
def placed (remark : Remark) (position : Nat) : Remark :=
  { remark with position := some position }

/-- Remarks in the order of their positions; those at one position keep their order. -/
def sortByPosition (remarks : List Remark) : List Remark :=
  remarks.mergeSort fun a b => a.position.getD 0 ≤ b.position.getD 0

end Remark

/-- How many bytes of text are shown on each side of a position. -/
def excerptRadius : Nat := 12

/-- The characters of a text, the first of which stands at a byte offset, that share a byte with
the surroundings of a position. -/
def around (position : Nat) : (offset : Nat) → List Char → List Char
  | _, [] => []
  | offset, c :: cs =>
      let rest := around position (offset + c.utf8Size) cs
      if position - excerptRadius < offset + c.utf8Size && offset < position + excerptRadius then
        c :: rest
      else rest

/-- The text around a byte offset, trimmed. -/
def excerpt (cs : List Char) (position : Nat) : String :=
  String.ofList (trimmed (around position 0 cs))

end Ariel.Validation
