import Ariel.Text.Joined

/-!
# Reading arguments

A command is called with named arguments, operands and further commands. A named argument has a long
name after two dashes and may have a short one after one dash. Its value is attached to the name or
is the next argument, which then must not look like a name itself. Two dashes alone end the names.
Arguments are read from left to right, and the first one that is wrong or that asks for a notice
ends the reading.
-/

namespace Ariel.CommandLine

open Ariel.Text

/-- What is printed instead of running. -/
inductive Notice where
  | version
  | help
  deriving DecidableEq, Repr

/-- Why a command does not run: its arguments are refused, or they ask for a notice. -/
inductive Stop where
  | refused
  | notice (notice : Notice)
  deriving DecidableEq, Repr

/-- What a named argument does to the record of what was read. Changes may fail. -/
inductive Use (ρ : Type) where
  | notice (notice : Notice)
  | switch (change : ρ → Option ρ)
  | value (change : String → ρ → Option ρ)

/-- A named argument. -/
structure Named (ρ : Type) where
  long : String
  short : Option Char
  use : Use ρ

/-- What a command can be called with. It has operands or further commands, not both. -/
structure Usage (ρ : Type) where
  named : List (Named ρ)
  operands : List (String → ρ → Option ρ) := []
  commands : List String := []

/-- How reading goes on after one argument: with another record, with a record that still needs the
next argument, or not at all. -/
inductive Step (ρ : Type) where
  | stop (stop : Stop)
  | read (record : ρ)
  | awaiting (change : String → Option ρ)

/-- A change that must not fail. -/
def Step.ofChange {ρ : Type} : Option ρ → Step ρ
  | some record => .read record
  | none => .stop .refused

namespace Usage

variable {ρ : Type}

/-- Read an argument that begins with two dashes, given what follows them. A value is attached with
an equals sign. -/
def readLong (usage : Usage ρ) (record : ρ) (text : List Char) : Step ρ :=
  let (name, attached) := match cutAt? '=' text with
    | some (name, value) => (name, some (String.ofList value))
    | none => (text, none)
  match usage.named.find? (fun named => named.long.toList == name) with
  | none => .stop .refused
  | some named =>
      match named.use, attached with
      | .notice notice, none => .stop (.notice notice)
      | .switch change, none => .ofChange (change record)
      | .value change, some value => .ofChange (change value record)
      | .value change, none => .awaiting fun value => change value record
      | _, some _ => .stop .refused

/-- Read an argument that begins with one dash, given what follows it. Switches may stand together.
A value is attached as it is, or with an equals sign. -/
def readShort (usage : Usage ρ) (record : ρ) : List Char → Step ρ
  | [] => .read record
  | c :: cs =>
      match usage.named.find? (fun named => named.short == some c) with
      | none => .stop .refused
      | some named =>
          match named.use with
          | .notice notice => .stop (.notice notice)
          | .switch change =>
              match change record with
              | some record => readShort usage record cs
              | none => .stop .refused
          | .value change =>
              match cs with
              | [] => .awaiting fun value => change value record
              | '=' :: value => .ofChange (change (String.ofList value) record)
              | value => .ofChange (change (String.ofList value) record)

/-- Whether an argument looks like a name. A dash alone does not. -/
def looksNamed (argument : String) : Bool :=
  match argument.toList with
  | '-' :: _ :: _ => true
  | _ => false

/-- Read one argument that looks like a name. -/
def readNamed (usage : Usage ρ) (record : ρ) (argument : String) : Step ρ :=
  match argument.toList with
  | '-' :: '-' :: text => usage.readLong record text
  | '-' :: text => usage.readShort record text
  | _ => .stop .refused

/-- Read operands only. -/
def readOperands : List (String → ρ → Option ρ) → ρ → List String → Except Stop ρ
  | _, record, [] => .ok record
  | [], _, _ :: _ => .error .refused
  | change :: operands, record, argument :: arguments =>
      match change argument record with
      | some record => readOperands operands record arguments
      | none => .error .refused

/-- Read arguments up to the name of a further command, with which that command's own arguments
come, or up to the end. -/
def readFrom (usage : Usage ρ) (operands : List (String → ρ → Option ρ)) (record : ρ) :
    List String → Except Stop (ρ × Option (String × List String))
  | [] => .ok (record, none)
  | argument :: arguments =>
      if usage.commands.contains argument then .ok (record, some (argument, arguments))
      else if argument = "--" then
        (readOperands operands record arguments).map fun record => (record, none)
      else if looksNamed argument then
        match usage.readNamed record argument with
        | .stop stop => .error stop
        | .read record => readFrom usage operands record arguments
        | .awaiting change =>
            match arguments with
            | [] => .error .refused
            | value :: arguments =>
                if looksNamed value then .error .refused
                else match change value with
                  | none => .error .refused
                  | some record => readFrom usage operands record arguments
      else match operands with
        | [] => .error .refused
        | change :: operands =>
            match change argument record with
            | none => .error .refused
            | some record => readFrom usage operands record arguments

/-- Read the arguments of a command into a record. -/
def read (usage : Usage ρ) (record : ρ) (arguments : List String) :
    Except Stop (ρ × Option (String × List String)) :=
  usage.readFrom usage.operands record arguments

end Usage

/-- Set what must not be set twice. -/
def once {ρ α : Type} (decode : String → Option α) (get : ρ → Option α)
    (set : ρ → α → ρ) : String → ρ → Option ρ := fun text record =>
  if (get record).isSome then none else (decode text).map (set record)

/-- Turn on what must not be turned on twice. -/
def onceOn {ρ : Type} (get : ρ → Bool) (set : ρ → ρ) : ρ → Option ρ := fun record =>
  if get record then none else some (set record)

/-- Add one more text. -/
def more {ρ : Type} (add : ρ → String → ρ) : String → ρ → Option ρ := fun text record =>
  some (add record text)

/-- Add the texts between commas. -/
def moreOfList {ρ : Type} (add : ρ → List String → ρ) : String → ρ → Option ρ :=
  fun text record => some (add record ((splitAt ',' text.toList).map String.ofList))

/-- A path, which must not be empty. -/
def path? (text : String) : Option String :=
  if text.isEmpty then none else some text

/-- The named argument that asks for help. -/
def helpArgument {ρ : Type} : Named ρ := ⟨"help", some 'h', .notice .help⟩

/-- The named argument that asks for the version. -/
def versionArgument {ρ : Type} : Named ρ := ⟨"version", some 'V', .notice .version⟩

end Ariel.CommandLine
