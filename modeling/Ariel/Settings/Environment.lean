import Ariel.Settings.File
import Ariel.Text.Ascii
import Ariel.Text.Numeral

/-!
# Settings and the environment

Environment variables override single settings. Settings come from a file that is asked for, which
must be there and be well-formed, or from the first well-formed file among some places, or else
from the defaults.
-/

namespace Ariel

open Text Query

/-- The values of environment variables. -/
abbrev Environment := String → Option String

namespace Settings

/-- A switch that is on or off, in ASCII letters of any case and with blanks around it. -/
def switch? (text : String) : Option Bool :=
  match lower (trim text) with
  | "1" | "true" | "yes" | "on" => some true
  | "0" | "false" | "no" | "off" => some false
  | _ => none

/-- A port number in decimal digits. -/
def portOfText? (text : String) : Option UInt16 :=
  (numeral? UInt16.size text.toList).map UInt16.ofNat

/-- The settings as the environment overrides them. A variable that cannot be read changes
nothing. -/
def overridden (settings : Settings) (env : Environment) : Settings :=
  { api := { settings.api with
      host := (env "AQL_BUILDER_API_HOST").getD settings.api.host
      port := ((env "AQL_BUILDER_API_PORT").bind portOfText?).getD settings.api.port }
    builder := { settings.builder with
      defaultTable := ((env "AQL_BUILDER_DEFAULT_TABLE").bind
        fun name => (Table.ofName name).toOption).getD settings.builder.defaultTable
      clipboard := ((env "AQL_BUILDER_CLIPBOARD").bind switch?).getD settings.builder.clipboard }
    logging := { settings.logging with
      level := (env "AQL_BUILDER_LOG_LEVEL").getD settings.logging.level
      format := (env "AQL_BUILDER_LOG_FORMAT").getD settings.logging.format } }

/-- Why settings cannot be loaded: their file cannot be read as text, or it is no settings file. -/
inductive LoadError where
  | unreadable
  | malformed
  deriving DecidableEq, Repr

/-- The settings in a file, given its text when it can be read. -/
def load (file : Option String) : Except LoadError Settings :=
  match file with
  | none => .error .unreadable
  | some text =>
      match ofText? text with
      | none => .error .malformed
      | some settings => .ok settings

/-- The settings in a file as the environment overrides them. -/
def loadWith (env : Environment) (file : Option String) : Except LoadError Settings :=
  (load file).map fun settings => settings.overridden env

/-- The settings of the first file that can be loaded, or the defaults, as the environment overrides
them. -/
def loadFirst (env : Environment) : List (Option String) → Settings
  | [] => overridden {} env
  | file :: files =>
      match loadWith env file with
      | .ok settings => settings
      | .error _ => loadFirst env files

/-- Settings as a record. -/
def toJson (settings : Settings) : Json :=
  .object [("api", settings.api.toJson), ("builder", settings.builder.toJson),
    ("logging", settings.logging.toJson)]

/-- The places where settings are looked for: the user's own directory, the system's, and the
working directory. -/
def standardPlaces (env : Environment) : List String :=
  let own := match env "XDG_CONFIG_HOME", env "HOME" with
    | some directory, home =>
        if directory.startsWith "/" then some directory else home.map (· ++ "/.config")
    | none, home => home.map (· ++ "/.config")
  (own.map (· ++ "/aql-builder/config.toml")).toList
    ++ ["/etc/aql-builder/config.toml", "./aql-builder.toml"]

end Settings

end Ariel
