import Ariel.Settings.Api
import Ariel.Settings.Builder
import Ariel.Settings.Logging
import Ariel.Text.Joined
import Ariel.Toml.Document
import Ariel.Toml.Record

/-!
# Settings files

Settings are kept in a TOML file with a section for each part of the program. What the file leaves
out has its default.
-/

namespace Ariel

open Toml Query

/-- Read the section on the service. -/
def ApiSettings.ofToml? (value : Toml) : Option ApiSettings := do
  match ← record? ["host", "port", "cors_origins", "request_timeout_secs"] value with
  | [host, port, origins, timeout] =>
      let standard : ApiSettings := {}
      some {
        host := ← orDefault standard.host string? host
        port := ← orDefault standard.port
          (fun value => (natBelow? UInt16.size value).map UInt16.ofNat) port
        corsOrigins := ← orDefault [] strings? origins
        requestTimeout := ← orDefault standard.requestTimeout
          (fun value => (natBelow? UInt64.size value).map UInt64.ofNat) timeout }
  | _ => none

/-- Read the section on the query builder. -/
def BuilderSettings.ofToml? (value : Toml) : Option BuilderSettings := do
  match ← record? ["default_table", "default_order", "clear_screen", "clipboard"] value with
  | [defaultTable, defaultOrder, clearScreen, clipboard] =>
      some {
        defaultTable := ← orDefault .events (word? Table.ofWord?) defaultTable
        defaultOrder := ← orDefault .descending (word? Direction.ofWord?) defaultOrder
        clearScreen := ← orDefault true bool? clearScreen
        clipboard := ← orDefault true bool? clipboard }
  | _ => none

/-- Read the section on the log. When it is a list of its fields, it must not end before the
file. -/
def LoggingSettings.ofToml? (value : Toml) : Option LoggingSettings := do
  match ← record? ["level", "format", "file"] value, value with
  | [_, _, none], .array _ | [_, _, none], .tables _ => none
  | [level, format, file], _ =>
      let standard : LoggingSettings := {}
      some {
        level := ← orDefault standard.level string? level
        format := ← orDefault standard.format string? format
        file := ← orDefault none (fun value => (string? value).map some) file }
  | _, _ => none

/-- The settings of all parts of the program. -/
structure Settings where
  api : ApiSettings := {}
  builder : BuilderSettings := {}
  logging : LoggingSettings := {}
  deriving DecidableEq, Repr

/-- Read settings from the text of their file. -/
def Settings.ofText? (text : String) : Option Settings := do
  match ← record? ["api", "builder", "logging"] (← document? text) with
  | [api, builder, logging] =>
      some {
        api := ← orDefault {} ApiSettings.ofToml? api
        builder := ← orDefault {} BuilderSettings.ofToml? builder
        logging := ← orDefault {} LoggingSettings.ofToml? logging }
  | _ => none

/-- A settings file that says what the defaults are, with comments. -/
def Settings.sample : String :=
  Text.page [
    "# AQL Builder Configuration",
    "#",
    "# Environment variables override these settings:",
    "# - AQL_BUILDER_API_HOST",
    "# - AQL_BUILDER_API_PORT",
    "# - AQL_BUILDER_DEFAULT_TABLE",
    "# - AQL_BUILDER_CLIPBOARD",
    "# - AQL_BUILDER_LOG_LEVEL",
    "# - AQL_BUILDER_LOG_FORMAT",
    "",
    "[api]",
    "# API server host",
    "host = \"0.0.0.0\"",
    "",
    "# API server port",
    "port = 8085",
    "",
    "# Allowed CORS origins (empty allows any origin)",
    "cors_origins = []",
    "",
    "# Request timeout in seconds",
    "request_timeout_secs = 30",
    "",
    "[builder]",
    "# Table a new query starts from: events or flows",
    "default_table = \"events\"",
    "",
    "# ORDER BY direction when none is chosen: ASC or DESC",
    "default_order = \"DESC\"",
    "",
    "# Clear the terminal between menu screens",
    "clear_screen = true",
    "",
    "# Offer copying queries with xclip, xsel or pbcopy",
    "clipboard = true",
    "",
    "[logging]",
    "# Log level: trace, debug, info, warn, error",
    "level = \"info\"",
    "",
    "# Log format: pretty (for development) or json (for production)",
    "format = \"pretty\"",
    "",
    "# Optional log file path",
    "# file = \"/var/log/aql-builder/aql-builder.log\""]

end Ariel
