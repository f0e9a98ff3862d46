import Ariel.Json.Record
import Ariel.Text.Blank

/-!
# Settings of the log

What is logged, in which form, and where to. The level goes into a directive, which may name levels
for other parts of the program too.
-/

namespace Ariel

open Json Text

/-- The settings of the log. Without a file the log goes to the standard error stream. -/
structure LoggingSettings where
  level : String := "info"
  format : String := "pretty"
  file : Option String := none
  deriving DecidableEq, Repr

namespace LoggingSettings

/-- The directive that sets the level of the program, followed by further directives. A blank level
is the usual one. -/
def directive (settings : LoggingSettings) (extra : String) : String :=
  let level := if allBlank settings.level then "info" else trim settings.level
  let own := "aql_builder=" ++ level
  if allBlank extra then own else own ++ "," ++ trim extra

/-- Settings as a record. -/
def toJson (settings : LoggingSettings) : Json :=
  .object [("level", .string settings.level), ("format", .string settings.format),
    ("file", .orNull .string settings.file)]

end LoggingSettings

end Ariel
