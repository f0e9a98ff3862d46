import Ariel.Json.Value

/-!
# Samples of time clauses

Time clauses to choose from, with what they mean.
-/

namespace Ariel.Catalog

/-- A sample of a time clause. -/
structure TimeClauseSample where
  kind : String
  text : String
  description : String
  deriving DecidableEq, Repr

/-- The samples, in display order. -/
def timeClauses : List TimeClauseSample := [
  ⟨"LAST", "LAST 5 MINUTES", "Last 5 minutes"⟩,
  ⟨"LAST", "LAST 1 HOURS", "Last 1 hour"⟩,
  ⟨"LAST", "LAST 24 HOURS", "Last 24 hours"⟩,
  ⟨"LAST", "LAST 7 DAYS", "Last 7 days"⟩,
  ⟨"LAST", "LAST 30 DAYS", "Last 30 days"⟩,
  ⟨"START/STOP", "START '2024-01-01 00:00' STOP '2024-01-02 00:00'", "Specific date range"⟩,
  ⟨"START/STOP", "START '2024-01-01 09:00:00' STOP '2024-01-01 17:00:00'", "Specific time range"⟩,
  ⟨"PARSEDATETIME", "START PARSEDATETIME('1 hour ago') STOP PARSEDATETIME('now')",
    "Dynamic time range"⟩,
  ⟨"PARSEDATETIME", "START PARSEDATETIME('1 day ago')", "From 1 day ago to now"⟩]

/-- A sample as a record. -/
def TimeClauseSample.toJson (sample : TimeClauseSample) : Json :=
  .object [("kind", .string sample.kind), ("example", .string sample.text),
    ("description", .string sample.description)]

end Ariel.Catalog
