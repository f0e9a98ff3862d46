import Ariel.Json.Value
import Ariel.Text.Numeral
import Ariel.Validation.Check

/-!
# Reports

Validating a query runs a list of checks over it. The report lists the findings check by check, and
a query is valid when none of them is an error.
-/

namespace Ariel.Validation

open Ariel.Text

/-- A remark of a check, with the text around its position. -/
structure Finding where
  check : Check
  severity : Severity
  message : String
  position : Option Nat
  excerpt : Option String
  deriving DecidableEq, Repr

namespace Finding

/-- The finding that a remark on a query makes. -/
def ofRemark (query : List Char) (check : Check) (remark : Remark) : Finding where
  check := check
  severity := remark.severity
  message := remark.message
  position := remark.position
  excerpt := remark.position.map (Validation.excerpt query)

/-- A finding on one line. -/
def display (finding : Finding) : String :=
  "[" ++ finding.severity.name ++ "] " ++ finding.message
    ++ match finding.position with
      | none => ""
      | some position => " (at " ++ decimal position ++ ")"

/-- A finding as a record, without position and excerpt where it has none. -/
def toJson (finding : Finding) : Json :=
  .object ([("check", .string finding.check.name), ("severity", .string finding.severity.name),
      ("message", .string finding.message)]
    ++ (finding.position.map fun position => ("position", Json.nat position)).toList
    ++ (finding.excerpt.map fun text => ("excerpt", Json.string text)).toList)

end Finding

/-- The findings of one validation. -/
structure Report where
  findings : List Finding
  deriving DecidableEq, Repr

namespace Report

/-- How many findings have a severity. -/
def count (report : Report) (severity : Severity) : Nat :=
  (report.findings.filter fun finding => finding.severity == severity).length

/-- The findings that make the query invalid. -/
def errors (report : Report) : List Finding :=
  report.findings.filter fun finding => finding.severity == .error

/-- Whether no finding makes the query invalid. -/
def isValid (report : Report) : Bool :=
  report.count .error == 0

/-- A report as a record, with the numbers of its findings. -/
def toJson (report : Report) : Json :=
  .object [("valid", .bool report.isValid), ("error_count", .nat (report.count .error)),
    ("warning_count", .nat (report.count .warning)),
    ("suggestion_count", .nat (report.count .suggestion)),
    ("findings", .records Finding.toJson report.findings)]

end Report

/-- Run checks over a query, in the order given. -/
def validateWith (checks : List Check) (query : String) : Report where
  findings := checks.flatMap fun check =>
    (remarksOf check query.toList).map (Finding.ofRemark query.toList check)

/-- Run every check over a query. -/
def validate (query : String) : Report :=
  validateWith Check.all query

end Ariel.Validation
