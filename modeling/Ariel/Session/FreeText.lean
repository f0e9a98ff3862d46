import Ariel.Session.Menu
import Ariel.Validation.Report

/-!
# Typed queries

Screens that take a query as it is typed, over several lines up to a blank one, and the help page.
-/

namespace Ariel.Session

open Ariel.Text Ariel.Validation

/-- The help page. -/
def helpLines : List String := [
  "",
  "BASIC QUERY STRUCTURE:",
  "  SELECT <columns>",
  "  FROM <table>",
  "  [WHERE <conditions>]",
  "  [GROUP BY <columns>]",
  "  [HAVING <conditions>]",
  "  [ORDER BY <columns> [ASC|DESC]]",
  "  [LIMIT <number>]",
  "  [LAST <time> | START '<datetime>' STOP '<datetime>']",
  "",
  "TABLES:",
  "  - events    : Security events",
  "  - flows     : Network flow data",
  "",
  "EXAMPLES:",
  "  1. Simple query:",
  "     SELECT * FROM events LAST 1 HOURS",
  "",
  "  2. Filter by IP:",
  "     SELECT sourceip, destinationip, username",
  "     FROM events",
  "     WHERE sourceip = '192.168.1.1'",
  "     LAST 24 HOURS",
  "",
  "  3. Aggregation:",
  "     SELECT sourceip, COUNT(*) as count",
  "     FROM events",
  "     GROUP BY sourceip",
  "     ORDER BY count DESC",
  "     LIMIT 10",
  "     LAST 7 DAYS",
  "",
  "  4. Using functions:",
  "     SELECT LOGSOURCENAME(logsourceid), QIDNAME(qid), sourceip",
  "     FROM events",
  "     WHERE magnitude > 5",
  "     LAST 1 HOURS",
  "",
  "TIPS:",
  "  - Use single quotes for strings: WHERE username = 'admin'",
  "  - Use double quotes for column aliases: AS \"My Column\"",
  "  - Field names are case-sensitive",
  "  - Keywords (SELECT, FROM, etc.) are NOT case-sensitive",
  "  - Use ILIKE for case-insensitive matching",
  "  - Use IMATCHES for case-insensitive regex",
  ""]

/-- The hints for typing a query. -/
def quickReferenceLines : List String := [
  "",
  "Enter your AQL query directly. Press Enter twice to finish.",
  "",
  "QUICK REFERENCE:",
  "  SELECT * FROM events WHERE <condition> LAST <time>",
  "  SELECT * FROM flows WHERE <condition> LAST <time>",
  "",
  "COMMON FIELDS:",
  "  events: sourceip, destinationip, username, magnitude, payload, qid",
  "  flows:  sourceip, destinationip, sourcebytes, destinationbytes",
  "",
  "COMMON FUNCTIONS:",
  "  LOGSOURCENAME(logsourceid), QIDNAME(qid), CATEGORYNAME(category)",
  "  COUNT(*), SUM(), AVG(), DATEFORMAT(starttime, 'yyyy-MM-dd HH:mm')",
  "",
  "OPERATORS:",
  "  = != < > <= >=  |  LIKE ILIKE MATCHES IMATCHES  |  AND OR NOT",
  "  IN (val1, val2)  |  BETWEEN x AND y  |  IS NULL  |  IS NOT NULL",
  "",
  "TIME:",
  "  LAST 1 HOURS  |  LAST 24 HOURS  |  LAST 7 DAYS",
  "  START '2024-01-01 00:00' STOP '2024-01-02 00:00'",
  ""]

/-- Ask for the lines of a query. -/
def openQueryLines (ctx : Context) (memory : Memory) (purpose : Purpose) : Progress :=
  .asking memory (.queryLine purpose []) <|
    match purpose with
    | .quickQuery =>
        banner ctx.settings "QUICK QUERY MODE" 60
          ++ page (quickReferenceLines
            ++ ["Enter query (press Enter twice when done):", rule 60])
    | .validation =>
        banner ctx.settings "QUERY VALIDATOR" 60
          ++ page ["", "Enter your AQL query to validate (Enter twice when done):", rule 60]

/-- The findings of a report, each behind a bullet. -/
def reportLines (report : Report) (bullet : String) : List String :=
  report.findings.map fun finding => "  " ++ bullet ++ " " ++ finding.display

/-- Show a typed query with its findings. -/
def openQuickQuery (ctx : Context) (memory : Memory) (query : String) : Progress :=
  if allBlank query then goTo ctx memory .mainMenu
  else
    let report := validate query
    let verdict :=
      if report.findings.isEmpty then ["", "Query looks valid!"]
      else ["", "Potential issues found:"] ++ reportLines report "-"
    .asking memory (.quickChoice query)
      (page (["", rule 60, "Your query:", query, rule 60] ++ verdict
        ++ ["", "[c] Copy to clipboard"])
      ++ "[Enter] Continue: ")

/-- Copy the typed query, or go back. -/
def answerQuickChoice (ctx : Context) (memory : Memory) (query typed : String) : Progress :=
  if sameIgnoringCase typed "c" then copyThen ctx memory .mainMenu query
  else goTo ctx memory .mainMenu

/-- Show the findings on a typed query. -/
def openValidation (memory : Memory) (query : String) : Progress :=
  if allBlank query then pauseThen memory .mainMenu (page [""])
  else
    let report := validate query
    let verdict :=
      if report.findings.isEmpty then ["", "  Query appears to be valid!"]
      else ["", "Issues found:"] ++ reportLines report "!"
        ++ ["", "  " ++ decimal (report.count .error) ++ " error(s), "
          ++ decimal (report.count .warning) ++ " warning(s), "
          ++ decimal (report.count .suggestion) ++ " suggestion(s)"]
    pauseThen memory .mainMenu
      (page (["", doubleRule 60, "VALIDATION RESULTS", doubleRule 60] ++ verdict
        ++ ["", rule 60,
          "Note: This validates syntax only. Runtime errors may still occur.",
          rule 60, ""]))

/-- The query is complete: its lines are joined by spaces. -/
def answerQuery (ctx : Context) (memory : Memory) (purpose : Purpose) (lines : List String) :
    Progress :=
  let query := join " " lines
  match purpose with
  | .quickQuery => openQuickQuery ctx memory query
  | .validation => openValidation memory query

/-- Take one more line, which ends the query when it is blank. -/
def answerQueryLine (ctx : Context) (memory : Memory) (purpose : Purpose) (lines : List String)
    (line : String) : Progress :=
  if allBlank line then answerQuery ctx memory purpose lines
  else .asking memory (.queryLine purpose (lines ++ [line])) ""

/-- Show the help page. -/
def openHelp (ctx : Context) (memory : Memory) : Progress :=
  pauseThen memory .mainMenu (banner ctx.settings "AQL SYNTAX GUIDE" 60 ++ page helpLines)

end Ariel.Session
