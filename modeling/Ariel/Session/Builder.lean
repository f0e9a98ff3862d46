import Ariel.Catalog.Field
import Ariel.Catalog.Function
import Ariel.Query.Condition
import Ariel.Session.Menu

/-!
# The query builder

The screens that edit the draft. Each opens with a page and a prompt, and the answers to its
prompts change one part of the draft or nothing.
-/

namespace Ariel.Session

open Ariel.Query Ariel.Text

/-- Two fields on a line. -/
def fieldPairs : List String → List String
  | [] => []
  | [name] => [String.ofList (dropLastBlanks ("  " ++ padRight 30 name).toList)]
  | left :: right :: names =>
      String.ofList (dropLastBlanks
        ("  " ++ padRight 30 left ++ "  " ++ padRight 30 right).toList) :: fieldPairs names

/-- Ask for the columns. -/
def openColumns (ctx : Context) (memory : Memory) : Progress :=
  let table := memory.draft.table.getD ctx.settings.defaultTable
  .asking memory .columns (banner ctx.settings "SELECT COLUMNS" 60
    ++ page (["", "Available fields for " ++ table.name ++ ":", rule 40]
      ++ fieldPairs ((Catalog.fields table).map Catalog.Field.name)
      ++ ["", "COMMON FUNCTIONS:",
        "  LOGSOURCENAME(logsourceid), QIDNAME(qid), CATEGORYNAME(category)",
        "  DATEFORMAT(starttime, 'yyyy-MM-dd HH:mm:ss'), COUNT(*), SUM(field)",
        "", rule 60,
        "Enter columns separated by commas, or:",
        "  * for all columns",
        "  Press Enter to keep current selection",
        rule 60,
        "Current: " ++ join ", " memory.draft.columns,
        ""])
    ++ "Columns: ")

/-- Set the columns, unless none are given. -/
def answerColumns (ctx : Context) (memory : Memory) (typed : String) : Progress :=
  match splitList typed with
  | [] => goTo ctx memory .builder
  | columns => goTo ctx { memory with draft := memory.draft.setColumns columns } .builder

/-- Ask for the table. -/
def openTable (ctx : Context) (memory : Memory) : Progress :=
  .asking memory .table (banner ctx.settings "SELECT TABLE" 60
    ++ page (["", "Available tables:"]
      ++ numbered 1 (fun i (table : Table) =>
          "  " ++ decimal i ++ ". " ++ padRight 6 table.name ++ " - " ++ table.description)
          Table.all
      ++ ["", "Current: " ++ (memory.draft.table.getD ctx.settings.defaultTable).name, ""])
    ++ "Enter 1 or 2 (or press Enter to keep current): ")

/-- Set the table, when one is chosen. -/
def answerTable (ctx : Context) (memory : Memory) (typed : String) : Progress :=
  match pick? typed Table.all with
  | none => goTo ctx memory .builder
  | some table => goTo ctx { memory with draft := memory.draft.setTable table } .builder

/-- The predicates of a list. -/
def predicates (draft : Draft) : Predicates → List String
  | .rows => draft.conditions
  | .groups => draft.having

/-- Ask what to do with a list of predicates. -/
def openPredicates (ctx : Context) (memory : Memory) (which : Predicates) : Progress :=
  let title := match which with
    | .rows => "WHERE CONDITIONS"
    | .groups => "HAVING (filter on aggregated results)"
  let current := match predicates memory.draft which with
    | [] => ["  (none)"]
    | conditions =>
        numbered 1 (fun i condition => "  " ++ decimal i ++ ". " ++ condition) conditions
  let hint := match which with
    | .rows => []
    | .groups => ["", rule 60, "HAVING is used to filter results after GROUP BY",
        "Example: HAVING COUNT(*) > 10"]
  .asking memory (.predicateMenu which) (banner ctx.settings title 60
    ++ page (["", "Current conditions:"] ++ current ++ hint
      ++ ["", rule 60, "OPTIONS:", "  1. Add new condition", "  2. Remove a condition",
        "  3. Clear all conditions", "  4. Back", rule 60])
    ++ "Choice: ")

/-- Patterns of conditions, each with an example. -/
def conditionPatterns : List (String × String) := [
  ("IP matching:", "sourceip = '192.168.1.1'"),
  ("CIDR range:", "INCIDR('192.168.0.0/16', sourceip)"),
  ("String equals:", "username = 'admin'"),
  ("Pattern match:", "payload ILIKE '%error%'"),
  ("Regex match:", "username IMATCHES '.*admin.*'"),
  ("Numeric compare:", "magnitude >= 7"),
  ("Range:", "eventcount BETWEEN 10 AND 100"),
  ("List:", "sourceport IN (22, 23, 3389)"),
  ("Null check:", "username IS NOT NULL"),
  ("Log source:", "LOGSOURCENAME(logsourceid) ILIKE '%Windows%'"),
  ("Event name:", "QIDNAME(qid) ILIKE '%login%'")]

/-- Ask which condition to add. -/
def openQuickAdd (ctx : Context) (memory : Memory) : Progress :=
  .asking memory .quickAdd (banner ctx.settings "ADD WHERE CONDITION" 60
    ++ page (["", "COMMON PATTERNS:", rule 60]
      ++ (conditionPatterns.map fun (label, pattern) =>
          "  " ++ padRight 18 label ++ " " ++ pattern)
      ++ [rule 60, "", "Quick add (enter number):",
        "  1. Filter by source IP",
        "  2. Filter by destination IP",
        "  3. Filter by username",
        "  4. Filter by magnitude",
        "  5. Filter by log source",
        "  6. Filter by event name (QID)",
        "  7. Custom condition"])
    ++ "\nChoice: ")

/-- Ask which predicate to remove, when there is one. -/
def openRemoval (memory : Memory) (which : Predicates) : Progress :=
  match predicates memory.draft which with
  | [] => pauseThen memory .builder (page ["", "  No conditions to remove!"])
  | _ => .asking memory (.removal which)
      (page ["", "Enter number to remove (or press Enter to cancel): "] ++ "Number: ")

/-- Do what was chosen with a list of predicates. -/
def answerPredicates (ctx : Context) (memory : Memory) (which : Predicates) (typed : String) :
    Progress :=
  match typed, which with
  | "1", .rows => openQuickAdd ctx memory
  | "1", .groups => .asking memory .groupCondition "\nEnter HAVING condition: "
  | "2", _ => openRemoval memory which
  | "3", .rows =>
      pauseThen { memory with draft := memory.draft.clearConditions } .builder
        (page ["", "  All conditions cleared!"])
  | "3", .groups => goTo ctx { memory with draft := memory.draft.clearHaving } .builder
  | _, _ => goTo ctx memory .builder

/-- Add a condition to the draft and show it. -/
def addCondition (ctx : Context) (memory : Memory) (condition : String) : Progress :=
  match memory.draft.addCondition? condition with
  | none => goTo ctx memory .builder
  | some draft =>
      pauseThen { memory with draft } .builder (page ["", "  Added: " ++ condition])

/-- The question for the value of a condition. -/
def ValueCondition.question : ValueCondition → String
  | .sourceAddress => "Enter source IP (or CIDR): "
  | .destinationAddress => "Enter destination IP (or CIDR): "
  | .username => "Enter username (use % for wildcard): "
  | .logSource => "Enter log source name pattern: "
  | .eventName => "Enter event name pattern: "
  | .custom => "Enter custom condition: "

/-- The condition that a value makes. -/
def ValueCondition.condition : ValueCondition → String → String
  | .sourceAddress, value => Condition.sourceAddress value
  | .destinationAddress, value => Condition.destinationAddress value
  | .username, value => Condition.username value
  | .logSource, value => Condition.logSource value
  | .eventName, value => Condition.eventName value
  | .custom, value => value

/-- Ask for what the chosen condition needs. -/
def answerQuickAdd (ctx : Context) (memory : Memory) (typed : String) : Progress :=
  let ask (kind : ValueCondition) : Progress :=
    .asking memory (.conditionValue kind) kind.question
  match typed with
  | "1" => ask .sourceAddress
  | "2" => ask .destinationAddress
  | "3" => ask .username
  | "4" => .asking memory .magnitudeOperator
      (page ["  Operators: " ++ join " " Condition.numericOperators] ++ "  Operator: ")
  | "5" => ask .logSource
  | "6" => ask .eventName
  | "7" => ask .custom
  | _ => goTo ctx memory .builder

/-- Add the condition that a value makes, when a value is given. -/
def answerConditionValue (ctx : Context) (memory : Memory) (kind : ValueCondition)
    (typed : String) : Progress :=
  if allBlank typed then goTo ctx memory .builder
  else addCondition ctx memory (kind.condition typed)

/-- Ask for the number that the magnitude is compared with. -/
def answerMagnitudeOperator (memory : Memory) (typed : String) : Progress :=
  .asking memory (.magnitudeValue (orElse typed ">=")) "  Value (1-10): "

/-- Add a condition on the magnitude, when operator and number are sound. -/
def answerMagnitudeValue (ctx : Context) (memory : Memory) (operator typed : String) : Progress :=
  let value := orElse typed "5"
  let refuse (message : String) : Progress := pauseThen memory .builder (page ["", "  " ++ message])
  match numeral? 256 value.toList with
  | none => refuse ("'" ++ value ++ "' is not a magnitude between 1 and 10")
  | some n =>
      match Condition.magnitude operator (UInt8.ofNat n) with
      | .error e => refuse e.message
      | .ok condition => addCondition ctx memory condition

/-- Add a condition on groups, unless it is blank. -/
def answerGroupCondition (ctx : Context) (memory : Memory) (typed : String) : Progress :=
  goTo ctx { memory with draft := memory.draft.filterGroups typed } .builder

/-- Remove the predicate at a place, counted from zero. -/
def removePredicate? (draft : Draft) : Predicates → Nat → Option (String × Draft)
  | .rows, index => draft.removeCondition? index
  | .groups, index => draft.removeHaving? index

/-- Remove the predicate with a number, when one is given. -/
def answerRemoval (memory : Memory) (which : Predicates) (typed : String) : Progress :=
  if typed.isEmpty then pauseThen memory .builder
  else
    let removed := match numeral? UInt64.size typed.toList with
      | some (index + 1) => removePredicate? memory.draft which index
      | _ => none
    match removed with
    | some (condition, draft) =>
        pauseThen { memory with draft } .builder (page ["", "  Removed: " ++ condition])
    | none => pauseThen memory .builder (page ["", "  Invalid number!"])

/-- Ask for the grouping columns. -/
def openGroupBy (ctx : Context) (memory : Memory) : Progress :=
  let current := match memory.draft.groupBy with
    | [] => "  (none)"
    | columns => "  " ++ join ", " columns
  .asking memory .groupBy (banner ctx.settings "GROUP BY" 60
    ++ page ["", "Current GROUP BY columns:", current, "", rule 60,
      "When using GROUP BY, use aggregation functions in SELECT:",
      "  " ++ join ", " ((Catalog.aggregateNames.take 5).map (· ++ "(...)")),
      "", "Example SELECT with GROUP BY:",
      "  SELECT sourceip, COUNT(*) as count, SUM(eventcount)",
      rule 60,
      "", "Enter columns to group by (comma-separated)",
      "Or press Enter to keep current:"]
    ++ "\nColumns: ")

/-- Set the grouping columns, unless none are given. -/
def answerGroupBy (ctx : Context) (memory : Memory) (typed : String) : Progress :=
  match splitList typed with
  | [] => goTo ctx memory .builder
  | columns => goTo ctx { memory with draft := memory.draft.setGroupBy columns } .builder

/-- Ask for the columns to sort on. -/
def openOrderBy (ctx : Context) (memory : Memory) : Progress :=
  let current := match memory.draft.orderBy with
    | none => "  (none)"
    | some order => "  " ++ join ", " order.columns ++ " " ++ order.direction.keyword
  .asking memory .orderColumns (banner ctx.settings "ORDER BY" 60
    ++ page ["", "Current ORDER BY:", current, "", rule 60,
      "Common ORDER BY columns:",
      "  starttime, magnitude, eventcount, sourceip",
      "  Or use aggregates: COUNT(*), SUM(eventcount)",
      rule 60]
    ++ "\nEnter column(s) to order by (comma-separated): ")

/-- Ask for the direction, when columns are given. -/
def answerOrderColumns (ctx : Context) (memory : Memory) (typed : String) : Progress :=
  match splitList typed with
  | [] => goTo ctx memory .builder
  | columns =>
      .asking memory (.orderDirection columns)
        (page ["", "Direction:",
          "  1. DESC (descending - highest first)",
          "  2. ASC (ascending - lowest first)"]
        ++ "Choice (default " ++ ctx.settings.defaultOrder.keyword ++ "): ")

/-- Set the sort order. -/
def answerOrderDirection (ctx : Context) (memory : Memory) (columns : List String)
    (typed : String) : Progress :=
  let direction := match typed with
    | "1" => Direction.descending
    | "2" => Direction.ascending
    | _ => ctx.settings.defaultOrder
  goTo ctx { memory with draft := memory.draft.setOrderBy columns direction } .builder

/-- Ask for the limit. -/
def openLimit (ctx : Context) (memory : Memory) : Progress :=
  let current := match memory.draft.limit with
    | none => "(none)"
    | some limit => decimal limit.rows.toNat
  .asking memory .limit (banner ctx.settings "LIMIT" 60
    ++ page ["", "Current LIMIT: " ++ current, "",
      "Enter maximum number of results (or press Enter to clear):"]
    ++ "Limit: ")

/-- Set the limit, or remove it when nothing is given. -/
def answerLimit (ctx : Context) (memory : Memory) (typed : String) : Progress :=
  if typed.isEmpty then goTo ctx { memory with draft := memory.draft.clearLimit } .builder
  else match numeral? UInt32.size typed.toList with
    | none => pauseThen memory .builder (page ["  Invalid number!"])
    | some n =>
        match memory.draft.setLimit (UInt32.ofNat n) with
        | .error e => pauseThen memory .builder (page ["  " ++ e.message])
        | .ok draft => goTo ctx { memory with draft } .builder

/-- Ask what to do with the time clause. -/
def openTime (ctx : Context) (memory : Memory) : Progress :=
  .asking memory .timeMenu (banner ctx.settings "TIME CLAUSE" 60
    ++ page ["", "Current time clause: " ++ memory.draft.window.clause?.getD "(none)",
      "", rule 60, "OPTIONS:",
      "  1. LAST (relative time)",
      "  2. START/STOP (specific date range)",
      "  3. Clear time clause",
      "  4. Back",
      rule 60]
    ++ "\nChoice: ")

/-- Ask for what the chosen time clause needs. -/
def answerTimeMenu (ctx : Context) (memory : Memory) (typed : String) : Progress :=
  match typed with
  | "1" => .asking memory .timeAmount
      (page ["", "Examples: 5 MINUTES, 1 HOURS, 24 HOURS, 7 DAYS"] ++ "Enter time amount: ")
  | "2" => .asking memory .startTime
      (page ["", "Format: yyyy-MM-dd HH:mm or yyyy-MM-dd HH:mm:ss"] ++ "Start datetime: ")
  | "3" => goTo ctx { memory with draft := memory.draft.setWindow .unbounded } .builder
  | _ => goTo ctx memory .builder

/-- Ask for the unit of a relative time clause. -/
def answerTimeAmount (memory : Memory) (typed : String) : Progress :=
  .asking memory (.timeUnit (orElse typed "1"))
    (page ["Units: 1=MINUTES, 2=HOURS, 3=DAYS"] ++ "Unit: ")

/-- Set a window that is sound, and say what is wrong with another. -/
def setSoundWindow (ctx : Context) (memory : Memory) (window : Except QueryError Window) :
    Progress :=
  match window with
  | .ok window => goTo ctx { memory with draft := memory.draft.setWindow window } .builder
  | .error e => pauseThen memory .builder (page ["", "  " ++ e.message])

/-- Set a relative time window. -/
def answerTimeUnit (ctx : Context) (memory : Memory) (amount typed : String) : Progress :=
  let unit := (pick? typed TimeUnit.all).getD .hours
  match numeral? UInt32.size amount.toList with
  | none =>
      pauseThen memory .builder (page ["", "  '" ++ amount ++ "' is not a whole number"])
  | some n =>
      let window := Window.relative (UInt32.ofNat n) unit
      setSoundWindow ctx memory (window.check.map fun _ => window)

/-- Ask for the stop of an absolute time window. -/
def answerStartTime (memory : Memory) (typed : String) : Progress :=
  .asking memory (.stopTime typed) "Stop datetime (leave empty for now): "

/-- Set an absolute time window, when a start was given. -/
def answerStopTime (ctx : Context) (memory : Memory) (start typed : String) : Progress :=
  if start.isEmpty then goTo ctx memory .builder
  else setSoundWindow ctx memory (Window.between start (some typed))

/-- Show the finished query. -/
def openFinal (ctx : Context) (memory : Memory) : Progress :=
  let head := banner ctx.settings "FINAL QUERY" 60
  match memory.draft.assemble, memory.draft.assembleLines with
  | .ok query, .ok formatted =>
      .asking memory (.finalChoice query) (head
        ++ page ["", "Formatted:", rule 60, formatted, rule 60,
          "", "Single line:", rule 60, query, rule 60,
          "", "[c] Copy to clipboard",
          "[Enter] Continue building",
          "[q] Back to main menu"]
        ++ "\nChoice: ")
  | .error e, _ | _, .error e => pauseThen memory .builder (head ++ page ["", "  " ++ e.message])

/-- Copy the finished query, leave the builder, or go on. -/
def answerFinal (ctx : Context) (memory : Memory) (query typed : String) : Progress :=
  match lowercase typed with
  | "c" => copyThen ctx memory .builder query
  | "q" => goTo ctx memory .mainMenu
  | _ => goTo ctx memory .builder

/-- Open what was chosen in the builder. -/
def answerBuilder (ctx : Context) (memory : Memory) (typed : String) : Progress :=
  match lowercase typed with
  | "q" => goTo ctx memory .mainMenu
  | "1" => openColumns ctx memory
  | "2" => openTable ctx memory
  | "3" => openPredicates ctx memory .rows
  | "4" => openGroupBy ctx memory
  | "5" => openPredicates ctx memory .groups
  | "6" => openOrderBy ctx memory
  | "7" => openLimit ctx memory
  | "8" => openTime ctx memory
  | "9" => pauseThen { memory with draft := freshDraft ctx.settings } .builder
      (page ["", "  Query cleared!"])
  | "c" =>
      match memory.draft.assemble with
      | .ok query => copyThen ctx memory .builder query
      | .error e => pauseThen memory .builder (page ["", "  " ++ e.message])
  | "f" => openFinal ctx memory
  | _ => goTo ctx memory .builder

end Ariel.Session
