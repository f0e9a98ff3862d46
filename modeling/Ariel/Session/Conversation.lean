import Ariel.Session.Builder
import Ariel.Session.FreeText
import Ariel.Session.Line
import Ariel.Session.Reference
import Ariel.Session.Templates

/-!
# Conversations

A session begins at the main menu and answers each line of input according to the prompt at which
it stands. A whole conversation takes its lines one by one, until the session ends, the input ends,
or a line cannot be read.
-/

namespace Ariel.Session

open Ariel.Query Ariel.Text

/-- Open what was chosen in the main menu. The builder begins with a fresh draft. -/
def answerMainMenu (ctx : Context) (memory : Memory) (typed : String) : Progress :=
  match typed with
  | "0" => .finished memory "\nGoodbye!\n"
  | "1" => goTo ctx { memory with draft := freshDraft ctx.settings } .builder
  | "2" => goTo ctx memory .templateCategories
  | "3" => openFields ctx memory
  | "4" => openFunctions ctx memory
  | "5" => openOperators ctx memory
  | "6" => openTimeClauses ctx memory
  | "7" => openQueryLines ctx memory .quickQuery
  | "8" => openQueryLines ctx memory .validation
  | "9" => openHelp ctx memory
  | other =>
      goTo ctx memory .mainMenu
        (page ["  Invalid choice '" ++ other ++ "'. Please enter a number from 0 to 9"])

/-- How a session goes on after a line of input at a prompt. Only the lines of a typed query keep
their outer blanks. -/
def answer (ctx : Context) (memory : Memory) (prompt : Prompt) (line : String) : Progress :=
  let typed := trim line
  match prompt with
  | .mainMenu => answerMainMenu ctx memory typed
  | .pause place => goTo ctx memory place
  | .builderMenu => answerBuilder ctx memory typed
  | .columns => answerColumns ctx memory typed
  | .table => answerTable ctx memory typed
  | .predicateMenu which => answerPredicates ctx memory which typed
  | .quickAdd => answerQuickAdd ctx memory typed
  | .conditionValue kind => answerConditionValue ctx memory kind typed
  | .magnitudeOperator => answerMagnitudeOperator memory typed
  | .magnitudeValue operator => answerMagnitudeValue ctx memory operator typed
  | .groupCondition => answerGroupCondition ctx memory typed
  | .removal which => answerRemoval memory which typed
  | .groupBy => answerGroupBy ctx memory typed
  | .orderColumns => answerOrderColumns ctx memory typed
  | .orderDirection columns => answerOrderDirection ctx memory columns typed
  | .limit => answerLimit ctx memory typed
  | .timeMenu => answerTimeMenu ctx memory typed
  | .timeAmount => answerTimeAmount memory typed
  | .timeUnit amount => answerTimeUnit ctx memory amount typed
  | .startTime => answerStartTime memory typed
  | .stopTime start => answerStopTime ctx memory start typed
  | .finalChoice query => answerFinal ctx memory query typed
  | .templateCategory => answerTemplateCategory ctx memory typed
  | .templateChoice category => answerTemplateChoice ctx memory category typed
  | .templateAction template => answerTemplateAction ctx memory template typed
  | .placeholderValue template query name later =>
      answerPlaceholder memory template query name later typed
  | .timeRange template query => answerTimeRange memory template query typed
  | .customTimeRange template query => answerCustomTimeRange memory template query typed
  | .modifiedChoice template query => answerModified ctx memory template query typed
  | .fieldTable => answerFieldTable ctx memory typed
  | .functionCategory => answerFunctionCategory ctx memory typed
  | .queryLine purpose lines => answerQueryLine ctx memory purpose lines line
  | .quickChoice query => answerQuickChoice ctx memory query typed

/-- How a session goes on when the input ends at a prompt. A typed query that has lines is complete
then; anything else ends the session. -/
def answerEnd (ctx : Context) (memory : Memory) : Prompt → Progress
  | .queryLine purpose (line :: lines) => answerQuery ctx memory purpose (line :: lines)
  | _ => .finished memory "\n\nGoodbye!\n"

/-- The beginning of a session. -/
def start (ctx : Context) : Progress :=
  goTo ctx { draft := freshDraft ctx.settings } .mainMenu

/-- What is left of a conversation: what was printed before each reading and after the last one,
the memory at its end, and whether every line that was read could be read. Each chunk is flushed
before the reading behind it, and the last one at the end, whether the session succeeds or not; the
output takes all that is printed. -/
structure Transcript where
  chunks : List String
  memory : Memory
  ok : Bool

/-- Put a chunk before a transcript. -/
def Transcript.after (chunk : String) (transcript : Transcript) : Transcript :=
  { transcript with chunks := chunk :: transcript.chunks }

/-- The conversation from a point where the input has ended. The end may be met twice: a typed query
passes over the first meeting. -/
def closing (ctx : Context) : Progress → Transcript
  | .finished memory output => ⟨[output], memory, true⟩
  | .asking memory prompt output =>
      .after output <|
        match answerEnd ctx memory prompt with
        | .finished memory output => ⟨[output], memory, true⟩
        | .asking memory _ output => ⟨[output, "\n\nGoodbye!\n"], memory, true⟩

/-- The conversation from a point on, over the lines that are left. -/
def converse (ctx : Context) : Progress → List Line → Transcript
  | .finished memory output, _ => ⟨[output], memory, true⟩
  | .asking memory prompt output, [] => closing ctx (.asking memory prompt output)
  | .asking memory prompt output, .text line :: lines =>
      .after output (converse ctx (answer ctx memory prompt line) lines)
  | .asking memory _ output, .undecodable :: _ => ⟨[output, ""], memory, false⟩

/-- A whole session over its lines of input. -/
def run (ctx : Context) (lines : List Line) : Transcript :=
  converse ctx (start ctx) lines

end Ariel.Session
