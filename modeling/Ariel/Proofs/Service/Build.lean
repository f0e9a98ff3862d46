import Ariel.CommandLine.Outcome
import Ariel.Proofs.Service.Request

/-!
# Building over the service and on the command line

The service checks a structured window and stores it as it stands; the command line trims its bounds
first and stores the trimmed window. Neither the check nor the clause can tell the two apart
(`check_normal`, `clause_normal`), so both build the same query or fail with the same error
(`service_builds_as_program`).
-/

namespace Ariel.Query.Window

open Ariel.Text

/-- A bound that is trimmed is checked as the bound is. -/
theorem check_datetime_trim (s : String) : checkDatetime (trim s) = checkDatetime s := by
  rw [checkDatetime, checkDatetime, trim_trim]

/-- Trimming the bounds of a window does not change what its check finds. -/
theorem check_normal (w : Window) : w.normal.check = w.check := by
  cases w with
  | unbounded => rfl
  | relative amount unit => rfl
  | absolute start stop =>
      rw [normal, check_absolute, check_absolute, all_blank_trim, check_datetime_trim, bound_bound]

/-- The window between two datetimes is the trimmed one, and fails as the given one does. -/
theorem between_eq (start : String) (stop : Option String) :
    between start stop =
      (absolute start stop).check.map fun _ => (absolute start stop).normal := by
  rw [← check_normal]
  show ((absolute start stop).normal.check >>= fun _ => pure _) = _
  cases (absolute start stop).normal.check with
  | error e => rfl
  | ok => rfl

end Ariel.Query.Window

namespace Ariel.Query.Draft

variable {w w' : Window}

/-- Windows with the same clause make the same clauses. -/
theorem clauses_set_window (draft : Draft) (h : w.clause? = w'.clause?) :
    (draft.setWindow w).clauses = (draft.setWindow w').clauses := by
  have hfrom : ∀ table, (draft.setWindow w).clausesFrom table =
      (draft.setWindow w').clausesFrom table := by
    intro table
    simp only [clausesFrom, setWindow, h]
  unfold clauses
  simp only [hfrom]
  rfl

end Ariel.Query.Draft

namespace Ariel.Service

open Ariel.CommandLine Ariel.Query Ariel.Text Ariel.Validation

/-- Where the time range of a query is taken from. -/
inductive TimeSource where
  | none
  | text (clause : String)
  | between (start : String) (stop : Option String)
  deriving DecidableEq, Repr

namespace TimeSource

/-- The time range in a request. -/
def asked : TimeSource → TimeRequest
  | .none => {}
  | .text clause => { text := some clause }
  | .between start stop => { window := some (.absolute start stop) }

/-- The time range on the command line, beside a selection. -/
def options (selection : Selection) (multiline : Bool) : TimeSource → BuildOptions
  | .none => { selection, multiline }
  | .text clause => { selection, multiline, last := some clause }
  | .between start stop => { selection, multiline, start := some start, stop }

variable (source : TimeSource) (selection : Selection) (multiline : Bool)

/-- Every source can be given on the command line. -/
theorem to_command_options :
    (source.options selection multiline).toCommand? =
      some (.build (source.options selection multiline)) := by
  cases source with
  | none => rfl
  | text clause => rfl
  | between start stop => rfl

/-- Both sides fail with the same error, or give windows with the same clause. -/
theorem windows_alike :
    (∃ e, source.asked.toWindow = .error (.query e) ∧
      (source.options selection multiline).toWindow = .error e) ∨
    ∃ w w', source.asked.toWindow = .ok w ∧
      (source.options selection multiline).toWindow = .ok w' ∧ w.clause? = w'.clause? := by
  cases source with
  | none => exact .inr ⟨.unbounded, .unbounded, rfl, rfl, rfl⟩
  | text clause =>
      have hasked : (asked (.text clause)).toWindow = (Window.parse clause).mapError .query :=
        TimeRequest.to_window_text clause
      have hoptions : (options selection multiline (.text clause)).toWindow =
          Window.parse clause := rfl
      rw [hasked, hoptions]
      cases Window.parse clause with
      | error e => exact .inl ⟨e, rfl, rfl⟩
      | ok w => exact .inr ⟨w, w, rfl, rfl, rfl⟩
  | between start stop =>
      have hasked : (asked (.between start stop)).toWindow =
          ((Window.absolute start stop).check.map fun _ => .absolute start stop).mapError
            .query := rfl
      have hoptions : (options selection multiline (.between start stop)).toWindow =
          (Window.absolute start stop).check.map fun _ => (Window.absolute start stop).normal :=
        Window.between_eq start stop
      rw [hasked, hoptions]
      cases hcheck : (Window.absolute start stop).check with
      | error e => exact .inl ⟨e, rfl, rfl⟩
      | ok =>
          have hclause := Window.clause_normal (Window.check_eq_ok_iff.mp hcheck)
          exact .inr ⟨_, _, rfl, rfl, hclause.symm⟩

/-- Both sides fail with the same error, or describe drafts that are assembled alike. -/
theorem drafts_alike (defaults : BuilderSettings) :
    (∃ e, BuildRequest.toDraft ⟨selection, source.asked⟩ defaults = .error (.query e) ∧
      (source.options selection multiline).toDraft defaults = .error e) ∨
    ∃ draft draft', BuildRequest.toDraft ⟨selection, source.asked⟩ defaults = .ok draft ∧
      (source.options selection multiline).toDraft defaults = .ok draft' ∧
      draft.clauses = draft'.clauses := by
  have hselection : (source.options selection multiline).selection = selection := by
    cases source <;> rfl
  unfold BuildRequest.toDraft BuildOptions.toDraft
  rw [hselection]
  cases selection.toDraft defaults with
  | error e => exact .inl ⟨e, rfl, rfl⟩
  | ok draft =>
      rcases source.windows_alike selection multiline with ⟨e, hasked, hoptions⟩ |
        ⟨w, w', hasked, hoptions, hclause⟩
      · rw [hasked, hoptions]
        exact .inl ⟨e, rfl, rfl⟩
      · rw [hasked, hoptions]
        exact .inr ⟨draft.setWindow w, draft.setWindow w', rfl, rfl,
          draft.clauses_set_window hclause⟩

end TimeSource

/-- A query that was built, with the findings on it, as a record. -/
def builtRecord (built : BuiltQuery) (report : Report) : Json :=
  .object [("query", .string built.query), ("formatted", .string built.formatted),
    ("valid", .bool report.isValid), ("findings", .records Finding.toJson report.findings)]

variable (ctx : Context) (request : BuildRequest) (options : BuildOptions)

/-- What the service answers and what the command line builds, from the same clauses. -/
theorem built_of_clauses {draft draft' : Draft} (hrequest : request.toDraft ctx.builder = .ok draft)
    (hoptions : options.toDraft ctx.builder = .ok draft') (h : draft.clauses = draft'.clauses) :
    (∃ e, builtQuery ctx request = .error (.query e) ∧ options.build ctx.builder = .error e) ∨
    ∃ built : BuiltQuery,
      builtQuery ctx request = .ok (builtRecord built (validateWith ctx.checks built.query)) ∧
      options.build ctx.builder = .ok built := by
  unfold builtQuery BuildOptions.build Draft.assemble Draft.assembleLines
  rw [hrequest, hoptions]
  simp only [bind, Except.bind, h]
  cases draft'.clauses with
  | error e => exact .inl ⟨e, rfl, rfl⟩
  | ok clauses => exact .inr ⟨⟨join " " clauses, join "\n" clauses⟩, rfl, rfl⟩

/-- Both sides fail with the same error, or build the same query. -/
theorem builds_alike (ctx : Context) (selection : Selection) (source : TimeSource)
    (multiline : Bool) :
    (∃ e, builtQuery ctx ⟨selection, source.asked⟩ = .error (.query e) ∧
      (source.options selection multiline).build ctx.builder = .error e) ∨
    ∃ built : BuiltQuery,
      builtQuery ctx ⟨selection, source.asked⟩ =
        .ok (builtRecord built (validateWith ctx.checks built.query)) ∧
      (source.options selection multiline).build ctx.builder = .ok built := by
  rcases source.drafts_alike selection multiline ctx.builder with ⟨e, hasked, hoptions⟩ |
    ⟨draft, draft', hasked, hoptions, hclauses⟩
  · refine .inl ⟨e, ?_, ?_⟩
    · rw [builtQuery, hasked]
      rfl
    · rw [BuildOptions.build, hoptions]
      rfl
  · exact built_of_clauses ctx _ _ hasked hoptions hclauses

/-- The service and the command line build alike. Every source of a time range can be given to
both. From the same selection and the same source, under the same settings, both fail with the same
error, or both give the same query on one line and on several. When the service runs all checks, the
command line also prints the record that the service answers, or the findings in it. -/
theorem service_builds_as_program (ctx : Context) (selection : Selection) (source : TimeSource)
    (multiline : Bool) :
    (source.options selection multiline).toCommand? =
      some (.build (source.options selection multiline)) ∧
    ((∃ e : QueryError,
      builtQuery ctx ⟨selection, source.asked⟩ = .error (.query e) ∧
      (source.options selection multiline).build ctx.builder = .error e ∧
      ∀ format, buildOutcome format (source.options selection multiline) ctx.builder =
        .failure e.message) ∨
    ∃ built : BuiltQuery,
      builtQuery ctx ⟨selection, source.asked⟩ =
        .ok (builtRecord built (validateWith ctx.checks built.query)) ∧
      (source.options selection multiline).build ctx.builder = .ok built ∧
      (ctx.checks = Check.all →
        buildOutcome .json (source.options selection multiline) ctx.builder =
          .json (builtRecord built (validateWith ctx.checks built.query)).sorted ∧
        buildOutcome .text (source.options selection multiline) ctx.builder =
          { output := page [if multiline then built.formatted else built.query]
            errors := page
              ((validateWith ctx.checks built.query).findings.map Finding.display) })) := by
  refine ⟨source.to_command_options selection multiline, ?_⟩
  rcases builds_alike ctx selection source multiline with ⟨e, hservice, hprogram⟩ |
    ⟨built, hservice, hprogram⟩
  · refine .inl ⟨e, hservice, hprogram, fun format => ?_⟩
    rw [buildOutcome, hprogram]
  · refine .inr ⟨built, hservice, hprogram, fun hchecks => ?_⟩
    rw [buildOutcome, buildOutcome, hprogram, hchecks]
    have hlines : (source.options selection multiline).multiline = multiline := by
      cases source <;> rfl
    rw [hlines]
    exact ⟨rfl, rfl⟩

/-- Blanks around a bound, which only the command line takes away, make no difference to what is
built, answered and printed. -/
theorem service_builds_as_program_padded_start :
    let selection : Selection := { columns := ["username"], limit := some 5 }
    let source : TimeSource := .between " 2024-01-01 00:00 " none
    ∃ built : BuiltQuery,
      built.query = "SELECT username FROM events LIMIT 5 START '2024-01-01 00:00'" ∧
      builtQuery {} ⟨selection, source.asked⟩ =
        .ok (builtRecord built (validate built.query)) ∧
      (source.options selection true).build {} = .ok built ∧
      buildOutcome .json (source.options selection true) {} =
        .json (builtRecord built (validate built.query)).sorted ∧
      buildOutcome .text (source.options selection true) {} =
        { output := page [built.formatted]
          errors := page ((validate built.query).findings.map Finding.display) } := by
  intro selection source
  have hquery : ((source.options selection true).build {}).toOption.map BuiltQuery.query =
      some "SELECT username FROM events LIMIT 5 START '2024-01-01 00:00'" := by
    decide +kernel
  obtain ⟨-, ⟨e, -, hfails, -⟩ | ⟨built, hservice, hprogram, hprinted⟩⟩ :=
    service_builds_as_program {} selection source true
  · rw [hfails] at hquery
    cases hquery
  · rw [hprogram] at hquery
    obtain ⟨hjson, htext⟩ := hprinted rfl
    exact ⟨built, Option.some.inj hquery, hservice, hprogram, hjson, htext⟩

end Ariel.Service
