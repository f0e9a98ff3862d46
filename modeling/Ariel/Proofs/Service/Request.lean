import Ariel.Proofs.Query.Selection
import Ariel.Proofs.Query.Window.RoundTrip
import Ariel.Service.Respond

/-!
# Build requests

`Faulty` lists what is wrong with a build request that is refused: its limit, or its time range.
`Refused` says which failure it gets. Whatever else a request holds, it describes a draft that is
complete, well formed and assembled (`build_request_decided`).
-/

namespace Ariel.Service

open Ariel.Query Ariel.Text

/-- What is wrong with the time range of a request. -/
def TimeRequest.Faulty (time : TimeRequest) : Prop :=
  (time.window.isSome = true ∧ time.text.isSome = true) ∨
    (∃ window ∈ time.window, window.check ≠ .ok ()) ∨
    ∃ text ∈ time.text, allBlank text = false ∧ ∃ e, Window.parse text = .error e

/-- Why the time range of a request is refused. -/
inductive TimeRequest.Refused : TimeRequest → Failure → Prop where
  | twice (window : Window) (text : String) :
      Refused ⟨some window, some text⟩ (.validation "use either time_window or time, not both")
  | unsound {window : Window} {e : QueryError} : window.check = .error e →
      Refused ⟨some window, none⟩ (.query e)
  | unread {text : String} {e : QueryError} : allBlank text = false → Window.parse text = .error e →
      Refused ⟨none, some text⟩ (.query e)

/-- What is wrong with a build request: a limit of no rows, or its time range. -/
def BuildRequest.Faulty (request : BuildRequest) : Prop :=
  request.selection.limit = some 0 ∨ request.time.Faulty

/-- Why a build request is refused. A limit of no rows is reported before any fault of the time
range. -/
inductive BuildRequest.Refused (request : BuildRequest) : Failure → Prop where
  | noRows : request.selection.limit = some 0 → Refused request (.query Draft.zeroLimit)
  | time {failure : Failure} : request.selection.limit ≠ some 0 →
      request.time.Refused failure → Refused request failure

/-- Whether a response reports a failure under a code. -/
def Response.Reports (response : Response) (code : String) : Prop :=
  ∃ message : String, response.content = .json (.object
    [("error", .object [("code", .string code), ("message", .string message)])])

namespace TimeRequest

variable {time : TimeRequest} {failure : Failure}

/-- A time clause is read, also when it is blank. -/
theorem to_window_text (text : String) :
    toWindow { text := some text } = (Window.parse text).mapError .query := by
  show (if allBlank text then _ else _) = _
  split
  next hblank => rw [Window.parse_of_blank hblank]; rfl
  next => rfl

/-- A structured window is checked. -/
theorem to_window_structured (window : Window) :
    toWindow { window := some window } = (window.check.map fun _ => window).mapError .query := rfl

/-- `Refused` says why there is no window. -/
theorem to_window_eq_error_iff : time.toWindow = .error failure ↔ time.Refused failure := by
  constructor
  · intro h
    obtain ⟨window | window, text | text⟩ := time
    · cases h
    · rw [to_window_text] at h
      cases hparse : Window.parse text with
      | error e =>
          rw [hparse] at h
          obtain rfl := Except.error.inj h
          refine .unread (Bool.eq_false_iff.mpr fun hblank => ?_) hparse
          rw [Window.parse_of_blank hblank] at hparse
          cases hparse
      | ok window =>
          rw [hparse] at h
          cases h
    · rw [to_window_structured] at h
      cases hcheck : window.check with
      | error e =>
          rw [hcheck] at h
          obtain rfl := Except.error.inj h
          exact .unsound hcheck
      | ok =>
          rw [hcheck] at h
          cases h
    · obtain rfl := Except.error.inj h
      exact .twice window text
  · intro h
    cases h with
    | twice window text => rfl
    | unsound hcheck => rw [to_window_structured, hcheck]; rfl
    | unread hfilled hparse => rw [to_window_text, hparse]; rfl

/-- A time range is refused exactly when something is wrong with it. -/
theorem exists_refused_iff : (∃ failure, time.Refused failure) ↔ time.Faulty := by
  constructor
  · rintro ⟨failure, hrefused⟩
    cases hrefused with
    | twice window text => exact .inl ⟨rfl, rfl⟩
    | unsound hcheck => exact .inr (.inl ⟨_, rfl, by rw [hcheck]; nofun⟩)
    | unread hfilled hparse => exact .inr (.inr ⟨_, rfl, hfilled, _, hparse⟩)
  · intro h
    obtain ⟨window | window, text | text⟩ := time
    · rcases h with ⟨⟨⟩, -⟩ | ⟨_, ⟨⟩, -⟩ | ⟨_, ⟨⟩, -⟩
    · rcases h with ⟨⟨⟩, -⟩ | ⟨_, ⟨⟩, -⟩ | ⟨_, ⟨⟩, hfilled, e, hparse⟩
      exact ⟨_, .unread hfilled hparse⟩
    · rcases h with ⟨-, ⟨⟩⟩ | ⟨_, ⟨⟩, hcheck⟩ | ⟨_, ⟨⟩, -⟩
      cases hresult : window.check with
      | ok => exact absurd hresult hcheck
      | error e => exact ⟨_, .unsound hresult⟩
    · exact ⟨_, .twice window text⟩

/-- The window of a request is sound. -/
theorem check_to_window {window : Window} (h : time.toWindow = .ok window) :
    window.check = .ok () := by
  obtain ⟨asked | asked, text | text⟩ := time
  · obtain rfl := Except.ok.inj h
    rfl
  · rw [to_window_text] at h
    cases hparse : Window.parse text with
    | error e =>
        rw [hparse] at h
        cases h
    | ok parsed =>
        rw [hparse] at h
        obtain rfl := Except.ok.inj h
        exact Window.check_eq_ok_iff.mpr (Window.sound_of_parse hparse).1
  · rw [to_window_structured] at h
    cases hcheck : asked.check with
    | error e =>
        rw [hcheck] at h
        cases h
    | ok =>
        rw [hcheck] at h
        obtain rfl := Except.ok.inj h
        exact hcheck
  · cases h

/-- A time range is refused as such, and not for a draft that lacks something. -/
theorem Refused.code_ne (h : time.Refused failure) : failure.code ≠ "INCOMPLETE_DRAFT" := by
  cases h with
  | twice window text => decide
  | unsound hcheck =>
      obtain ⟨reason, rfl⟩ := Window.check_eq_error hcheck
      exact of_decide_eq_false rfl
  | unread _ hparse =>
      rcases Window.parse_eq_error hparse with ⟨name, rfl, -⟩ | ⟨⟨reason, rfl⟩, -⟩
      · exact of_decide_eq_false rfl
      · exact of_decide_eq_false rfl

end TimeRequest

namespace BuildRequest

variable {request : BuildRequest} {failure : Failure} {defaults : BuilderSettings}

/-- The draft of a request is that of its selection, with the window of its time range. -/
theorem to_draft_eq (request : BuildRequest) (defaults : BuilderSettings) :
    request.toDraft defaults =
      if request.selection.limit = some 0 then .error (.query Draft.zeroLimit)
      else request.time.toWindow.map fun window =>
        { request.selection.unlimited defaults with
          limit := request.selection.limit.bind RowLimit.ofWord?, window } := by
  rw [toDraft, Selection.to_draft_eq]
  split
  next => rfl
  next =>
    cases request.time.toWindow with
    | error failure => rfl
    | ok window => rfl

/-- `Refused` says why there is no draft. -/
theorem to_draft_eq_error_iff (defaults : BuilderSettings) :
    request.toDraft defaults = .error failure ↔ request.Refused failure := by
  rw [to_draft_eq]
  constructor
  · intro h
    split at h
    next hlimit =>
      obtain rfl := Except.error.inj h
      exact .noRows hlimit
    next hlimit =>
      cases hwindow : request.time.toWindow with
      | error failure =>
          rw [hwindow] at h
          obtain rfl := Except.error.inj h
          exact .time hlimit (TimeRequest.to_window_eq_error_iff.mp hwindow)
      | ok window =>
          rw [hwindow] at h
          cases h
  · intro h
    cases h with
    | noRows hlimit => rw [if_pos hlimit]
    | time hlimit hrefused =>
        rw [if_neg hlimit, TimeRequest.to_window_eq_error_iff.mpr hrefused]
        rfl

/-- A request is refused exactly when something is wrong with it. -/
theorem exists_refused_iff : (∃ failure, request.Refused failure) ↔ request.Faulty := by
  constructor
  · rintro ⟨failure, hrefused⟩
    cases hrefused with
    | noRows hlimit => exact .inl hlimit
    | time _ hrefused => exact .inr (TimeRequest.exists_refused_iff.mp ⟨_, hrefused⟩)
  · intro h
    by_cases hlimit : request.selection.limit = some 0
    · exact ⟨_, .noRows hlimit⟩
    · obtain ⟨failure, hrefused⟩ :=
        TimeRequest.exists_refused_iff.mpr (h.resolve_left hlimit)
      exact ⟨failure, .time hlimit hrefused⟩

/-- A request is refused as such, and not for a draft that lacks something. -/
theorem Refused.code_ne (h : request.Refused failure) : failure.code ≠ "INCOMPLETE_DRAFT" := by
  cases h with
  | noRows _ => decide
  | time _ hrefused => exact hrefused.code_ne

/-- The draft of a request is well formed and complete, and its window is sound. -/
theorem complete_to_draft {draft : Draft} (h : request.toDraft defaults = .ok draft) :
    draft.WellFormed ∧ draft.table.isSome = true ∧ draft.columns ≠ [] ∧
      draft.window.check = .ok () := by
  rw [to_draft_eq] at h
  split at h
  next => cases h
  next hlimit =>
    cases hwindow : request.time.toWindow with
    | error failure =>
        rw [hwindow] at h
        cases h
    | ok window =>
        rw [hwindow] at h
        obtain rfl := Except.ok.inj h
        have hselection := Selection.to_draft_eq request.selection defaults
        rw [if_neg hlimit] at hselection
        obtain ⟨hformed, htable, hcolumns⟩ :=
          Selection.complete_to_draft request.selection defaults hselection
        exact ⟨{ hformed with }, htable, hcolumns, TimeRequest.check_to_window hwindow⟩

/-- The draft of a request is assembled. -/
theorem assemble_to_draft {draft : Draft} (h : request.toDraft defaults = .ok draft) :
    ∃ query lines, draft.assemble = .ok query ∧ draft.assembleLines = .ok lines := by
  obtain ⟨hformed, htable, hcolumns, -⟩ := complete_to_draft h
  obtain ⟨table, -, hquery, hlines⟩ :=
    Draft.assemble_of_complete (hformed.missing_eq_none_iff.mpr ⟨htable, hcolumns⟩)
  exact ⟨_, _, hquery, hlines⟩

end BuildRequest

variable {ctx : Context} {request : BuildRequest}

/-- A request is refused, or its query is built. -/
theorem built_query_cases (ctx : Context) (request : BuildRequest) :
    (∃ failure, builtQuery ctx request = .error failure ∧ request.Refused failure) ∨
    ∃ query formatted valid findings, builtQuery ctx request =
      .ok (.object [("query", .string query), ("formatted", .string formatted),
        ("valid", .bool valid), ("findings", findings)]) := by
  unfold builtQuery
  cases hdraft : request.toDraft ctx.builder with
  | error failure =>
      exact .inl ⟨failure, rfl, (BuildRequest.to_draft_eq_error_iff ctx.builder).mp hdraft⟩
  | ok draft =>
      obtain ⟨query, lines, hquery, hlines⟩ := BuildRequest.assemble_to_draft hdraft
      simp only [bind, Except.bind, hquery, hlines]
      exact .inr ⟨query, lines, _, _, rfl⟩

/-- A query that was built is no report of a failure. -/
theorem built_query_reports {code : String}
    (h : (answerOf (builtQuery ctx request)).Reports code) :
    ∃ failure, request.Refused failure ∧ failure.code = code := by
  obtain ⟨message, hcontent⟩ := h
  rcases built_query_cases ctx request with ⟨failure, hbuilt, hrefused⟩ |
    ⟨query, formatted, valid, findings, hbuilt⟩
  · rw [hbuilt] at hcontent
    simp only [answerOf, failed, Failure.toJson, Content.json.injEq, Json.object.injEq,
      List.cons.injEq, Prod.mk.injEq, Json.string.injEq] at hcontent
    obtain ⟨⟨-, ⟨-, hcode⟩, -⟩, -⟩ := hcontent
    exact ⟨failure, hrefused, hcode⟩
  · rw [hbuilt] at hcontent
    simp [answerOf, success] at hcontent

/-- The build route reports no failure but those that requests are refused for. -/
theorem build_route_reports {http : Request} {query : List Char} {code : String}
    (h : (answerRoute ctx http query .build).Reports code) :
    ∃ request : BuildRequest, ∃ failure, request.Refused failure ∧ failure.code = code := by
  obtain ⟨message, hcontent⟩ := h
  simp only [answerRoute, withBody] at hcontent
  split at hcontent
  · cases hcontent
  · split at hcontent
    · cases hcontent
    · split at hcontent
      next request _ _ => exact ⟨request, built_query_reports ⟨message, hcontent⟩⟩
      · cases hcontent
      · cases hcontent

/-- A request is answered by its route, or without content. -/
theorem route_reports {http : Request} {route : Route} {code : String}
    (hroute : Route.ofPath? (splitTarget http.target).1 = some route)
    (h : (respond ctx http).Reports code) :
    (answerRoute ctx http (splitTarget http.target).2 route).Reports code := by
  obtain ⟨message, hcontent⟩ := h
  refine ⟨message, ?_⟩
  simp only [respond, answerRequest, hroute] at hcontent
  split at hcontent
  · cases hcontent
  · split at hcontent
    · cases hcontent
    · split at hcontent
      · cases hcontent
      · exact hcontent

/-- A build request is refused exactly for its limit or its time range, whichever is noticed first.
Every other one describes a draft with a table and columns whose entries are neat and whose window
is sound, and the draft is assembled on one line and on several. So the build route never reports a
draft that lacks something. -/
theorem build_request_decided (request : BuildRequest) (defaults : BuilderSettings) :
    (∀ failure, request.toDraft defaults = .error failure ↔ request.Refused failure) ∧
    ((∃ failure, request.toDraft defaults = .error failure) ↔ request.Faulty) ∧
    (¬ request.Faulty → ∃ draft, request.toDraft defaults = .ok draft ∧
      draft.table.isSome = true ∧ draft.columns ≠ [] ∧ draft.WellFormed ∧
      draft.window.check = .ok () ∧
      ∃ query lines, draft.assemble = .ok query ∧ draft.assembleLines = .ok lines) ∧
    ∀ ctx http, Route.ofPath? (splitTarget http.target).1 = some .build →
      ¬ (respond ctx http).Reports "INCOMPLETE_DRAFT" := by
  have herror : ∀ failure, request.toDraft defaults = .error failure ↔ request.Refused failure :=
    fun _ => BuildRequest.to_draft_eq_error_iff defaults
  have hfaulty : (∃ failure, request.toDraft defaults = .error failure) ↔ request.Faulty := by
    simp only [herror, BuildRequest.exists_refused_iff]
  refine ⟨herror, hfaulty, fun hsound => ?_, fun ctx http hroute hreports => ?_⟩
  · cases hdraft : request.toDraft defaults with
    | error failure => exact absurd (hfaulty.mp ⟨failure, hdraft⟩) hsound
    | ok draft =>
        obtain ⟨hformed, htable, hcolumns, hcheck⟩ := BuildRequest.complete_to_draft hdraft
        exact ⟨draft, rfl, htable, hcolumns, hformed, hcheck,
          BuildRequest.assemble_to_draft hdraft⟩
  · obtain ⟨other, failure, hrefused, hcode⟩ := build_route_reports (route_reports hroute hreports)
    exact hrefused.code_ne hcode

/-- A request with blank entries throughout. -/
def blankEntries : BuildRequest where
  selection := { columns := ["", " qid "], conditions := [" "], groupBy := [" "], having := [""],
                 orderBy := [" "], limit := some 5 }
  time := { text := some " " }

/-- Blank entries are no fault. -/
theorem build_request_decided_blank_entries :
    ¬ blankEntries.Faulty ∧
    (∃ draft, blankEntries.toDraft {} = .ok draft ∧ draft.WellFormed ∧
      draft.assemble = .ok "SELECT qid FROM events LIMIT 5") ∧
    Route.ofPath? (splitTarget "/api/v1/build").1 = some .build ∧
    ¬ (respond {} { method := "POST", target := "/api/v1/build" }).Reports "INCOMPLETE_DRAFT" := by
  obtain ⟨-, hfaulty, hdraft, hroute⟩ := build_request_decided blankEntries {}
  have hsound : ¬ blankEntries.Faulty := by
    rw [← hfaulty]
    rintro ⟨failure, hfailure⟩
    cases hfailure
  obtain ⟨draft, hok, -, -, hformed, -⟩ := hdraft hsound
  have hbuild : Route.ofPath? (splitTarget "/api/v1/build").1 = some .build := by decide +kernel
  refine ⟨hsound, ⟨draft, hok, hformed, ?_⟩, hbuild, hroute _ _ hbuild⟩
  obtain rfl := Except.ok.inj hok
  decide +kernel

end Ariel.Service
