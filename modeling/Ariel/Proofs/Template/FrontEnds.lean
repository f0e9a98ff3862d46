import Mathlib.Data.List.Nodup
import Ariel.Proofs.CommandLine.Rendering
import Ariel.Proofs.Service.Request
import Ariel.Proofs.Session.Modification

/-!
# The front ends of templates

A template can be filled in at the prompts of a session, in a call of the query program and over the
service. The session asks for the values in the order of the placeholders, the call gives them in
any order, and the service is sent them under their names. `front_ends_agree` says that all three
come to the same query.
-/

namespace Ariel.Template

open Ariel.CommandLine Ariel.Query Ariel.Service Ariel.Session Ariel.Text

variable {t : Template} {assignment : String → Option String} {time : Option String}
  {window : Window} {set values : List (String × String)}

section Names

/-- Library templates are called by names of their own, which are no names of arguments. -/
theorem names_of_library : (library.map fun t => capitals t.name.toList).Nodup ∧
    ∀ t ∈ library, trim t.name = t.name ∧ Usage.looksNamed t.name = false ∧ t.name ≠ "--" := by
  decide +kernel

/-- A library template is found by its name. -/
theorem find_name (ht : t ∈ library) : find? t.name = some t := by
  obtain ⟨hnodup, hnames⟩ := names_of_library
  have hsome : (find? t.name).isSome := List.find?_isSome.mpr
    ⟨t, ht, by rw [(hnames t ht).1, sameIgnoringCase, beq_self_eq_true]⟩
  obtain ⟨other, hother⟩ := Option.isSome_iff_exists.mp hsome
  have hsame : capitals other.name.toList = capitals t.name.toList := by
    have hfound := List.find?_some hother
    rw [(hnames t ht).1, sameIgnoringCase, beq_iff_eq] at hfound
    exact hfound
  rw [hother, List.inj_on_of_nodup_map hnodup (List.mem_of_find?_eq_some hother) ht hsame]

end Names

/-- A query that was made of a template, with the placeholders that are left in it. -/
def renderedRecord (t : Template) (query : String) : Json :=
  .object [("name", .string t.name), ("query", .string query),
    ("unfilled", .strings (placeholders query))]

/-- What is printed of the placeholders that are left. -/
def unfilledLines (unfilled : List String) : String :=
  if unfilled.isEmpty then "" else page ["Unfilled placeholders: " ++ join ", " unfilled]

section FrontEnds

/-- The query that a call makes of a library template. -/
theorem render_call (ht : t ∈ library) (hassigns : Assigns t.query assignment)
    (hset : Gives set assignment) (htime : TimeText time window) :
    RenderOptions.render ⟨set.map pairText, time⟩ t = .ok (withWindow
      (t.render (pairsOf assignment (placeholders t.query))) window) := by
  rw [render_options (fun pair hpair => (key_plain ht hassigns hset pair hpair).2) htime,
    render_eq_of_gives ht hassigns (gives_trimmed hset) (gives_pairs_of ht hassigns)]

/-- The outcome of a call that fills in a library template. -/
theorem plan_render_library (env : Environment) (format : Format) (ht : t ∈ library)
    (hassigns : Assigns t.query assignment) (hset : Gives set assignment)
    (htime : TimeText time window) :
    Program.query.plan env
        (formatArguments format ++ renderCall t.name (set.map pairText) time) =
      .done (renderOutcome format ⟨set.map pairText, time⟩ t) := by
  obtain ⟨-, hnamed, hdashes⟩ := names_of_library.2 t ht
  have htexts : ∀ text ∈ set.map pairText, Usage.looksNamed text = false := by
    intro text htext
    obtain ⟨pair, hpair, rfl⟩ := List.mem_map.mp htext
    exact looks_named_pair_text (key_plain ht hassigns hset pair hpair).1
  rw [plan_render_call env format hnamed hdashes htexts (looks_named_time htime), withTemplate,
    find_name ht]

/-- The record that the service answers for a library template. -/
theorem rendered_template (ht : t ∈ library) (hassigns : Assigns t.query assignment)
    (hvalues : Gives values assignment) (htime : TimeText time window) :
    renderedTemplate t.name { values, time := { text := time } } =
      .ok (renderedRecord t (withWindow
        (t.render (pairsOf assignment (placeholders t.query))) window)) := by
  have hwindow : TimeRequest.toWindow { text := time } = .ok window := by
    cases htime with
    | kept => rfl
    | changed _ _ hparse => rw [TimeRequest.to_window_text, hparse]; rfl
  rw [render_eq_of_gives ht hassigns (gives_pairs_of ht hassigns) hvalues]
  simp only [renderedTemplate, findTemplate, find_name ht, hwindow, bind, Except.bind]
  rfl

/-- A request that posts values, and a text for the time range or none, for a template. -/
structure Posts (http : Request) (name : String) (request : RenderRequest) : Prop where
  posted : http.method = "POST"
  target : ∃ segment, Route.ofPath? (splitTarget http.target).1 = some (.render segment) ∧
    decodedSegment? segment = some name
  json : http.contentType.any isJsonType = true
  small : http.body.utf8ByteSize ≤ bodyLimit
  read : ∃ rest, Body.render (Json.tokens http.body.toList) = .ok (request, rest)

/-- What is posted for a template is answered by the record of its query. -/
theorem respond_posted {http : Request} {name : String} {request : RenderRequest} {record : Json}
    (ctx : Service.Context) (h : Posts http name request)
    (hrecord : renderedTemplate name request = .ok record) :
    respond ctx http =
      { success record with allowOrigin := allowedOrigin ctx.api.corsOrigins http.origin } := by
  obtain ⟨segment, hroute, hsegment⟩ := h.target
  obtain ⟨rest, hread⟩ := h.read
  have hallows : (Route.render segment).allows "POST" = true := rfl
  have hbody : withBody http Body.render (renderedTemplate name) = success record := by
    simp only [withBody, h.json, Nat.not_lt.mpr h.small, hread, hrecord, answerOf, Bool.not_true,
      Bool.false_eq_true, if_false]
  have hanswer : answerRequest ctx http = success record := by
    have hmethods : "POST" ≠ "OPTIONS" ∧ "POST" ≠ "HEAD" := by decide
    simp only [answerRequest, hroute, hallows, answerRoute, withName, hsegment, hbody, h.posted,
      hmethods.1, hmethods.2, Bool.not_true, Bool.false_eq_true, if_false]
  rw [respond, hanswer]

/-- The front ends of a template agree. The values of an assignment may be typed one by one at the
prompts of a session, given in any order in a call, and sent to the service in any order; a text for
the time range may be typed, given and sent with them, or none. Then the session shows the query
that the call prints and the service answers, and these two report the same placeholders without a
value. The service answers so whenever it reads what was posted. -/
theorem front_ends_agree (ht : t ∈ library) (hassigns : Assigns t.query assignment)
    (hset : Gives set assignment) (hvalues : Gives values assignment)
    (htime : TimeText time window) :
    ∃ query : String,
      (∀ ctx memory rest, let lines := modifyLines t assignment time
        (readings ctx (openTemplate ctx memory t)
            (Line.ofInput (page lines ++ rest).toUTF8))[lines.length]? =
          some ⟨memory, .modifiedChoice t query, modifiedPage query⟩) ∧
      (∀ env, Program.query.plan env
          (formatArguments .text ++ renderCall t.name (set.map pairText) time) =
        .done { output := page [query], errors := unfilledLines (placeholders query) }) ∧
      (∀ env, Program.query.plan env
          (formatArguments .json ++ renderCall t.name (set.map pairText) time) =
        .done (.json (renderedRecord t query).sorted)) ∧
      renderedTemplate t.name { values, time := { text := time } } =
        .ok (renderedRecord t query) ∧
      ∀ (ctx : Service.Context) http, Posts http t.name { values, time := { text := time } } →
        respond ctx http = { success (renderedRecord t query) with
          allowOrigin := allowedOrigin ctx.api.corsOrigins http.origin } := by
  have hcall := render_call ht hassigns hset htime
  have hservice := rendered_template ht hassigns hvalues htime
  refine ⟨_, fun ctx memory rest => readings_modified hassigns htime rest, fun env => ?_,
    fun env => ?_, hservice, fun ctx http hposts => respond_posted ctx hposts hservice⟩
  · rw [plan_render_library env .text ht hassigns hset htime, renderOutcome, hcall]
    rfl
  · rw [plan_render_library env .json ht hassigns hset htime, renderOutcome, hcall]
    rfl

/-- The placeholders of a query are read off its characters. -/
theorem placeholders_of_chars {query : String} {cs : List Char} {names : List String}
    (hquery : query.toList = cs)
    (h : distinct [] ((occurrences placeholder cs).map fun found =>
      String.ofList found.value) = names) : placeholders query = names := by
  rw [placeholders, hquery, h]

/-- The addresses of two hosts. -/
def twoAddresses (name : String) : Option String :=
  if name = "SOURCE_IP" then some "10.0.0.1"
  else if name = "DEST_IP" then some "10.0.0.2"
  else none

/-- The addresses may be given in either order, and under any spelling of the names. -/
theorem gives_two_addresses
    (h : (values.map fun pair => (placeholderName pair.1, pair.2)).Perm
      [("SOURCE_IP", "10.0.0.1"), ("DEST_IP", "10.0.0.2")]) : Gives values twoAddresses := by
  intro name value
  have hmem : (∃ pair ∈ values, placeholderName pair.1 = name ∧ pair.2 = value) ↔
      (name, value) ∈ [("SOURCE_IP", "10.0.0.1"), ("DEST_IP", "10.0.0.2")] := by
    rw [← h.mem_iff, List.mem_map]
    simp only [Prod.mk.injEq]
  rw [hmem, twoAddresses]
  by_cases hsource : name = "SOURCE_IP"
  · simp [hsource, eq_comm]
  · by_cases hdest : name = "DEST_IP"
    · simp [hdest, eq_comm]
    · simp [hsource, hdest]

/-- The addresses can be given for the placeholders of the template for two hosts. -/
theorem assigns_two_addresses : Assigns connectionsBetweenAddresses.query twoAddresses := by
  have hnames : placeholders connectionsBetweenAddresses.query = ["SOURCE_IP", "DEST_IP"] :=
    placeholders_of_chars
      (show (lines _).toList = _ by
        repeat' first
          | with_reducible apply chars_lines
          | with_reducible apply chars_line
          | with_reducible apply chars_append
          | with_reducible exact String.toList_ofList)
      (by decide +kernel)
  have hcases : ∀ {name value}, twoAddresses name = some value →
      (name = "SOURCE_IP" ∧ value = "10.0.0.1") ∨ (name = "DEST_IP" ∧ value = "10.0.0.2") := by
    intro name value hvalue
    unfold twoAddresses at hvalue
    split at hvalue
    next hname => exact .inl ⟨hname, (Option.some.inj hvalue).symm⟩
    next =>
      split at hvalue
      next hname => exact .inr ⟨hname, (Option.some.inj hvalue).symm⟩
      next => cases hvalue
  constructor
  · intro name value hvalue
    rw [hnames]
    rcases hcases hvalue with ⟨rfl, -⟩ | ⟨rfl, -⟩
    · simp
    · simp
  all_goals
    intro name value hvalue
    rcases hcases hvalue with ⟨-, rfl⟩ | ⟨-, rfl⟩
    · decide +kernel
    · decide +kernel

/-- The addresses of two hosts, and a time range, as they are posted. -/
def postedAddresses : Request where
  method := "POST"
  target := "/api/v1/templates/Connections%20Between%20Two%20IPs/render"
  contentType := some "application/json"
  body := "\x7b\"values\": \x7b\"source_ip\": \"10.0.0.1\", \"DEST_IP\": \"10.0.0.2\"\x7d, "
    ++ "\"time\": \"24 hours\"\x7d"

theorem posts_addresses : Posts postedAddresses connectionsBetweenAddresses.name
    { values := [("source_ip", "10.0.0.1"), ("DEST_IP", "10.0.0.2")],
      time := { text := some "24 hours" } } where
  posted := rfl
  target := ⟨"Connections%20Between%20Two%20IPs".toList, by decide +kernel, by decide +kernel⟩
  json := by decide +kernel
  small := by decide +kernel
  read := ⟨[], rfl⟩

/-- The front ends agree on two addresses and another time range. -/
theorem front_ends_agree_two_addresses :
    connectionsBetweenAddresses ∈ library ∧
    Assigns connectionsBetweenAddresses.query twoAddresses ∧
    TimeText (some "24 hours") (.relative 24 .hours) ∧
    ∃ query : String,
      Program.query.plan (fun _ => none) (formatArguments .text ++
          renderCall connectionsBetweenAddresses.name
            ["dest_ip =10.0.0.2", "SOURCE_IP=10.0.0.1"] (some "24 hours")) =
        .done { output := page [query], errors := unfilledLines (placeholders query) } ∧
      (respond {} postedAddresses).content =
        .json (renderedRecord connectionsBetweenAddresses query) := by
  have htime : TimeText (some "24 hours") (.relative 24 .hours) :=
    .changed (by decide +kernel) (by decide) (by decide +kernel)
  have hset : Gives [("dest_ip ", "10.0.0.2"), ("SOURCE_IP", "10.0.0.1")] twoAddresses :=
    gives_two_addresses (by decide +kernel)
  have hvalues : Gives [("source_ip", "10.0.0.1"), ("DEST_IP", "10.0.0.2")] twoAddresses :=
    gives_two_addresses (by decide +kernel)
  obtain ⟨query, -, htext, -, -, hresponds⟩ :=
    front_ends_agree mem_library_connections_between_addresses assigns_two_addresses
      hset hvalues htime
  refine ⟨mem_library_connections_between_addresses, assigns_two_addresses, htime, query, htext _,
    ?_⟩
  rw [hresponds {} postedAddresses posts_addresses]
  rfl

end FrontEnds

end Ariel.Template
