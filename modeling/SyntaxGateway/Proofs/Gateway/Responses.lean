import SyntaxGateway.Proofs.Gateway.Bodies
import SyntaxGateway.Proofs.Outcome
import SyntaxGateway.Proofs.Parse.Stages

/-!
# What routes answer

A route comes to an outcome: data of its own form, or a failure of one of its kinds
(`Route.Yields`). The response then conveys it (`Conveys`): however the body is read as an object,
its members are the status of the response, and either the data or all messages of the failure, each
under the same kind.
-/

namespace SyntaxGateway

/-! ## Failures -/

theorem Failure.messages_ne_nil (f : Failure) : f.messages ≠ [] := by
  cases f with
  | source errors => cases errors <;> simp [messages]
  | _ => simp [messages]

theorem FailureKind.isStatus_status (k : FailureKind) : Http.isStatus k.status := by
  cases k <;> decide

theorem FailureKind.status_eq (k : FailureKind) :
    k.status = if k.text = "upstream_unavailable" then 502 else 400 := by
  cases k <;> decide

theorem Http.Request.accept_eq_ok_iff {α : Type} {r : Http.Request} {scan : Nat → Json.Scan α}
    {a : α} : r.accept scan = .ok a ↔ r.read scan = .ok a :=
  mapError_eq_ok_iff

/-- A body that is not accepted is the client's fault. -/
theorem Http.Request.kind_of_accept {α : Type} {r : Http.Request} {scan : Nat → Json.Scan α}
    {f : Failure} (h : r.accept scan = .error f) : f.kind = .badRequest := by
  obtain ⟨fault, -, rfl⟩ := mapError_eq_error_iff.1 h
  rfl

namespace Gateway

variable {r : Http.Request} {request : ParseRequest} {f : Failure}

/-! ## Outcomes of routes -/

/-- The kinds of failures that a route may report, as clients read them. -/
def Route.kinds : Route → List String
  | .languages => []
  | .detect => ["bad_request", "language_unresolved"]
  | .parse =>
    ["bad_request", "invalid_mode", "query_error", "language_unresolved", "upstream_parse_error",
      "upstream_unavailable"]
  | .filter => ["bad_request", "decode_error", "query_error"]

/-- What a route may come to. -/
inductive Route.Yields : Route → Outcome Data → Prop
  | languages : Yields .languages (.ok .languages)
  | detected (response : DetectResponse) : Yields .detect (.ok (.detected response))
  | parsed (nodes : List Node) : Yields .parse (.ok (.nodes nodes))
  | filtered (nodes : List Node) : Yields .filter (.ok (.nodes nodes))
  | failed {route : Route} {f : Failure} : f.kind.text ∈ route.kinds → Yields route (.error f)

theorem yields_detect (request : DetectRequest) :
    Route.detect.Yields ((detect request).value.map .detected) := by
  rw [detect, Logged.value_bind]
  split
  · exact .failed (by simp [Failure.kind, FailureKind.text, Route.kinds])
  · exact .detected _

theorem yields_filter (request : FilterRequest) :
    Route.filter.Yields (request.run.value.map .nodes) := by
  rw [FilterRequest.run]
  split
  · exact .failed (by simp [Failure.ofBatch, Failure.kind, FailureKind.text, Route.kinds])
  · split
    · exact .failed (by simp [Failure.ofQuery, Failure.kind, FailureKind.text, Route.kinds])
    · exact .filtered _

theorem kind_of_refuses (h : request.Refuses f) : f.kind.text ∈ Route.parse.kinds := by
  cases h <;> simp [Failure.ofQuery, Failure.kind, FailureKind.text, Route.kinds]

theorem yields_of_reports {answer : Service.Answer} {outcome : Outcome (List Node)}
    (h : request.Reports answer outcome) : Route.parse.Yields (outcome.map .nodes) := by
  cases h with
  | source | unavailable | unreadable =>
    exact .failed (by simp [Failure.kind, FailureKind.text, Route.kinds])
  | root | filtered => exact .parsed _

/-! ## Responses -/

/-- A body is JSON, an object with exactly these members. -/
def HasMembers (body : String) (members : List (String × Bytes)) : Prop :=
  ∀ found, Json.ObjectText Json.RawText (Utf8.ofString body) found ↔ found = members

/-- A text reports a message of this kind. -/
def ErrorText (kind : String) (t : Bytes) (message : String) : Prop :=
  Json.ObjectText Json.StringText t [("message", message), ("kind", kind)]

/-- A response conveys an outcome. Its status is also in the body, beside the data or the errors and
never both. -/
inductive Conveys : Outcome Data → Http.Response → Prop
  | data {d : Data} {t : Bytes} {response : Http.Response} : response.status = 200 →
      HasMembers response.body
        [("status", Utf8.ofString (toString response.status)), ("data", t)] →
      DataText t d → Conveys (.ok d) response
  | errors {f : Failure} {t : Bytes} {response : Http.Response} :
      response.status = (if f.kind.text = "upstream_unavailable" then 502 else 400) →
      HasMembers response.body
        [("status", Utf8.ofString (toString response.status)), ("errors", t)] →
      f.messages ≠ [] → Json.Enclosed .array (ErrorText f.kind.text) t f.messages →
      Conveys (.error f) response

theorem hasMembers_object {status : Nat} {name text : String}
    (h : Json.PhraseText .value (Utf8.ofString text)) :
    HasMembers (Json.object [("status", toString status), (name, text)])
      [("status", Utf8.ofString (toString status)), (name, Utf8.ofString text)] := by
  have hobject := @Json.objectText_of_values [("status", toString status), (name, text)] <| by
    simp only [List.forall_mem_cons]
    exact ⟨Json.phraseText_toString status, h, List.forall_mem_nil _⟩
  exact fun found => hobject.iff_eq

/-- The errors of a failure as JSON. -/
def errorsJson (f : Failure) : String :=
  Json.array ((f.messages.map fun message => (⟨message, f.kind⟩ : ErrorItem)).map (·.toJson))

theorem enclosed_errorsJson (f : Failure) :
    Json.Enclosed .array (ErrorText f.kind.text) (Utf8.ofString (errorsJson f)) f.messages := by
  rw [errorsJson, List.map_map]
  exact Json.enclosed_array fun message _ =>
    objectText_pair "message" "kind" message f.kind.text

/-- The envelope for an outcome. -/
def envelope : Outcome Data → Envelope String
  | .ok d => .ok d.toJson
  | .error f => .ofFailure f

theorem conveys_envelope (outcome : Outcome Data) :
    Conveys outcome (shared ((envelope outcome).response id)) := by
  cases outcome with
  | ok d =>
    have ht := dataText_toJson d
    exact .data rfl (hasMembers_object ht.phraseText) ht
  | error f =>
    have hstatus : ((envelope (.error f)).response id).status = f.kind.status :=
      if_pos f.kind.isStatus_status
    have ht := enclosed_errorsJson f
    have hvalue := Json.phraseText_of_array
      (fun herror => Json.ObjectText.phraseText Json.StringText.phraseText herror) ht
    refine .errors (hstatus.trans f.kind.status_eq) ?_ f.messages_ne_nil ht
    simp only [shared, hstatus]
    exact hasMembers_object hvalue

theorem value_fail (f : Failure) (calls : List Service.Request) :
    (fail f calls).value = ⟨envelope (.error f), calls⟩ := by
  cases hclient : f.kind.isClientError <;> simp [fail, Failure.report, hclient, envelope]

theorem writeNodes_eq (nodes : List Node) : writeNodes nodes = (Data.nodes nodes).toJson :=
  rfl

theorem value_conclude {α : Type} {write : α → String} {data : α → Data}
    (hwrite : ∀ a, write a = (data a).toJson) (calls : List Service.Request) (outcome : Outcome α) :
    (conclude write calls outcome).value = ⟨envelope (outcome.map data), calls⟩ := by
  cases outcome with
  | ok a => simp [conclude, envelope, Except.map, hwrite]
  | error f => exact value_fail f calls

end Gateway

end SyntaxGateway
