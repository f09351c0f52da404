import SyntaxGateway.Proofs.Gateway.Responses

/-!
# Sessions

**Theorem (`session_turns`).** In every session, each request is answered in one of three ways. It
reaches no route that has something to say, and the body of the response is empty. It reaches a
route, and the response conveys what that route comes to, with every client the same. Or it asks for
a source to be parsed and passes all checks; then there is one call, and the response conveys what
is made of its answer. The calls are numbered through the session: a request has the client whose
number is the count of the requests before it that make a call.

With the client left open, an answer is a function of the client, and its form shows what it takes
from the client (`Turn`). That each request has such a form is the step (`turn_respond`), and that
the calls are counted right follows over the requests (`session_eq`).
-/

namespace SyntaxGateway

/-! ## Which requests make a call -/

/-- The target is this path. What follows a question mark or a number sign does not count. -/
def Http.Request.IsFor (r : Http.Request) (path : String) : Prop :=
  ∃ rest, r.target.toList = path.toList ++ rest ∧ ∀ c ∈ rest.head?, c = '?' ∨ c = '#'

namespace Gateway

variable {r : Http.Request} {route : Route} {request : ParseRequest}

/-- The request is for the route, and the route has its method. -/
structure Reaches (r : Http.Request) (route : Route) : Prop where
  path : r.IsFor route.path
  method : r.method ∈ route.methods

/-- The request asks for a source to be parsed, and passes all checks. -/
structure Admitted (r : Http.Request) (request : ParseRequest) : Prop where
  method : r.method = "POST"
  path : r.IsFor "/parse"
  body : r.read ParseRequest.scan = .ok request
  mode : request.ModeKnown
  filter : request.FilterReads
  language : request.LanguageResolves

/-- Exactly the requests for which the service is called. -/
def CallsService (r : Http.Request) : Prop := ∃ request, Admitted r request

/-- How a request is answered, as a function of the client. -/
inductive Turn (r : Http.Request) : (Service.Client → Logged Exchange) → Prop
  /-- No route has anything to say. -/
  | bodiless {response : Http.Response} {lines : List Log.Line} :
      (∀ route, Reaches r route → r.method = "HEAD") → ¬CallsService r →
      response.status ∈ [200, 404, 405] → response.body = "" →
      Turn r fun _ => ⟨⟨response, []⟩, lines⟩
  /-- A route says the same with every client. -/
  | direct {route : Route} {outcome : Outcome Data} {response : Http.Response}
      {lines : List Log.Line} :
      Reaches r route → r.method ≠ "HEAD" → ¬CallsService r → route.Yields outcome →
      Conveys outcome response → Turn r fun _ => ⟨⟨response, []⟩, lines⟩
  /-- The client is called once, and what it answers is reported. -/
  | called {request : ParseRequest} {call : Service.Request}
      {response : Service.Answer → Http.Response} {before : List Log.Line}
      {after : Service.Answer → List Log.Line} :
      Admitted r request → request.Forwards call →
      (∀ answer, ∃ outcome, request.Reports answer outcome ∧
        Route.parse.Yields (outcome.map .nodes) ∧ Conveys (outcome.map .nodes) (response answer)) →
      Turn r fun client => ⟨⟨response (client call).value, [call]⟩,
        before ++ (client call).lines ++ after (client call).value⟩

/-! ## Paths -/

theorem isFor_iff {path : String} (h : ∀ c ∈ path.toList, c ≠ '?' ∧ c ≠ '#') :
    r.IsFor path ↔ r.target.toList.takeWhile (fun c => c ≠ '?' && c ≠ '#') = path.toList := by
  constructor
  · rintro ⟨rest, htarget, hrest⟩
    have hend : rest.takeWhile (fun c => c ≠ '?' && c ≠ '#') = [] := by
      cases rest with
      | nil => rfl
      | cons c rest => rcases hrest c rfl with rfl | rfl <;> rfl
    rw [htarget, List.takeWhile_append_of_pos (by simpa using h), hend, List.append_nil]
  · intro htake
    refine ⟨r.target.toList.dropWhile fun c => c ≠ '?' && c ≠ '#', ?_, fun c hc => ?_⟩
    · rw [← htake, List.takeWhile_append_dropWhile]
    · have hstop := List.head?_dropWhile_not (fun c => c ≠ '?' && c ≠ '#') r.target.toList
      rw [Option.mem_def.1 hc] at hstop
      simpa [or_iff_not_imp_left] using hstop

theorem path_plain (route : Route) : ∀ c ∈ route.path.toList, c ≠ '?' ∧ c ≠ '#' := by
  cases route <;> simp [Route.path]

theorem ofTarget?_eq_some_iff : Route.ofTarget? r.target = some route ↔ r.IsFor route.path := by
  rw [isFor_iff (path_plain route), Route.ofTarget?]
  constructor
  · intro h
    have hpath := List.find?_some h
    rw [decide_eq_true_eq] at hpath
    rw [hpath, String.toList_ofList]
  · intro htake
    rw [htake, String.ofList_toList]
    cases route <;> decide

theorem Reaches.unique {route' : Route} (h : Reaches r route) (h' : Reaches r route') :
    route = route' :=
  Option.some.inj <|
    (ofTarget?_eq_some_iff.2 h.path).symm.trans (ofTarget?_eq_some_iff.2 h'.path)

theorem Admitted.reaches (h : Admitted r request) : Reaches r .parse :=
  ⟨h.path, by simp [Route.methods, h.method]⟩

/-- Only the route for parsing makes calls. -/
theorem not_callsService_of_reaches (h : Reaches r route) (hroute : route ≠ .parse) :
    ¬CallsService r :=
  fun ⟨_, hadmitted⟩ => hroute (h.unique hadmitted.reaches)

/-! ## Responses without a body -/

theorem not_reaches_options (hoptions : r.method = "OPTIONS") (route : Route) :
    ¬Reaches r route := by
  intro h
  have hmethod := h.method
  rw [hoptions] at hmethod
  cases route <;> simp [Route.methods] at hmethod

/-- A route that can be asked for its headers alone is the one that can be read. -/
theorem eq_languages_of_head (h : Reaches r route) (hhead : r.method = "HEAD") :
    route = .languages := by
  have hmethod := h.method
  rw [hhead] at hmethod
  cases route <;> simp [Route.methods] at hmethod ⊢

/-- What a route answers goes out as the response; without its body, if only the headers are asked
for. -/
theorem respond_of_reaches (client : Service.Client) (h : Reaches r route) :
    respond client r =
      let response := (answer client r route).value.envelope.response id
      let body := if r.method = "HEAD" then "" else response.body
      ⟨⟨shared { response with body := body }, (answer client r route).value.calls⟩,
        (answer client r route).lines⟩ := by
  have hoptions : r.method ≠ "OPTIONS" := fun hoptions => not_reaches_options hoptions route h
  have hmethod : route.methods.contains r.method := List.contains_iff_mem.2 h.method
  simp only [respond, ofTarget?_eq_some_iff.2 h.path, hoptions, hmethod, if_true, if_false]
  simp [bind]

/-- Where no route is reached, the response has no body, whatever the client is. -/
theorem respond_of_not_reaches (h : ∀ route, ¬Reaches r route) :
    ∃ response, response.status ∈ [200, 404, 405] ∧ response.body = "" ∧
      ∀ client, respond client r = ⟨⟨response, []⟩, []⟩ := by
  by_cases hoptions : r.method = "OPTIONS"
  · exact ⟨preflight (Route.ofTarget? r.target), by simp [preflight], rfl, fun _ => if_pos hoptions⟩
  · cases htarget : Route.ofTarget? r.target with
    | none =>
      refine ⟨shared ⟨404, [], ""⟩, by simp [shared], rfl, fun client => ?_⟩
      simp only [respond, htarget, hoptions, if_false]
      rfl
    | some route =>
      have hmethod : ¬route.methods.contains r.method = true := fun hmethod =>
        h route ⟨ofTarget?_eq_some_iff.1 htarget, List.contains_iff_mem.1 hmethod⟩
      refine ⟨shared ⟨405, allow (some route), ""⟩, by simp [shared], rfl, fun client => ?_⟩
      simp only [respond, htarget, hoptions, hmethod, if_false]
      rfl

theorem turn_bodiless (h : ∀ route, Reaches r route → r.method = "HEAD") :
    Turn r fun client => respond client r := by
  have hcalls : ¬CallsService r := by
    rintro ⟨request, hadmitted⟩
    have hmethod := hadmitted.method
    rw [h _ hadmitted.reaches] at hmethod
    simp at hmethod
  by_cases hreached : ∃ route, Reaches r route
  · obtain ⟨route, hreaches⟩ := hreached
    have hhead := h route hreaches
    obtain rfl := eq_languages_of_head hreaches hhead
    have hturn : (fun client => respond client r) = fun _ =>
        ⟨⟨shared { (languages.value.envelope.response id) with body := "" }, []⟩, []⟩ := by
      funext client
      rw [respond_of_reaches client hreaches]
      simp only [hhead, if_true]
      rfl
    rw [hturn]
    exact .bodiless h hcalls (by decide) rfl
  · obtain ⟨response, hstatus, hbody, hrespond⟩ := respond_of_not_reaches (not_exists.1 hreached)
    rw [funext hrespond]
    exact .bodiless h hcalls hstatus hbody

/-! ## Responses of routes -/

/-- A route that answers the same with every client. -/
theorem turn_of_answer {outcome : Outcome Data} {result : Logged Result} (h : Reaches r route)
    (hhead : r.method ≠ "HEAD") (hcalls : ¬CallsService r) (hyields : route.Yields outcome)
    (hvalue : result.value = ⟨envelope outcome, []⟩)
    (hanswer : ∀ client, answer client r route = result) :
    Turn r fun client => respond client r := by
  have hturn : (fun client => respond client r) =
      fun _ => ⟨⟨shared ((envelope outcome).response id), []⟩, result.lines⟩ := by
    funext client
    rw [respond_of_reaches client h, hanswer, hvalue]
    simp only [hhead, if_false]
  rw [hturn]
  exact .direct h hhead hcalls hyields (conveys_envelope outcome)

/-- A body that is not accepted is reported, whatever the client is. -/
theorem turn_of_rejected {f : Failure} {α : Type} {scan : Nat → Json.Scan α} (h : Reaches r route)
    (hhead : r.method ≠ "HEAD") (hcalls : ¬CallsService r) (hkind : "bad_request" ∈ route.kinds)
    (haccept : r.accept scan = .error f) (hanswer : ∀ client, answer client r route = fail f []) :
    Turn r fun client => respond client r := by
  have hfailed : route.Yields (.error f) := by
    refine .failed ?_
    rw [Http.Request.kind_of_accept haccept]
    exact hkind
  exact turn_of_answer h hhead hcalls hfailed (value_fail f []) hanswer

/-- A route that reads a body and gets along without the service. -/
theorem turn_of_body {α β : Type} {scan : Nat → Json.Scan α} {run : α → Logged (Outcome β)}
    {write : β → String} {data : β → Data} (hwrite : ∀ b, write b = (data b).toJson)
    (h : Reaches r route) (hhead : r.method ≠ "HEAD") (hroute : route ≠ .parse)
    (hkind : "bad_request" ∈ route.kinds)
    (hyields : ∀ request, route.Yields ((run request).value.map data))
    (hrejected : ∀ f client, r.accept scan = .error f → answer client r route = fail f [])
    (haccepted : ∀ request client, r.accept scan = .ok request →
      answer client r route = do conclude write [] (← run request)) :
    Turn r fun client => respond client r := by
  have hcalls : ¬CallsService r := not_callsService_of_reaches h hroute
  cases haccept : r.accept scan with
  | error f =>
    exact turn_of_rejected h hhead hcalls hkind haccept fun client => hrejected f client haccept
  | ok request =>
    have hvalue : (do conclude write [] (← run request)).value =
        ⟨envelope ((run request).value.map data), []⟩ := by
      rw [Logged.value_bind, value_conclude hwrite]
    exact turn_of_answer h hhead hcalls (hyields request) hvalue fun client =>
      haccepted request client haccept

theorem turn_languages (h : Reaches r .languages) (hhead : r.method ≠ "HEAD") :
    Turn r fun client => respond client r :=
  turn_of_answer h hhead (not_callsService_of_reaches h nofun) .languages rfl fun _ => rfl

theorem turn_detect (h : Reaches r .detect) (hhead : r.method ≠ "HEAD") :
    Turn r fun client => respond client r := by
  have hwrite (response : DetectResponse) : response.toJson = (Data.detected response).toJson := rfl
  exact turn_of_body hwrite h hhead nofun (by decide) yields_detect
    (fun f client haccept => by rw [answer, haccept])
    (fun request client haccept => by rw [answer, haccept])

theorem turn_filter (h : Reaches r .filter) (hhead : r.method ≠ "HEAD") :
    Turn r fun client => respond client r :=
  turn_of_body writeNodes_eq h hhead nofun (by decide) yields_filter
    (fun f client haccept => by rw [answer, haccept])
    (fun request client haccept => by rw [answer, haccept])

/-! ## The call -/

theorem Admitted.unique {request' : ParseRequest} (h : Admitted r request')
    (haccept : r.accept ParseRequest.scan = .ok request) : request' = request :=
  Except.ok.inj (h.body.symm.trans (Http.Request.accept_eq_ok_iff.1 haccept))

/-- A request that a check refuses is answered without a call. -/
theorem turn_of_refused {f : Failure} (h : Reaches r .parse) (hhead : r.method ≠ "HEAD")
    (haccept : r.accept ParseRequest.scan = .ok request) (hrefuses : request.Refuses f)
    (hplan : request.plan.value = .error f) : Turn r fun client => respond client r := by
  have hcalls : ¬CallsService r := by
    rintro ⟨request', hadmitted⟩
    obtain rfl := hadmitted.unique haccept
    exact hrefuses.not_passes ⟨hadmitted.mode, hadmitted.filter, hadmitted.language⟩
  have hrun (client) : request.run client = ⟨⟨.error f, []⟩, request.plan.lines⟩ :=
    have hplanned := ParseRequest.run_of_plan_error client hplan
    congrArg₂ Logged.mk hplanned.1 hplanned.2
  refine turn_of_answer h hhead hcalls (.failed (kind_of_refuses hrefuses)) ?_ fun client => by
    rw [answer, haccept]
    simp only [hrun]
    rfl
  exact value_fail f []

/-- A request that passes all checks is answered by what is made of the answer to its call. -/
theorem turn_of_planned {plan : ParsePlan} (hadmitted : Admitted r request)
    (hplan : request.plan.value = .ok plan) (hquery : request.HasQuery plan.query)
    (hforwards : request.Forwards plan.call) : Turn r fun client => respond client r := by
  have hhead : r.method ≠ "HEAD" := by simp [hadmitted.method]
  have haccept := Http.Request.accept_eq_ok_iff.2 hadmitted.body
  -- The client occurs in the call alone; all behind it is a function of the answer.
  let outcome (answer : Service.Answer) := (ParseRequest.nodesOf plan.query answer).map Data.nodes
  let response (answer : Service.Answer) := shared ((envelope (outcome answer)).response id)
  let after (answer : Service.Answer) :=
    (conclude writeNodes [plan.call] (ParseRequest.nodesOf plan.query answer)).lines
  have hturn : (fun client => respond client r) = fun client =>
      ⟨⟨response (client plan.call).value, [plan.call]⟩,
        request.plan.lines ++ (client plan.call).lines ++ after (client plan.call).value⟩ := by
    funext client
    obtain ⟨hvalue, hlines⟩ := ParseRequest.run_of_plan_ok client hplan
    rw [respond_of_reaches client hadmitted.reaches, answer, haccept]
    simp only [Logged.value_bind, Logged.lines_bind, hvalue, hlines, value_conclude writeNodes_eq,
      hhead, if_false]
    rfl
  rw [hturn]
  refine .called hadmitted hforwards fun answer => ?_
  have hreports := hquery.reports_nodesOf answer
  exact ⟨_, hreports, yields_of_reports hreports, conveys_envelope _⟩

theorem turn_parse (h : Reaches r .parse) (hhead : r.method ≠ "HEAD") :
    Turn r fun client => respond client r := by
  cases haccept : r.accept ParseRequest.scan with
  | error f =>
    have hcalls : ¬CallsService r := by
      rintro ⟨request, hadmitted⟩
      rw [Http.Request.accept_eq_ok_iff.2 hadmitted.body] at haccept
      cases haccept
    exact turn_of_rejected h hhead hcalls (by decide) haccept fun client => by
      rw [answer, haccept]
  | ok request =>
    obtain ⟨f, hrefuses, hplan⟩ | ⟨plan, hplan, hmode, hquery, hforwards⟩ := request.plan_cases
    · exact turn_of_refused h hhead haccept hrefuses hplan
    · have hpost : r.method = "POST" := by simpa [Route.methods] using h.method
      have hadmitted : Admitted r request :=
        ⟨hpost, h.path, Http.Request.accept_eq_ok_iff.1 haccept, hmode, ⟨_, hquery⟩,
          ⟨_, hforwards.language⟩⟩
      exact turn_of_planned hadmitted hplan hquery hforwards

/-! ## Sessions -/

/-- Every request is answered in one of the three ways. -/
theorem turn_respond (r : Http.Request) : Turn r fun client => respond client r := by
  by_cases h : ∃ route, Reaches r route ∧ r.method ≠ "HEAD"
  · obtain ⟨route, hreaches, hhead⟩ := h
    cases route with
    | languages => exact turn_languages hreaches hhead
    | detect => exact turn_detect hreaches hhead
    | parse => exact turn_parse hreaches hhead
    | filter => exact turn_filter hreaches hhead
  · exact turn_bodiless fun route hreaches => by_contra fun hhead => h ⟨route, hreaches, hhead⟩

theorem Turn.length_calls {turn : Service.Client → Logged Exchange} (h : Turn r turn)
    (client : Service.Client) :
    CallsService r ∧ (turn client).value.calls.length = 1 ∨
      ¬CallsService r ∧ (turn client).value.calls.length = 0 := by
  cases h with
  | bodiless _ hcalls => exact .inr ⟨hcalls, rfl⟩
  | direct _ _ hcalls => exact .inr ⟨hcalls, rfl⟩
  | called hadmitted => exact .inl ⟨⟨_, hadmitted⟩, rfl⟩

/-- Whether a request makes a call can be seen with any client. -/
instance : DecidablePred CallsService := fun r =>
  let client : Service.Client := fun _ => pure (.error (.unavailable ""))
  decidable_of_iff ((respond client r).value.calls.length = 1) <| by
    rcases (turn_respond r).length_calls client with ⟨hcalls, hlength⟩ | ⟨hcalls, hlength⟩ <;>
      simp [hcalls, hlength]

/-- How many of the requests make a call. -/
def callCount (requests : List Http.Request) : Nat := requests.countP (CallsService ·)

theorem callCount_cons (client : Service.Client) (r : Http.Request) (rest : List Http.Request) :
    callCount (r :: rest) = (respond client r).value.calls.length + callCount rest := by
  rcases (turn_respond r).length_calls client with ⟨hcalls, hlength⟩ | ⟨hcalls, hlength⟩
  · rw [callCount, List.countP_cons_of_pos (by simpa using hcalls), hlength, Nat.add_comm]
    rfl
  · rw [callCount, List.countP_cons_of_neg (by simpa using hcalls), hlength, Nat.zero_add]
    rfl

/-- A session asks one client after the other, and only for the requests that make a call. -/
theorem session_eq (clients : Nat → Service.Client) (requests : List Http.Request) (made : Nat) :
    let turns := requests.mapIdx fun i r => respond (clients (made + callCount (requests.take i))) r
    (session clients made requests).value = turns.map (·.value) ∧
      (session clients made requests).lines = turns.flatMap (·.lines) := by
  -- Behind a request that makes a call the session goes on from a higher number, and so does the
  -- count of the calls in front of each later request.
  induction requests generalizing made with
  | nil => exact ⟨rfl, rfl⟩
  | cons r rest ih =>
    obtain ⟨hvalue, hlines⟩ := ih (made + (respond (clients made) r).value.calls.length)
    have hclient (i : Nat) : made + callCount ((r :: rest).take (i + 1)) =
        made + (respond (clients made) r).value.calls.length + callCount (rest.take i) := by
      rw [List.take_succ_cons, callCount_cons (clients made), Nat.add_assoc]
    simp only [session, Logged.value_bind, Logged.lines_bind, Logged.value_pure, Logged.lines_pure,
      List.mapIdx_cons, List.map_cons, List.flatMap_cons, hclient, hvalue, hlines]
    simp [callCount]

/-- Every request is answered in one of the three ways. In a session the `k`-th request that makes a
call, and no other, has the `k`-th client, and the lines of the log stand in the order of the
requests. -/
theorem session_turns :
    (∀ r, Turn r fun client => respond client r) ∧
      ∀ (clients : Nat → Service.Client) (requests : List Http.Request),
        let turns := requests.mapIdx fun i r => respond (clients (callCount (requests.take i))) r
        (session clients 0 requests).value = turns.map (·.value) ∧
          (session clients 0 requests).lines = turns.flatMap (·.lines) := by
  refine ⟨turn_respond, fun clients requests => ?_⟩
  simpa only [Nat.zero_add] using session_eq clients requests 0

/-- Of two requests to parse, only the one that is announced as JSON makes a call. -/
example :
    let body := Utf8.ofString "\x7b\"content\":\"\",\"language\":\"go\"\x7d"
    callCount [⟨"POST", "/parse?x", [("content-type", "application/json")], body⟩,
      ⟨"POST", "/parse", [], body⟩] = 1 := by
  decide +kernel

end Gateway

end SyntaxGateway
