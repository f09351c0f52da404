import SyntaxGateway.Gateway.Body
import SyntaxGateway.Gateway.Envelope
import SyntaxGateway.Gateway.Requests
import SyntaxGateway.Language.Table
import SyntaxGateway.Text.Quoted
import SyntaxGateway.Tree.Rendering

/-!
# Routes

Four routes, each with one method. What a route answers is an envelope; what no route answers has an
empty body. Pages of any origin may call the gateway, so every response carries the headers that
browsers ask for, and a browser's question about a route is answered without looking at it.
-/

namespace SyntaxGateway.Gateway

/-! ## Routes -/

inductive Route where
  /-- The known languages. -/
  | languages
  /-- The language of a source. -/
  | detect
  /-- The tree of a source, or the matches of a query in it. -/
  | parse
  /-- The matches of a query in a batch of trees. -/
  | filter
deriving DecidableEq, Repr

namespace Route

def all : List Route := [.languages, .detect, .parse, .filter]

def path : Route → String
  | .languages => "/get-languages"
  | .detect => "/detect-lang"
  | .parse => "/parse"
  | .filter => "/filter"

/-- The methods of a route. Where something can be read, its headers can be read alone. -/
def methods : Route → List String
  | .languages => ["GET", "HEAD"]
  | .detect | .parse | .filter => ["POST"]

/-- The route of a target: what follows a question mark does not count, and nothing is decoded. -/
def ofTarget? (target : String) : Option Route :=
  let path := String.ofList (target.toList.takeWhile fun c => c ≠ '?' && c ≠ '#')
  all.find? (·.path = path)

end Route

/-! ## What routes answer -/

/-- The envelope of a response, with its data as JSON, and the calls of the service that it took. -/
structure Result where
  envelope : Envelope String
  calls : List Service.Request

/-- Reports a failure behind the calls that it took. -/
def fail (f : Failure) (calls : List Service.Request) : Logged Result := do
  return ⟨← f.report, calls⟩

/-- Reports what there is to report of an outcome. -/
def conclude {α : Type} (write : α → String) (calls : List Service.Request) :
    Outcome α → Logged Result
  | .ok a => pure ⟨.ok (write a), calls⟩
  | .error f => fail f calls

def writeNodes (nodes : List Node) : String := Json.array (nodes.map (·.toJson))

def languages : Logged Result :=
  pure ⟨.ok (Json.array (Language.known.map (·.toJson))), []⟩

/-- The language of a source, if it can be determined. -/
def detect (r : DetectRequest) : Logged (Outcome DetectResponse) := do
  let language ← Language.detect r.content r.fileName
  if language.isUnknown then return .error .languageUnresolved
  let fileName := Text.quoted (r.fileName.getD "")
  Logged.log .info s!"Detected {language.name} ({language.category.text}) for {fileName}"
  return .ok (.ofLanguage language)

/-- Answers a request to a route. -/
def answer (client : Service.Client) (r : Http.Request) : Route → Logged Result
  | .languages => languages
  | .detect =>
    match r.accept DetectRequest.scan with
    | .error f => fail f []
    | .ok request => do conclude DetectResponse.toJson [] (← detect request)
  | .parse =>
    match r.accept ParseRequest.scan with
    | .error f => fail f []
    | .ok request => do
      let result ← request.run client
      conclude writeNodes result.calls result.outcome
  | .filter =>
    match r.accept FilterRequest.scan with
    | .error f => fail f []
    | .ok request => do conclude writeNodes [] (← request.run)

/-! ## Responses -/

/-- A response and the calls of the service that it took. -/
structure Exchange where
  response : Http.Response
  calls : List Service.Request

/-- What caches are told: a response depends on who asks. -/
def vary : String × String :=
  ("vary", "origin, access-control-request-method, access-control-request-headers")

/-- The header that says which methods a route has. -/
def allow (route : Option Route) : List (String × String) :=
  (route.map fun route => ("allow", ",".intercalate route.methods)).toList

/-- The answer to a browser that asks what it may send. -/
def preflight (route : Option Route) : Http.Response where
  status := 200
  headers :=
    [("access-control-allow-headers", "*"), ("access-control-allow-methods", "*"),
      ("access-control-allow-origin", "*")] ++ allow route ++ [vary]
  body := ""

/-- A response with the headers that every origin may read it. -/
def shared (r : Http.Response) : Http.Response where
  status := r.status
  headers :=
    [("access-control-allow-origin", "*"), ("access-control-expose-headers", "*")] ++ r.headers ++
      [vary]
  body := r.body

/-- The response to a request, with `client` for calls of the service. -/
def respond (client : Service.Client) (r : Http.Request) : Logged Exchange :=
  let route := Route.ofTarget? r.target
  if r.method = "OPTIONS" then pure ⟨preflight route, []⟩
  else
    match route with
    | none => pure ⟨shared ⟨404, [], ""⟩, []⟩
    | some route =>
      if route.methods.contains r.method then do
        let result ← answer client r route
        let response := result.envelope.response id
        let body := if r.method = "HEAD" then "" else response.body
        return ⟨shared { response with body := body }, result.calls⟩
      else pure ⟨shared ⟨405, allow (some route), ""⟩, []⟩

/-- Answers requests one after the other. The call with number `k` of the whole session is answered
by the client with that number; `made` calls were made before. -/
def session (clients : Nat → Service.Client) : (made : Nat) → List Http.Request →
    Logged (List Exchange)
  | _, [] => pure []
  | made, r :: rest => do
    let exchange ← respond (clients made) r
    return exchange :: (← session clients (made + exchange.calls.length) rest)

end SyntaxGateway.Gateway
