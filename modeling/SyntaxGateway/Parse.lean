import SyntaxGateway.Language.Detection
import SyntaxGateway.Query.Index
import SyntaxGateway.Query.Parser
import SyntaxGateway.Service.Request
import SyntaxGateway.Text.Blank

/-!
# Parsing a source

A request is checked in three steps, each of which may end it: its mode, its filter, its language.
What passes is sent to the syntax service once. The tree that comes back is the answer, or the
matches of the filter in it.
-/

namespace SyntaxGateway

/-- A source to parse, with what the sender wants to say about it. -/
structure ParseRequest where
  content : String
  fileName : Option String
  language : Option String
  mode : Option String
  filter : Option String
deriving DecidableEq, Repr

/-- A request that passed all checks: the call to make, and the query for the tree. -/
structure ParsePlan where
  call : Service.Request
  query : Option Query

/-- The answer to a request, and the calls of the service that it took. -/
structure ParseResult where
  outcome : Outcome (List Node)
  calls : List Service.Request

namespace ParseRequest

/-! ## Checks -/

/-- The query of the filter, if there is more to it than blanks. -/
def query? (r : ParseRequest) : Outcome (Option Query) :=
  let text := (r.filter.map Text.trim).getD ""
  if text = "" then .ok none
  else
    match Query.parse text with
    | .ok q => .ok (some q)
    | .error fault => .error (.ofQuery fault)

/-- The language as the service knows it. One that is named goes out under its entry in the table,
or as it stands if it has none; otherwise the content and the name of the file decide. -/
def resolveLanguage (r : ParseRequest) : Logged (Outcome String) := do
  let named := (r.language.map Text.trim).getD ""
  if named ≠ "" then
    return .ok ((Language.find? named).elim named (·.serviceId))
  match ← Language.detectEntry r.content r.fileName with
  | none => return .error .languageUnresolved
  | some entry =>
    Logged.log .debug s!"Resolved language {entry.name} by detection"
    return .ok entry.serviceId

/-- Checks the mode, then the filter, then the language. -/
def plan (r : ParseRequest) : Logged (Outcome ParsePlan) := do
  match Mode.parse (r.mode.getD "") with
  | .error f => return .error f
  | .ok mode =>
    match r.query? with
    | .error f => return .error f
    | .ok query =>
      match ← r.resolveLanguage with
      | .error f => return .error f
      | .ok language =>
        return .ok ⟨⟨r.content, r.fileName.getD "", language, mode⟩, query⟩

/-! ## The call -/

/-- What is reported of an answer of the service: a tree that cannot be read is the service's
fault. -/
def nodesOf (query : Option Query) : Service.Answer → Outcome (List Node)
  | .error trouble => .error (.ofService trouble)
  | .ok bytes =>
    match Node.decode bytes with
    | .error fault =>
      let detail := decodeErrorMessage fault.message
      .error (.unavailable s!"service returned an unreadable tree: {detail}")
    | .ok root => .ok (query.elim [root] (·.evaluate root))

/-- Answers a request with the help of a client, which is called when all checks have passed. -/
def run (client : Service.Client) (r : ParseRequest) : Logged ParseResult := do
  match ← r.plan with
  | .error f => return ⟨.error f, []⟩
  | .ok plan => return ⟨nodesOf plan.query (← client plan.call), [plan.call]⟩

end ParseRequest

end SyntaxGateway
