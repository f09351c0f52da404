import SyntaxGateway.Failure
import SyntaxGateway.Http.Message
import SyntaxGateway.Http.Status
import SyntaxGateway.Json.Writer
import SyntaxGateway.Log

/-!
# The envelope of responses

Every body that the gateway sends is an object with the status of the response, so that a client who
reads only the body can tell success from failure, and either data or a list of errors.
-/

namespace SyntaxGateway

/-- One reported failure. -/
structure ErrorItem where
  message : String
  kind : FailureKind
deriving DecidableEq, Repr

def ErrorItem.toJson (e : ErrorItem) : String :=
  Json.object [("message", Json.quote e.message), ("kind", Json.quote e.kind.text)]

structure Envelope (α : Type) where
  status : Nat
  data : Option α
  errors : Option (List ErrorItem)
deriving DecidableEq, Repr

/-- The status that reports a kind: only the link to the service is not the client's fault. -/
def FailureKind.status (k : FailureKind) : Nat := if k.isClientError then 400 else 502

namespace Envelope

variable {α : Type}

def success (status : Nat) (data : α) : Envelope α := ⟨status, some data, none⟩

def ok (data : α) : Envelope α := success 200 data

def failure (status : Nat) (errors : List ErrorItem) : Envelope α := ⟨status, none, some errors⟩

/-- Reports each message of a failure under its kind. -/
def ofFailure (f : Failure) : Envelope α :=
  failure f.kind.status (f.messages.map fun message => ⟨message, f.kind⟩)

/-- The JSON text of an envelope whose data is written by `write`. What is missing is left out. -/
def toJson (write : α → String) (e : Envelope α) : String :=
  Json.object <|
    [("status", toString e.status)] ++
      (e.data.map fun d => ("data", write d)).toList ++
      (e.errors.map fun items => ("errors", Json.array (items.map (·.toJson)))).toList

/-- The response with an envelope as its body. A status that no status line can hold is answered as
a fault of the gateway. -/
def response (write : α → String) (e : Envelope α) : Http.Response where
  status := if Http.isStatus e.status then e.status else 500
  headers := [("content-type", "application/json")]
  body := e.toJson write

end Envelope

/-- Logs a failure that is about to be reported, and puts it into an envelope. -/
def Failure.report {α : Type} (f : Failure) : Logged (Envelope α) := do
  if f.kind.isClientError then
    Logged.log .warn s!"Rejected request ({f.kind.logText}): {f.message}"
  else Logged.log .error s!"Upstream failure: {f.message}"
  return .ofFailure f

end SyntaxGateway
