import SyntaxGateway.Query.Parser
import SyntaxGateway.Tree.Batch

/-!
# Failures

What can go wrong for a client of the gateway, what each failure is called, and who is at fault: the
client for all kinds but an unavailable service.
-/

namespace SyntaxGateway

/-! ## Kinds -/

inductive FailureKind where
  | badRequest
  | invalidMode
  | languageUnresolved
  | decodeError
  | queryError
  | sourceError
  | serviceUnavailable
deriving DecidableEq, Repr

namespace FailureKind

def all : List FailureKind :=
  [.badRequest, .invalidMode, .languageUnresolved, .decodeError, .queryError, .sourceError,
    .serviceUnavailable]

/-- The kind as clients read it. -/
def text : FailureKind → String
  | .badRequest => "bad_request"
  | .invalidMode => "invalid_mode"
  | .languageUnresolved => "language_unresolved"
  | .decodeError => "decode_error"
  | .queryError => "query_error"
  | .sourceError => "upstream_parse_error"
  | .serviceUnavailable => "upstream_unavailable"

/-- The kind as the log writes it. -/
def logText : FailureKind → String
  | .badRequest => "BadRequest"
  | .invalidMode => "InvalidMode"
  | .languageUnresolved => "LanguageUnresolved"
  | .decodeError => "DecodeError"
  | .queryError => "QueryError"
  | .sourceError => "UpstreamParseError"
  | .serviceUnavailable => "UpstreamUnavailable"

/-- The client's input, rather than the link to the service, is at fault. -/
def isClientError (k : FailureKind) : Bool := k ≠ .serviceUnavailable

end FailureKind

/-! ## Failures -/

inductive Failure where
  /-- The request cannot be read. -/
  | badRequest (detail : String)
  | invalidMode (mode : String)
  | languageUnresolved
  /-- A batch of trees cannot be decoded. -/
  | decode (detail : String)
  /-- A query cannot be read; the position counts bytes. -/
  | query (position : Nat) (detail : String)
  /-- The service found these errors in the source. -/
  | source (errors : List String)
  /-- Anything wrong with the service or the link to it. -/
  | unavailable (detail : String)
deriving DecidableEq, Repr

namespace Failure

def ofBatch (fault : BatchFault) : Failure := .decode fault.message

def ofQuery (fault : Query.Fault) : Failure := .query fault.position fault.problem.message

def kind : Failure → FailureKind
  | .badRequest _ => .badRequest
  | .invalidMode _ => .invalidMode
  | .languageUnresolved => .languageUnresolved
  | .decode _ => .decodeError
  | .query _ _ => .queryError
  | .source _ => .sourceError
  | .unavailable _ => .serviceUnavailable

def message : Failure → String
  | .badRequest detail => s!"Malformed request: {detail}"
  | .invalidMode mode =>
    s!"Invalid mode '{mode}': expected one of \"\", native, annotated, semantic"
  | .languageUnresolved => "Could not determine the language of the content"
  | .decode detail => decodeErrorMessage detail
  | .query position detail => s!"Query error: {detail} at offset {position}"
  | .source errors =>
    let list := "; ".intercalate errors
    s!"Syntax error in source: {list}"
  | .unavailable detail => s!"UAST service unavailable: {detail}"

/-- What to report: each error of the source on its own, any other failure as one message. -/
def messages : Failure → List String
  | .source (e :: rest) => e :: rest
  | f => [f.message]

end Failure

/-- A value, or the failure that stands in its way. -/
abbrev Outcome (α : Type) := Except Failure α

end SyntaxGateway
