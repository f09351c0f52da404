import SyntaxGateway.Failure
import SyntaxGateway.Json.Writer
import SyntaxGateway.Log
import SyntaxGateway.Service.Mode

/-!
# Calls of the syntax service

What the service is asked, and what a client of it may answer: the bytes of an encoded tree, the
errors in the source, or that the service is of no use at the moment. A client answers each call
once and never reports a failure of another kind.
-/

namespace SyntaxGateway

namespace Service

/-- A source to parse. -/
structure Request where
  content : String
  /-- The name of the file, or nothing. -/
  fileName : String
  /-- The name under which the service knows the language. -/
  language : String
  mode : Mode
deriving DecidableEq, Repr

def Request.toJson (r : Request) : String :=
  Json.object
    [("content", Json.quote r.content), ("filename", Json.quote r.fileName),
      ("language", Json.quote r.language), ("mode", Json.quote r.mode.text)]

/-- Why a call brings no tree. -/
inductive Trouble where
  /-- The service found these errors in the source. -/
  | source (errors : List String)
  /-- Anything wrong with the service or the link to it. -/
  | unavailable (detail : String)
deriving DecidableEq, Repr

/-- The answer to one call: an encoded tree, not yet decoded, or what stands in its way. -/
abbrev Answer := Except Trouble Bytes

/-- Whatever answers calls of the service. -/
abbrev Client := Request → Logged Answer

end Service

def Failure.ofService : Service.Trouble → Failure
  | .source errors => .source errors
  | .unavailable detail => .unavailable detail

end SyntaxGateway
