import SyntaxGateway.Failure
import SyntaxGateway.Http.MediaType
import SyntaxGateway.Http.Message
import SyntaxGateway.Json.Shape

/-!
# Accepting bodies

A body is accepted if it is announced as JSON, is not too long, and is JSON of the shape that the
route expects, checked in this order. Anything else is the client's fault.
-/

namespace SyntaxGateway

/-- Why a body is not accepted. -/
inductive BodyFault where
  | notJson
  | tooLong
  | malformed (text : Bytes) (fault : Json.Fault)

namespace BodyFault

def message : BodyFault → String
  | .notJson => "Expected request with `Content-Type: application/json`"
  | .tooLong => "Failed to buffer the request body: length limit exceeded"
  | .malformed text fault =>
    let detail := fault.messageWithPath text
    if fault.problem.isShape then
      s!"Failed to deserialize the JSON body into the target type: {detail}"
    else s!"Failed to parse the request body as JSON: {detail}"

end BodyFault

namespace Http.Request

/-- The value of the first header with this name, in small letters. -/
def header? (r : Request) (name : String) : Option String :=
  (r.headers.find? fun h => h.1.toLower = name).map (·.2)

/-- The longest body that is accepted. -/
def maxBodyBytes : Nat := 2097152

/-- The value that the body holds. -/
def read {α : Type} (scan : Nat → Json.Scan α) (r : Request) : Except BodyFault α :=
  if !((r.header? "content-type").elim false isJson) then .error .notJson
  else if maxBodyBytes < r.body.length then .error .tooLong
  else (Json.whole (scan Json.maxNesting) r.body).mapError (.malformed r.body)

/-- The value that the body holds, or the failure to report. -/
def accept {α : Type} (scan : Nat → Json.Scan α) (r : Request) : Outcome α :=
  (r.read scan).mapError fun fault => .badRequest fault.message

end Http.Request

end SyntaxGateway
