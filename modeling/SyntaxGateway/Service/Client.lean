import SyntaxGateway.Http.Message
import SyntaxGateway.Http.Status
import SyntaxGateway.Service.Reply
import SyntaxGateway.Service.Request
import SyntaxGateway.Text.Quoted
import SyntaxGateway.Url.Parser

/-!
# The client over HTTP

A call is one exchange: the request as JSON to the service's address, and a reply or none. The
answer is the tree that the reply holds, the errors that it reports, or that the service is not
available; there is nothing else that a reply can bring about.
-/

namespace SyntaxGateway.Service

/-! ## The address -/

/-- Where to send sources, for a service at this base: slashes at its end do not count. -/
def parseUrl (base : String) : String :=
  String.ofList (base.toList.reverse.dropWhile (· = '/')).reverse ++ "/parse"

/-- What an address is good for. -/
inductive Address where
  | unreadable
  /-- A URL under which no service can be. -/
  | foreign (url : Url)
  | usable (url : Url)

/-- Characters that a URL takes in a host and a request does not. -/
def unsendable : List Char := ['"', Char.ofNat 0x60, '\x7b', '\x7d']

/-- Requests can be sent to the URL: it is one of HTTP, and its host can be written in a request. -/
def isUsable (url : Url) : Bool :=
  (url.scheme = "http" || url.scheme = "https") &&
    !(url.host.getD "").toList.any unsendable.contains

def Address.ofText (text : String) : Address :=
  match Url.parse? text with
  | none => .unreadable
  | some url => if isUsable url then .usable url else .foreign url

/-! ## Exchanges -/

/-- What comes of sending a request. -/
inductive Delivery where
  /-- No connection, or none that lasted until a reply. -/
  | failed
  | reply (status : Nat) (body : Bytes)

/-- Whatever sends requests to a URL. -/
abbrev Transport := Url → Http.Request → Delivery

/-- The request that a call sends. -/
def Request.http (r : Request) (url : Url) : Http.Request :=
  ⟨"POST", url.target, [("content-type", "application/json")], Utf8.ofString r.toJson⟩

/-! ## Replies -/

/-- The answer of a reply to a call. -/
def Reply.answer (call : Request) (r : Reply) : Logged Answer :=
  match r.state with
  | .ok =>
    match r.tree with
    | none => pure (.error (.unavailable "reply is missing the tree"))
    | some text =>
      match Base64.decode (Utf8.ofString text) with
      | .error fault =>
        pure (.error (.unavailable s!"reply tree is not base64: {fault.message}"))
      | .ok bytes => do
        let language := r.language.getD call.language
        Logged.log .debug s!"Parsed as {language} ({bytes.length} tree bytes)"
        return .ok bytes
  | .error =>
    pure (.error (.source
      (if r.errors.isEmpty then ["the source could not be parsed"] else r.errors)))
  | .fatal =>
    pure (.error (.unavailable
      (if r.errors.isEmpty then "driver failed" else "; ".intercalate r.errors)))

/-- The answer of what came of sending a call to `url`. -/
def Delivery.answer (url : Url) (call : Request) : Delivery → Logged Answer
  | .failed => pure (.error (.unavailable s!"error sending request for url ({url.text})"))
  | .reply status body =>
    if !Http.isSuccess status then
      pure (.error (.unavailable s!"UAST service replied {Http.statusText status}"))
    else
      match Reply.ofJson body with
      | .error _ =>
        pure (.error (.unavailable "malformed reply: error decoding response body"))
      | .ok r => r.answer call

/-! ## Calls -/

/-- The client of the service at `base` that sends requests by `transport`. -/
def client (base : String) (transport : Transport) : Client := fun call => do
  let target := parseUrl base
  Logged.log .debug <|
    s!"POST {target} (language: {call.language}, mode: {Text.quoted call.mode.text}, " ++
      s!"{call.content.utf8ByteSize} bytes)"
  match Address.ofText target with
  | .unreadable => return .error (.unavailable "builder error")
  | .foreign url => return .error (.unavailable s!"builder error for url ({url.text})")
  | .usable url => (transport url (call.http url)).answer url call

end SyntaxGateway.Service
