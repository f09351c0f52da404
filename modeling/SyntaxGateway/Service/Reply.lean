import SyntaxGateway.Base64
import SyntaxGateway.Json.Shape

/-!
# Replies of the syntax service

The body of a reply says how the parse went. Only the state must be there; fields that nobody knows
are skipped.
-/

namespace SyntaxGateway.Service

open Json (RecordField)

/-- How a parse went. -/
inductive ReplyState where
  | ok
  /-- The source has errors. -/
  | error
  /-- The parser of the language failed. -/
  | fatal
deriving DecidableEq, Repr

def ReplyState.text : ReplyState → String
  | .ok => "ok"
  | .error => "error"
  | .fatal => "fatal"

def ReplyState.scan (depth : Nat) : Json.Scan ReplyState :=
  Json.variant depth ([ReplyState.ok, .error, .fatal].map fun s => (s.text, s))

structure Reply where
  state : ReplyState
  errors : List String
  language : Option String
  /-- An encoded tree in base64. -/
  tree : Option String
deriving DecidableEq, Repr

namespace Reply

def fields (depth : Nat) : List (RecordField Reply) :=
  [.ofScan "status" .nowhere (ReplyState.scan depth) fun state r => { r with state := state },
    .ofScan "errors" .anywhere (Json.list depth Json.string) fun errors r =>
      { r with errors := errors },
    .ofScan "language" .anywhere (Json.nullable Json.string) fun language r =>
      { r with language := language },
    .ofScan "uast" .anywhere (Json.nullable Json.string) fun tree r => { r with tree := tree }]

def scan (depth : Nat) : Json.Scan Reply :=
  Json.record depth "UastReply" (fields (depth - 1)) ⟨.ok, [], none, none⟩

/-- The reply that a body holds, if it is JSON of that shape. -/
def ofJson (body : Bytes) : Except Json.Fault Reply := Json.whole (scan Json.maxNesting) body

end Reply

end SyntaxGateway.Service
