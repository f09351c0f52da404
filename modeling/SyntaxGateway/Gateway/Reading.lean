import SyntaxGateway.Gateway.Envelope
import SyntaxGateway.Json.Shape

/-!
# Envelopes from JSON
-/

namespace SyntaxGateway

open Json (RecordField)

/-- Reads the kind that clients see. -/
def FailureKind.scan (depth : Nat) : Json.Scan FailureKind :=
  Json.variant depth (FailureKind.all.map fun k => (k.text, k))

namespace ErrorItem

def fields (depth : Nat) : List (RecordField ErrorItem) :=
  [.ofScan "message" .nowhere Json.string fun message e => { e with message := message },
    .ofScan "kind" .nowhere (FailureKind.scan depth) fun kind e => { e with kind := kind }]

def scan (depth : Nat) : Json.Scan ErrorItem :=
  Json.record depth "ErrorItem" (fields (depth - 1)) ⟨"", .badRequest⟩

end ErrorItem

namespace Envelope

variable {α : Type}

/-- The fields of an envelope whose data is read by `data`. -/
def fields (depth : Nat) (data : Json.Scan α) : List (RecordField (Envelope α)) :=
  [.ofScan "status" .nowhere (Json.natural "u16" (Nat.pow 2 16)) fun status e =>
      { e with status := status },
    .ofScan "data" .anywhere (Json.nullable data) fun data e => { e with data := data },
    .ofScan "errors" .anywhere (Json.nullable (Json.list depth (ErrorItem.scan (depth - 1))))
      fun errors e => { e with errors := errors }]

/-- Reads an envelope; `data` reads its data with the depth that is left for it. -/
def scan (depth : Nat) (data : Nat → Json.Scan α) : Json.Scan (Envelope α) :=
  Json.record depth "Envelope" (fields (depth - 1) (data (depth - 1))) ⟨0, none, none⟩

end Envelope

end SyntaxGateway
