import SyntaxGateway.Json.Shape
import SyntaxGateway.Tree.Rendering

/-!
# Trees from JSON

The reader for the form in which trees are rendered. A node takes two levels of nesting, one for its
object and one for the array of its children.
-/

namespace SyntaxGateway

open Json (RecordField record)

namespace Position

/-- A number of a position. -/
def scanNumber : Json.Scan UInt32 := fun input => do
  let (n, rest) ← Json.natural "u32" (Nat.pow 2 32) input
  return (n.toUInt32, rest)

def fields : List (RecordField Position) :=
  [.ofScan "offset" .nowhere scanNumber fun n p => { p with offset := n },
    .ofScan "line" .nowhere scanNumber fun n p => { p with line := n },
    .ofScan "col" .nowhere scanNumber fun n p => { p with col := n }]

def scan (depth : Nat) : Json.Scan Position := record depth "Position" fields ⟨0, 0, 0⟩

end Position

namespace Node

/-- The fields of a node, with `depth` levels left inside it and its children read by `child`. -/
def fields (depth : Nat) (child : Json.Scan Node) : List (RecordField Node) :=
  [.ofScan "internalType" .nowhere Json.string fun t (.mk _ k p cs s e rs) => .mk t k p cs s e rs,
    .ofScan "token" .nowhere Json.string fun k (.mk t _ p cs s e rs) => .mk t k p cs s e rs,
    .ofScan "properties" .nowhere (Json.dictionary depth Json.string) fun p (.mk t k _ cs s e rs) =>
      .mk t k (.ofList p) cs s e rs,
    .ofScan "children" .nowhere (Json.list depth child) fun cs (.mk t k p _ s e rs) =>
      .mk t k p cs s e rs,
    .ofScan "startPosition" .inObjects (Json.nullable (Position.scan depth))
      fun s (.mk t k p cs _ e rs) => .mk t k p cs s e rs,
    .ofScan "endPosition" .inObjects (Json.nullable (Position.scan depth))
      fun e (.mk t k p cs s _ rs) => .mk t k p cs s e rs,
    .ofScan "roles" .nowhere (Json.list depth Json.string) fun rs (.mk t k p cs s e _) =>
      .mk t k p cs s e rs]

/-- Reads a tree with at most `depth` levels of nesting. -/
def scan : (depth : Nat) → Json.Scan Node
  | 0 => record 0 "Node" [] default
  | 1 => record 1 "Node" (fields 0 fun input => Json.failAt .tooNested input) default
  | depth + 2 => record (depth + 2) "Node" (fields (depth + 1) (scan depth)) default

/-- The tree that a JSON text writes. -/
def ofJson (text : Bytes) : Except Json.Fault Node := Json.whole (scan Json.maxNesting) text

end Node

end SyntaxGateway
