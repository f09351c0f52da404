import SyntaxGateway.Json.Writer
import SyntaxGateway.Tree.Basic

/-!
# Trees as JSON

The form in which clients receive trees: every field of a node, always in the same order.
-/

namespace SyntaxGateway

def Position.toJson (p : Position) : String :=
  Json.object
    [("offset", toString p.offset.toNat), ("line", toString p.line.toNat),
      ("col", toString p.col.toNat)]

def Properties.toJson (p : Properties) : String :=
  Json.object (p.entries.map fun e => (e.1, Json.quote e.2))

namespace Node

mutual

/-- The JSON text of a tree. -/
def toJson : Node → String
  | mk t k p cs s e rs =>
    Json.object
      [("internalType", Json.quote t), ("token", Json.quote k), ("properties", p.toJson),
        ("children", Json.array (toJsonAll cs)),
        ("startPosition", Json.optional (s.map (·.toJson))),
        ("endPosition", Json.optional (e.map (·.toJson))),
        ("roles", Json.array (rs.map Json.quote))]

/-- The JSON texts of the trees of a list. -/
def toJsonAll : List Node → List String
  | [] => []
  | c :: cs => toJson c :: toJsonAll cs

end

end Node

end SyntaxGateway
