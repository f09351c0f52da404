import SyntaxGateway.Entries
import SyntaxGateway.Json.Shape
import SyntaxGateway.Json.Writer

/-!
# JSON values

Values of any shape, for data that is only passed on. The members of an object are kept in key
order.
-/

namespace SyntaxGateway.Json

inductive Value where
  | null
  | boolean (b : Bool)
  | number (n : Number)
  | string (s : String)
  | array (items : List Value)
  | object (members : List (String × Value))

def Number.text : Number → String
  | .integer n => toString n
  | .float text => text

namespace Value

/-! ## Writing -/

mutual

/-- The JSON text of a value. -/
def toJson : Value → String
  | null => "null"
  | boolean b => if b then "true" else "false"
  | number n => n.text
  | string s => quote s
  | array items => Json.array (toJsonItems items)
  | object members => Json.object (toJsonMembers members)

def toJsonItems : List Value → List String
  | [] => []
  | v :: rest => toJson v :: toJsonItems rest

def toJsonMembers : List (String × Value) → List (String × String)
  | [] => []
  | (key, v) :: rest => (key, toJson v) :: toJsonMembers rest

end

/-! ## Reading -/

/-- Reads a value whose items are read by `item`. -/
def scanWith (depth : Nat) (item : Scan Value) : Scan Value := fun input => do
  match skipBlanks input with
  | [] => fail .endInValue []
  | 0x5B :: rest =>
    let (items, rest) ← list depth item (0x5B :: rest)
    return (array items, rest)
  | 0x7B :: rest =>
    let (members, rest) ← dictionary depth item (0x7B :: rest)
    return (object (setEntries members), rest)
  | rest =>
    match ← found rest with
    | (.null, rest) => return (null, rest)
    | (.boolean b, rest) => return (boolean b, rest)
    | (.integer n, rest) => return (number (.integer n), rest)
    | (.float text, rest) => return (number (.float text), rest)
    | (.string s, rest) => return (string s, rest)
    | (.sequence, rest) | (.map, rest) => return (null, rest)

/-- Reads a value with at most `depth` levels. -/
def scan : (depth : Nat) → Scan Value
  | 0 => scanWith 0 fun input => failAt .tooNested input
  | depth + 1 => scanWith (depth + 1) (scan depth)

end Value

end SyntaxGateway.Json
