import SyntaxGateway.Query.Basic
import SyntaxGateway.Text.Blank
import SyntaxGateway.Text.Utf8

/-!
# Reading path queries

    query     = W step (W step)* W
    step      = ('//' | '/') W test (W predicate)*
    test      = '*' | name
    predicate = '[' W '@' name W ('=' W literal W)? ']'
    literal   = a run between single or double quotes, without that quote
    name      = a letter or '_', then letters, digits, '_', '.', ':' and '-'

`W` is any run of blanks; letters and digits are those of ASCII. Each reader takes the characters
in front of it and returns the characters after what it read. A fault keeps the characters from the
offending place on, from which `parse` works out a byte offset.
-/

namespace SyntaxGateway.Query

/-! ## Faults -/

/-- What a query lacks at some place. -/
inductive Expected where
  | slash
  | test
  | attribute
  | attributeName
  | literal
  | closing
deriving DecidableEq, Repr

def Expected.text : Expected → String
  | .slash => "'/'"
  | .test => "a node type or '*'"
  | .attribute => "'@' attribute"
  | .attributeName => "an attribute name"
  | .literal => "a quoted string"
  | .closing => "']'"

/-- What is wrong with a query. -/
inductive Problem where
  | empty
  /-- Something else stands at the place, or the query ends there. -/
  | expected (what : Expected) (found : Option Char)
  /-- The closing quote is missing; the place is the opening quote. -/
  | openLiteral
deriving DecidableEq, Repr

def Problem.message : Problem → String
  | .empty => "empty query"
  | .expected what (some c) => s!"expected {what.text} but found '{c}'"
  | .expected what none => s!"expected {what.text} but the query ended"
  | .openLiteral => "unterminated string literal"

/-- A problem with the characters from its place to the end of the query. -/
structure Stuck where
  problem : Problem
  rest : List Char

/-- A problem with its place, in bytes from the start of the query. -/
structure Fault where
  position : Nat
  problem : Problem
deriving DecidableEq, Repr

def Fault.message (f : Fault) : String := s!"{f.problem.message} at offset {f.position}"

/-- `what` is missing in front of `rest`. -/
def missing {α : Type} (what : Expected) (rest : List Char) : Except Stuck α :=
  .error ⟨.expected what rest.head?, rest⟩

/-! ## Tokens -/

def isNameStart (c : Char) : Bool := c.isAlpha || c = '_'

def isNameChar (c : Char) : Bool :=
  c.isAlphanum || c = '_' || c = '.' || c = ':' || c = '-'

/-- The name in front, if there is one, and what follows it. -/
def name? : List Char → Option (String × List Char)
  | [] => none
  | c :: rest =>
    if isNameStart c then
      some (String.ofList (c :: rest.takeWhile isNameChar), rest.dropWhile isNameChar)
    else none

/-- The literal in front and what follows it. -/
def literal (input : List Char) : Except Stuck (String × List Char) :=
  match input with
  | [] => missing .literal input
  | q :: rest =>
    if q = '\'' || q = '"' then
      match rest.dropWhile (· ≠ q) with
      | [] => .error ⟨.openLiteral, input⟩
      | _ :: after => .ok (String.ofList (rest.takeWhile (· ≠ q)), after)
    else missing .literal input

/-! ## Steps -/

/-- What follows a predicate's `]`, with the predicate. -/
def closing (p : Predicate) (input : List Char) : Except Stuck (Predicate × List Char) :=
  match Text.trimStart input with
  | ']' :: rest => .ok (p, rest)
  | rest => missing .closing rest

/-- A predicate after its `[`. -/
def predicate (input : List Char) : Except Stuck (Predicate × List Char) :=
  match Text.trimStart input with
  | '@' :: rest =>
    match name? rest with
    | none => missing .attributeName rest
    | some (name, rest) =>
      match Text.trimStart rest with
      | '=' :: rest => do
        let (value, rest) ← literal (Text.trimStart rest)
        closing (.equals name value) rest
      | rest => closing (.has name) rest
  | rest => missing .attribute rest

/-- Predicates in a row, after the predicates `before` (latest first). One character of the input
goes to each, so `fuel` is never used up when it exceeds the input's length. -/
def predicatesFrom (before : List Predicate) :
    (fuel : Nat) → List Char → Except Stuck (List Predicate × List Char)
  | 0, input => .ok (before.reverse, input)
  | fuel + 1, input =>
    match Text.trimStart input with
    | '[' :: rest => do
      let (p, rest) ← predicate rest
      predicatesFrom (p :: before) fuel rest
    | rest => .ok (before.reverse, rest)

def predicates (input : List Char) : Except Stuck (List Predicate × List Char) :=
  predicatesFrom [] (input.length + 1) input

def nodeTest (input : List Char) : Except Stuck (NodeTest × List Char) :=
  match input with
  | '*' :: rest => .ok (.any, rest)
  | _ =>
    match name? input with
    | some (name, rest) => .ok (.type name, rest)
    | none => missing .test input

/-- The axis in front: two slashes are one token. -/
def axis (input : List Char) : Except Stuck (Axis × List Char) :=
  match input with
  | '/' :: '/' :: rest => .ok (.descendant, rest)
  | '/' :: rest => .ok (.child, rest)
  | _ => missing .slash input

/-- A step, and what follows it and the blanks after it. -/
def step (input : List Char) : Except Stuck (Step × List Char) := do
  let (axis, rest) ← axis input
  let (test, rest) ← nodeTest (Text.trimStart rest)
  let (predicates, rest) ← predicates rest
  return (⟨axis, test, predicates⟩, rest)

/-- Steps up to the end of the query, after the steps `before` (latest first). One character of the
input goes to each, so `fuel` is never used up when it exceeds the input's length. -/
def stepsFrom (before : List Step) : (fuel : Nat) → List Char → Except Stuck (List Step)
  | 0, _ => .ok before.reverse
  | fuel + 1, input =>
    match input with
    | [] => .ok before.reverse
    | _ => do
      let (s, rest) ← step input
      stepsFrom (s :: before) fuel rest

/-- The steps of a query without blanks in front. -/
def stepsOf (input : List Char) : Except Stuck (List Step) :=
  match input with
  | [] => .error ⟨.empty, []⟩
  | _ => stepsFrom [] (input.length + 1) input

/-- The number of bytes that characters take. -/
def byteCount (cs : List Char) : Nat := cs.foldl (fun n c => n + c.utf8Size) 0

/-- The query that a text writes. An empty query is reported at its start, whatever blanks it has;
every other fault at the byte where the text stops being the beginning of a query. -/
def parse (text : String) : Except Fault Query :=
  match stepsOf (Text.trimStart text.toList) with
  | .ok steps => .ok ⟨steps⟩
  | .error ⟨.empty, _⟩ => .error ⟨0, .empty⟩
  | .error ⟨problem, rest⟩ => .error ⟨byteCount text.toList - byteCount rest, problem⟩

end SyntaxGateway.Query
