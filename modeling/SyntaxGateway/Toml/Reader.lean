import SyntaxGateway.Toml.Scalar
import SyntaxGateway.Toml.Table

/-!
# Reading TOML

A document is a list of lines: keys with values, and headers that say which table the keys behind
them belong to. Reading goes in two steps, from text to lines and from lines to tables. Where a text
is no document there is no answer; what is wrong with it is not said.
-/

namespace SyntaxGateway.Toml

/-! ## Blanks and comments -/

def skipBlanks (input : List Char) : List Char := input.dropWhile isBlank

/-- What follows a comment behind its sign, up to the line break. -/
def comment? (input : List Char) : Option (List Char) :=
  if (input.takeWhile (· ≠ '\n')).any isControl then none else some (input.dropWhile (· ≠ '\n'))

theorem length_comment {input rest : List Char} (h : comment? input = some rest) :
    rest.length ≤ input.length := by
  simp only [comment?] at h
  split at h
  · simp at h
  · simp only [Option.some.injEq] at h
    exact h ▸ length_dropWhile_le _ _

/-- Skips blanks, line breaks and comments. -/
def skipLines (input : List Char) : Option (List Char) :=
  match input with
  | [] => some []
  | c :: rest =>
    if isBlank c || c = '\n' then skipLines rest
    else if c = '#' then
      match _h : comment? rest with
      | some rest => skipLines rest
      | none => none
    else some (c :: rest)
termination_by input.length
decreasing_by
  · simp
  · have := length_comment _h; simp only [List.length_cons]; omega

/-- What follows the end of a line, which may have a comment. -/
def endOfLine? (input : List Char) : Option (List Char) := do
  let rest ← match skipBlanks input with
    | '#' :: rest => comment? rest
    | rest => some rest
  match rest with
  | [] => some []
  | '\n' :: rest => some rest
  | _ => none

/-! ## Keys -/

/-- A character of a key without quotes. -/
def isKeyChar (c : Char) : Bool := c.isAlphanum || c = '_' || c = '-'

/-- One part of a key. -/
def keyPart : Scan (List Char) := fun input =>
  match input.takeWhile isKeyChar with
  | [] => lineString input
  | part => some (part, input.dropWhile isKeyChar)

/-- The arrays, inline tables and parts of a key that may be inside each other. -/
def maxNesting : Nat := 79

/-- A key with up to `count` parts, with dots between them. -/
def keyUpTo : (count : Nat) → Scan (List (List Char))
  | 0, _ => none
  | count + 1, input => do
    let (part, rest) ← keyPart (skipBlanks input)
    match skipBlanks rest with
    | '.' :: rest => do
      let (parts, rest) ← keyUpTo count rest
      return (part :: parts, rest)
    | rest => some ([part], rest)

/-- A key and the blanks around it. -/
def key : Scan (List (List Char)) := keyUpTo maxNesting

/-! ## Values -/

/-- The value that a word writes. -/
def wordValue? (word : List Char) : Option Value :=
  if word = "true".toList then some (.boolean true)
  else if word = "false".toList then some (.boolean false)
  else
    match integer? word with
    | some n => some (.integer n)
    | none =>
      if isFloat word then some .float
      else if isMoment word then some .moment
      else none

/-- Reads the values of an array up to its closing bracket, after the values `before` (latest
first). Each takes a character or more. -/
def itemsFrom (item : Scan Value) : (fuel : Nat) → (before : List Value) → Scan Value
  | 0, _, _ => none
  | fuel + 1, before, input => do
    match ← skipLines input with
    | ']' :: rest => some (.array before.reverse, rest)
    | input => do
      let (v, rest) ← item input
      match ← skipLines rest with
      | ',' :: rest => itemsFrom item fuel (v :: before) rest
      | ']' :: rest => some (.array (v :: before).reverse, rest)
      | _ => none

/-- A key with its value. -/
def keyValue (value : Scan Value) : Scan (List (List Char) × Value) := fun input => do
  match ← key input with
  | (path, '=' :: rest) => do
    let (v, rest) ← value (skipBlanks rest)
    return ((path, v), rest)
  | _ => none

/-- Reads the keys of an inline table up to its closing brace into a table. Each takes a character
or more. -/
def membersFrom (value : Scan Value) : (fuel : Nat) → Table → Scan Value
  | 0, _, _ => none
  | fuel + 1, t, input => do
    let ((path, v), rest) ← keyValue value input
    let t ← t.assign path v
    match skipBlanks rest with
    | ',' :: rest => membersFrom value fuel t rest
    | '}' :: rest => some (.table .inline t.entries, rest)
    | _ => none

/-- A value whose items are read by `item`. -/
def valueWith (item : Scan Value) : Scan Value := fun input =>
  match input with
  | [] => none
  | c :: rest =>
    if c = '"' || c = apostrophe then (string input).map fun (text, rest) => (.string text, rest)
    else if c = '[' then itemsFrom item (rest.length + 1) [] rest
    else if c = '{' then
      match skipBlanks rest with
      | '}' :: rest => some (.table .inline [], rest)
      | rest => membersFrom item (rest.length + 1) .empty rest
    else
      let (word, rest) := word input
      (wordValue? word).map (·, rest)

/-- A value with at most `depth` levels of arrays and inline tables inside each other. -/
def value : (depth : Nat) → Scan Value
  | 0 => fun input =>
    match input with
    | '[' :: _ | '{' :: _ => none
    | _ => valueWith (fun _ => none) input
  | depth + 1 => valueWith (value depth)

/-! ## Lines -/

/-- What a line says. -/
inductive Line where
  | assign (path : List (List Char)) (value : Value)
  | header (path : List (List Char))
  | nextHeader (path : List (List Char))

/-- A line that says something. -/
def line : Scan Line := fun input =>
  match input with
  | '[' :: '[' :: rest => do
    match ← key rest with
    | (path, ']' :: ']' :: rest) => some (.nextHeader path, rest)
    | _ => none
  | '[' :: rest => do
    match ← key rest with
    | (path, ']' :: rest) => some (.header path, rest)
    | _ => none
  | _ => (keyValue (value maxNesting) input).map fun ((path, v), rest) => (.assign path v, rest)

/-- The lines of a text that say something, each of which takes a character or more. -/
def linesFrom : (fuel : Nat) → List Char → Option (List Line)
  | 0, _ => none
  | fuel + 1, input =>
    match skipBlanks input with
    | [] => some []
    | c :: rest =>
      if c = '\n' || c = '#' then do linesFrom fuel (← endOfLine? (c :: rest))
      else do
        let (l, rest) ← line (c :: rest)
        return l :: (← linesFrom fuel (← endOfLine? rest))

/-- Line breaks as single line feeds. -/
def singleBreaks : List Char → List Char
  | '\r' :: '\n' :: rest => '\n' :: singleBreaks rest
  | c :: rest => c :: singleBreaks rest
  | [] => []

/-- The lines of a document, which may start with a byte-order mark. -/
def lines? (text : List Char) : Option (List Line) :=
  let text := match text with
    | c :: rest => if c.toNat = 0xFEFF then rest else text
    | [] => []
  let text := singleBreaks text
  linesFrom (text.length + 1) text

/-! ## Documents -/

/-- What a line does to a document, and to the path of the header that counts. -/
def Line.apply (l : Line) (t : Table) (current : List (List Char)) :
    Option (Table × List (List Char)) :=
  match l with
  | .assign path v => (t.within false (·.assign path v) current).map (·, current)
  | .header path => (t.openTable path).map (·, path)
  | .nextHeader path => (t.openNext path).map (·, path)

/-- The table that lines write. -/
def tableOf? (lines : List Line) : Option Table := do
  let (t, _) ← lines.foldlM (fun (t, current) l => l.apply t current) (Table.empty, [])
  return t

/-- The table that a text writes. -/
def read? (text : List Char) : Option Table := do tableOf? (← lines? text)

end SyntaxGateway.Toml
