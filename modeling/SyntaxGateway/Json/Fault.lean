import SyntaxGateway.Text.Quoted
import SyntaxGateway.Text.Utf8

/-!
# Faults of JSON texts

What can be wrong with a text that should be JSON of some shape, and where. A fault keeps the bytes
behind its place; line and column are worked out from them when the message is written. The text
itself may be wrong, or it may be JSON of another shape than the one asked for.
-/

namespace SyntaxGateway.Json

/-- What stands where something else was expected. -/
inductive Found where
  | null
  | boolean (b : Bool)
  | integer (n : Int)
  | float (text : String)
  | string (s : String)
  | sequence
  | map
deriving DecidableEq, Repr

def Found.text : Found → String
  | .null => "null"
  | .boolean b => s!"boolean `{b}`"
  | .integer n => s!"integer `{n}`"
  | .float text => s!"floating point `{text}`"
  | .string s => "string " ++ Text.quoted s
  | .sequence => "sequence"
  | .map => "map"

inductive Problem where
  | endInValue
  | endInObject
  | endInList
  | endInString
  | keyNotString
  | expectedColon
  | expectedCommaOrBrace
  | expectedCommaOrBracket
  | expectedValue
  | expectedIdent
  | trailingComma
  | trailingCharacters
  | invalidNumber
  | numberOutOfRange
  | invalidEscape
  | loneSurrogate
  | unexpectedEndOfEscape
  | controlCharacter
  | invalidCodePoint
  /-- More arrays and objects inside each other than a reader follows. -/
  | tooNested
  | wrongType (found : Found) (expected : String)
  | wrongInteger (n : Int) (expected : String)
  | wrongLength (length : Nat) (record : String) (fields : Nat)
  | missingField (name : String)
  | duplicateField (name : String)
  | unknownVariant (name : String) (known : List String)
deriving DecidableEq, Repr

namespace Problem

/-- The text is JSON so far, but not of the shape asked for. -/
def isShape : Problem → Bool
  | wrongType .. | wrongInteger .. | wrongLength .. | missingField _ | duplicateField _
  | unknownVariant .. => true
  | _ => false

def message : Problem → String
  | endInValue => "EOF while parsing a value"
  | endInObject => "EOF while parsing an object"
  | endInList => "EOF while parsing a list"
  | endInString => "EOF while parsing a string"
  | keyNotString => "key must be a string"
  | expectedColon => "expected `:`"
  | expectedCommaOrBrace => "expected `,` or `\x7d`"
  | expectedCommaOrBracket => "expected `,` or `]`"
  | expectedValue => "expected value"
  | expectedIdent => "expected ident"
  | trailingComma => "trailing comma"
  | trailingCharacters => "trailing characters"
  | invalidNumber => "invalid number"
  | numberOutOfRange => "number out of range"
  | invalidEscape => "invalid escape"
  | loneSurrogate => "lone leading surrogate in hex escape"
  | unexpectedEndOfEscape => "unexpected end of hex escape"
  | controlCharacter => "control character (\\u0000-\\u001F) found while parsing a string"
  | invalidCodePoint => "invalid unicode code point"
  | tooNested => "recursion limit exceeded"
  | wrongType found expected => s!"invalid type: {found.text}, expected {expected}"
  | wrongInteger n expected => s!"invalid value: integer `{n}`, expected {expected}"
  | wrongLength length record fields =>
    s!"invalid length {length}, expected struct {record} with {fields} elements"
  | missingField name => s!"missing field `{name}`"
  | duplicateField name => s!"duplicate field `{name}`"
  | unknownVariant name known =>
    let list := ", ".intercalate (known.map fun k => s!"`{k}`")
    s!"unknown variant `{name}`, expected one of {list}"

end Problem

/-- One step from a record to a value inside it. -/
inductive PathStep where
  | field (name : String)
  | element (index : Nat)
deriving DecidableEq, Repr

/-- The steps as text, with dots in front of the names that follow another step. -/
def pathText : List PathStep → String
  | [] => ""
  | .field name :: rest => name ++ tailText rest
  | .element i :: rest => s!"[{i}]" ++ tailText rest
where
  tailText : List PathStep → String
    | [] => ""
    | .field name :: rest => "." ++ name ++ tailText rest
    | .element i :: rest => s!"[{i}]" ++ tailText rest

/-- A problem, the bytes behind its place, and the steps to the value that has it. -/
structure Fault where
  problem : Problem
  rest : Bytes
  path : List PathStep

namespace Fault

/-- Line and column of a fault of `text`: the line counts from 1, the column is the number of bytes
of that line in front of the place. -/
def place (f : Fault) (text : Bytes) : Nat × Nat :=
  let before := text.take (text.length - f.rest.length)
  (1 + before.count 0x0A, (before.reverse.takeWhile (· ≠ 0x0A)).length)

/-- The problem of a fault of `text` with its place. -/
def message (f : Fault) (text : Bytes) : String :=
  let (line, column) := f.place text
  s!"{f.problem.message} at line {line} column {column}"

/-- The message with the path to the value in front, if there is one. -/
def messageWithPath (f : Fault) (text : Bytes) : String :=
  match f.path with
  | [] => f.message text
  | path => pathText path ++ ": " ++ f.message text

end Fault

end SyntaxGateway.Json
