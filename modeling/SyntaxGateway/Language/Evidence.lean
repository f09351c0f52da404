import SyntaxGateway.Language.Table
import SyntaxGateway.Path
import SyntaxGateway.Text.Blank

/-!
# Evidence for a language

What the name of a file and the first line of its content say about the language. Each kind of
evidence gives the entries of the table that fit it.
-/

namespace SyntaxGateway.Language

/-! ## File names -/

/-- The small letter of a character, as far as it is one of ASCII: the capitals and the Kelvin sign
have one, and every other character keeps apart from the letters of ASCII. -/
def foldCase (c : Char) : Char := if c.toNat = 0x212A then 'k' else c.toLower

/-- The entries that list the exact name of the file. -/
def byFileName (path : List Char) : List Entry :=
  let name := String.ofList (Path.baseName path)
  table.filter (·.fileNames.contains name)

/-- The entries that list the extension of the file, in any case. -/
def byExtension (path : List Char) : List Entry :=
  match (Path.fileName? path).bind Path.extension? with
  | none => []
  | some extension =>
    let extension := String.ofList (extension.map foldCase)
    table.filter (·.extensions.contains extension)

/-! ## Interpreters -/

/-- What stands behind the last slash. -/
def lastPart (cs : List Char) : List Char := (cs.reverse.takeWhile (· ≠ '/')).reverse

/-- A word that follows `env` and is neither an option nor an assignment. -/
def isProgramWord (word : List Char) : Bool := word.head? ≠ some '-' && !word.contains '='

/-- The program that the first line names behind `#!`. Byte-order marks may stand in front; when the
program is `env`, its argument counts. -/
def interpreter? (content : List Char) : Option (List Char) :=
  match (content.dropWhile (·.toNat = 0xFEFF)).takeWhile (· ≠ '\n') with
  | '#' :: '!' :: line =>
    match Text.words line with
    | [] => none
    | program :: arguments =>
      if lastPart program = ['e', 'n', 'v'] then arguments.find? isProgramWord
      else some (lastPart program)
  | _ => none

/-- A program without the digits and dots at its end. -/
def withoutVersion (program : List Char) : List Char :=
  (program.reverse.dropWhile fun c => c.isDigit || c = '.').reverse

/-- The entries that list an interpreter. -/
def byInterpreter (program : List Char) : List Entry :=
  let program := String.ofList program
  table.filter (·.interpreters.contains program)

/-- The entries of the interpreter that the content names, or else of that interpreter without its
version. -/
def byShebang (content : List Char) : List Entry :=
  match interpreter? content with
  | none => []
  | some program =>
    match byInterpreter program with
    | [] => byInterpreter (withoutVersion program)
    | exact => exact

/-! ## Content -/

/-- The number of signatures of the entry that occur in the content. -/
def Entry.score (e : Entry) (content : List Char) : Nat :=
  e.signatures.countP (·.isIn content)

/-- The entry with the most signatures in the content, if it has some and no other has as many. -/
def byContent (content : List Char) (pool : List Entry) : Option Entry :=
  let scored := pool.map fun e => (e, e.score content)
  let best := (scored.map (·.2)).foldl max 0
  if best = 0 then none
  else
    match scored.filter (·.2 = best) with
    | [(e, _)] => some e
    | _ => none

end SyntaxGateway.Language
