import SyntaxGateway.Language.Evidence
import SyntaxGateway.Log

/-!
# Detecting a language

The kinds of evidence are asked in order of strength: the exact name of the file, the interpreter
that the first line names, the extension. The first one that says anything decides; when it names
several languages, or none says anything, the signatures in the content choose among them.
-/

namespace SyntaxGateway.Language

/-- The name of a file, if it is more than blanks. -/
def usableName (fileName : Option String) : Option (List Char) :=
  match fileName with
  | none => none
  | some name =>
    let name := (Text.trim name).toList
    if name = [] then none else some name

/-- The entries that the strongest evidence of file name and first line names. -/
def candidates (content : List Char) (fileName : Option (List Char)) : List Entry :=
  match fileName.elim [] byFileName with
  | [] =>
    match byShebang content with
    | [] => fileName.elim [] byExtension
    | found => found
  | found => found

/-- The entry of the content's language, if it can be determined. -/
def detectEntry (content : String) (fileName : Option String) : Logged (Option Entry) := do
  let content := content.toList
  match candidates content (usableName fileName) with
  | [only] =>
    Logged.log .debug s!"Detected {only.name} from filename evidence"
    return some only
  | found =>
    let pool := if found.isEmpty then table else found
    let detected := byContent content pool
    let outcome := detected.elim "None" fun e => s!"Some(\"{e.name}\")"
    Logged.log .debug s!"Content heuristics over {pool.length} candidates: {outcome}"
    return detected

/-- The content's language, or `unknown`. -/
def detect (content : String) (fileName : Option String) : Logged Language := do
  return (← detectEntry content fileName).elim unknown (·.language)

end SyntaxGateway.Language
