import SyntaxGateway.Json.Writer
import SyntaxGateway.Pattern

/-!
# Languages

A language as clients see it (`Language`), and an entry of the table of known languages
(`Language.Entry`) with the evidence that speaks for it.
-/

namespace SyntaxGateway

namespace Language

inductive Category where
  | programming
  | markup
  | data
  | prose
  | other
deriving DecidableEq, Repr

namespace Category

def all : List Category := [.programming, .markup, .data, .prose, .other]

def text : Category → String
  | .programming => "programming"
  | .markup => "markup"
  | .data => "data"
  | .prose => "prose"
  | .other => "other"

end Category

end Language

structure Language where
  name : String
  category : Language.Category
deriving DecidableEq, Repr

namespace Language

/-- What is reported when no language can be determined. -/
def unknown : Language := ⟨"", .other⟩

def isUnknown (l : Language) : Bool := l.name = ""

def toJson (l : Language) : String :=
  Json.object [("name", Json.quote l.name), ("type", Json.quote l.category.text)]

/-- A known language with the evidence for it. -/
structure Entry where
  name : String
  category : Category
  /-- The name under which the syntax service knows the language. -/
  serviceId : String
  /-- Extensions in small letters, without the dot. -/
  extensions : List String
  /-- Exact names of files. -/
  fileNames : List String
  /-- Programs that a first line may name as the interpreter. -/
  interpreters : List String
  /-- Patterns that are common in the language. -/
  signatures : List Pattern

/-- The language that an entry stands for. -/
def Entry.language (e : Entry) : Language := ⟨e.name, e.category⟩

end Language

end SyntaxGateway
