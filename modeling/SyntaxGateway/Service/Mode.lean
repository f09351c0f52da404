import SyntaxGateway.Failure

/-!
# Transformation modes

How far the syntax service takes a tree on its way from the parser to a form shared by all
languages.
-/

namespace SyntaxGateway

inductive Mode where
  /-- The service chooses. -/
  | unspecified
  /-- What the parser of the language gives. -/
  | native
  /-- With roles added. -/
  | annotated
  /-- Brought into a form shared by all languages. -/
  | semantic
deriving DecidableEq, Repr

namespace Mode

def all : List Mode := [.unspecified, .native, .annotated, .semantic]

def text : Mode → String
  | .unspecified => ""
  | .native => "native"
  | .annotated => "annotated"
  | .semantic => "semantic"

/-- The mode with exactly this text. -/
def parse (s : String) : Outcome Mode :=
  match all.find? (·.text = s) with
  | some mode => .ok mode
  | none => .error (.invalidMode s)

end Mode

end SyntaxGateway
