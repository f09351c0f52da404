import SyntaxGateway.Tree.Basic

/-!
# Path queries

A query is an absolute path of steps. It starts at a virtual document whose only child is the root
of the tree; a step moves to children or to descendants, and keeps the nodes that pass its test and
all its predicates.
-/

namespace SyntaxGateway

namespace Query

/-- Where a step goes from a node. -/
inductive Axis where
  /-- To its children, written `/`. -/
  | child
  /-- To all nodes below it, written `//`. -/
  | descendant
deriving DecidableEq, Repr

/-- Which types of node a step accepts. -/
inductive NodeTest where
  /-- All, written `*`. -/
  | any
  | type (name : String)
deriving DecidableEq, Repr

/-- A condition on an attribute. The attribute `role` stands for the node's roles. -/
inductive Predicate where
  /-- The attribute is present and not empty, or the node has a role. -/
  | has (name : String)
  /-- The attribute has this value, or the node has this role. -/
  | equals (name value : String)
deriving DecidableEq, Repr

structure Step where
  axis : Axis
  test : NodeTest
  predicates : List Predicate
deriving DecidableEq, Repr

def NodeTest.accepts : NodeTest → Node → Bool
  | .any, _ => true
  | .type name, n => n.internalType = name

def Predicate.holds : Predicate → Node → Bool
  | .has name, n =>
    if name = "role" then !n.roles.isEmpty
    else
      match n.attr? name with
      | some value => value ≠ ""
      | none => false
  | .equals name value, n =>
    if name = "role" then n.hasRole value else n.attr? name = some value

/-- The node passes the step's test and predicates. -/
def Step.accepts (s : Step) (n : Node) : Bool := s.test.accepts n && s.predicates.all (·.holds n)

end Query

/-- A path query. -/
structure Query where
  steps : List Query.Step
deriving DecidableEq, Repr

namespace Query

/-! ## Canonical text -/

def Axis.text : Axis → List Char
  | .child => ['/']
  | .descendant => ['/', '/']

def NodeTest.text : NodeTest → List Char
  | .any => ['*']
  | .type name => name.toList

/-- The value between the quotes it does not contain; single quotes if both would do. -/
def quote (value : String) : List Char :=
  let q := if value.toList.contains '\'' then '"' else '\''
  q :: (value.toList ++ [q])

def Predicate.text : Predicate → List Char
  | .has name => '[' :: '@' :: (name.toList ++ [']'])
  | .equals name value => '[' :: '@' :: (name.toList ++ '=' :: (quote value ++ [']']))

def Step.text (s : Step) : List Char :=
  s.axis.text ++ (s.test.text ++ s.predicates.flatMap Predicate.text)

/-- The query as text, with no blanks and the preferred quotes. -/
def render (q : Query) : String := String.ofList (q.steps.flatMap Step.text)

end Query

end SyntaxGateway
