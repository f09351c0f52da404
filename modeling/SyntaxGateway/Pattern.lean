import SyntaxGateway.Text.Blank
import SyntaxGateway.Text.Word

/-!
# Patterns

Regular expressions over characters, with the assertions "at the start of a line", "at the end of a
line" and "at the edge of a word". An assertion looks at the characters on both sides of a place, so
whether a pattern matches nothing there depends on these two.

A text is searched by following all places where a match could have begun at once: the residues of a
pattern are what is left of it to match after one character, and a match ends where some residue may
match nothing. The number of residues is bounded by the pattern, so a search takes one pass.
-/

namespace SyntaxGateway

/-! ## Syntax -/

namespace Pattern

/-- A part of a set of characters. -/
inductive CharClass where
  | single (c : Char)
  | range (first last : Char)
  | blank
  | word
  | notNewline
deriving DecidableEq, Repr

def CharClass.contains : CharClass → Char → Bool
  | .single c, d => c = d
  | .range first last, c => first ≤ c && c ≤ last
  | .blank, c => Text.isBlank c
  | .word, c => Text.isWord c
  | .notNewline, c => c ≠ '\n'

end Pattern

inductive Pattern where
  /-- Matches nothing, anywhere. -/
  | empty
  | lineStart
  | lineEnd
  | wordEdge
  /-- One character of any of the classes. -/
  | oneOf (classes : List Pattern.CharClass)
  | seq (first second : Pattern)
  | alt (left right : Pattern)
  /-- Any number of matches in a row. -/
  | star (body : Pattern)
deriving DecidableEq, Repr

namespace Pattern

def char (c : Char) : Pattern := oneOf [.single c]

def blank : Pattern := oneOf [.blank]

def word : Pattern := oneOf [.word]

/-- Patterns one after the other. -/
def all : List Pattern → Pattern
  | [] => empty
  | [p] => p
  | p :: rest => seq p (all rest)

/-- One of a list of patterns. -/
def any : List Pattern → Pattern
  | [] => oneOf []
  | [p] => p
  | p :: rest => alt p (any rest)

/-- Exactly the text. -/
def text (s : String) : Pattern := all (s.toList.map char)

/-- One of the texts. -/
def texts (ss : List String) : Pattern := any (ss.map text)

def optional (p : Pattern) : Pattern := alt p empty

/-- One match or more in a row. -/
def plus (p : Pattern) : Pattern := seq p (star p)

/-! ## Matching -/

/-- The place between two characters begins a line. -/
def atLineStart (previous : Option Char) : Bool := previous.all (· = '\n')

/-- The place between two characters ends a line. -/
def atLineEnd (next : Option Char) : Bool := next.all (· = '\n')

/-- Exactly one side of the place is a word character. -/
def atWordEdge (previous next : Option Char) : Bool :=
  previous.any Text.isWord != next.any Text.isWord

/-- The pattern may match nothing between the two characters, of which one is missing at an end of
the text. -/
def nullable (previous next : Option Char) : Pattern → Bool
  | empty => true
  | lineStart => atLineStart previous
  | lineEnd => atLineEnd next
  | wordEdge => atWordEdge previous next
  | oneOf _ => false
  | seq p q => nullable previous next p && nullable previous next q
  | alt p q => nullable previous next p || nullable previous next q
  | star _ => true

/-- `p` and then `q`, without a part that matches nothing anywhere. -/
def followedBy (p q : Pattern) : Pattern := if p = empty then q else seq p q

/-- What may be left of the pattern to match after the character `c`, which stands behind
`previous`. -/
def residues (previous : Option Char) (c : Char) : Pattern → List Pattern
  | empty | lineStart | lineEnd | wordEdge => []
  | oneOf classes => if classes.any (·.contains c) then [empty] else []
  | seq p q =>
    (residues previous c p).map (followedBy · q) ++
      (if nullable previous (some c) p then residues previous c q else [])
  | alt p q => residues previous c p ++ residues previous c q
  | star p => (residues previous c p).map (followedBy · (star p))

/-- Some match that began earlier and goes on with one of `pending`, or begins at this place or
later, ends in the rest of the text. -/
def searchFrom (p : Pattern) (pending : List Pattern) (previous : Option Char) :
    List Char → Bool
  | [] => (p :: pending).any (nullable previous none)
  | c :: rest =>
    (p :: pending).any (nullable previous (some c)) ||
      searchFrom p ((p :: pending).flatMap (residues previous c)).eraseDups (some c) rest

/-- The pattern matches somewhere in the text. -/
def isIn (p : Pattern) (text : List Char) : Bool := searchFrom p [] none text

end Pattern

end SyntaxGateway
