import SyntaxGateway.Language.Basic

/-!
# Signatures

For each language a list of patterns that are common in its sources: how its keywords, imports and
calls are written. None of them depends on where the text as a whole begins or ends, only on lines
and words.
-/

namespace SyntaxGateway.Language.Signatures

open Pattern

/-! ## Parts -/

/-- Any run of blanks. -/
def gap : Pattern := star blank

/-- A run of at least one blank. -/
def space : Pattern := plus blank

/-- A run of at least one word character. -/
def identifier : Pattern := plus word

/-- A run of at least one word character or dot. -/
def dottedName : Pattern := plus (oneOf [.word, .single '.'])

/-- Either kind of quote. -/
def quoteMark : Pattern := oneOf [.single '\'', .single '"']

/-- A text that begins at the edge of a word. -/
def keyword (s : String) : Pattern := seq wordEdge (text s)

/-! ## Lists -/

def shell : List Pattern :=
  [all [lineStart, gap, texts ["echo", "export", "source", "local", "readonly"], blank],
    all [char '$', optional (char '\x7b'), oneOf [.range 'A' 'Z', .range 'a' 'z', .single '_'],
      star word, optional (char '\x7d')],
    all [lineStart, gap, texts ["fi", "done", "esac"], gap, lineEnd],
    all [lineStart, gap, text "if", space, char '[']]

def csharp : List Pattern :=
  [all [lineStart, gap, text "using", space, text "System", optional (seq (char '.') dottedName),
      gap, char ';'],
    all [lineStart, gap, text "namespace", space, dottedName],
    all [keyword "static", space, text "void", space, text "Main", gap, char '('],
    all [keyword "Console.Write", optional (text "Line"), gap, char '(']]

def cpp : List Pattern :=
  [all [lineStart, gap, char '#', gap, text "include", gap, oneOf [.single '<', .single '"']],
    seq (keyword "std::") identifier,
    all [keyword "template", gap, char '<'],
    all [keyword "int", space, text "main", gap, char '(']]

def go : List Pattern :=
  [all [lineStart, gap, text "package", space, identifier, gap, lineEnd],
    all [lineStart, gap, text "func", space,
      optional (all [char '(', identifier, space, optional (char '*'), identifier, char ')', gap]),
      identifier, gap, char '('],
    all [keyword "fmt.", identifier, gap, char '('],
    all [identifier, gap, text ":="]]

def java : List Pattern :=
  [all [keyword "public", space, optional (seq (text "final") space), text "class", space,
      identifier],
    all [keyword "System.", texts ["out", "err"], text ".print", optional (text "ln"), gap,
      char '('],
    all [keyword "static", space, text "void", space, text "main", gap, char '(', gap,
      text "String"],
    all [lineStart, gap, text "import", space, text "java."]]

def javascript : List Pattern :=
  [all [keyword "console.", identifier, gap, char '('],
    all [keyword "function", gap, star word, gap, char '('],
    all [wordEdge, texts ["const", "let", "var"], space, identifier, gap, char '='],
    all [keyword "require", gap, char '(', gap, quoteMark],
    seq (keyword "module.exports") wordEdge]

def php : List Pattern :=
  [text "<?php",
    all [char '$', identifier, gap, texts ["=", "->"]],
    all [lineStart, gap, text "echo", blank]]

def python : List Pattern :=
  [all [lineStart, gap, text "def", space, identifier, gap, char '(', star (oneOf [.notNewline]),
      char ')',
      gap,
      optional (all [text "->", gap,
        plus (oneOf [.word, .single '[', .single ']', .single ',', .single ' ', .single '.'])]),
      char ':', gap, lineEnd],
    all [lineStart, gap, text "import", space, dottedName, gap, lineEnd],
    all [lineStart, gap, text "from", space, dottedName, space, text "import", blank],
    all [keyword "print", gap, char '('],
    seq (keyword "self.") identifier]

def ruby : List Pattern :=
  [all [lineStart, gap, text "def", space, identifier, optional (oneOf [.single '?', .single '!']),
      gap,
      lineEnd],
    all [lineStart, gap, text "require", space, quoteMark],
    all [lineStart, gap, text "puts", blank],
    all [lineStart, gap, text "end", gap, lineEnd],
    all [text ".each", space, text "do", wordEdge]]

end SyntaxGateway.Language.Signatures
