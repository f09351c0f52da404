/-!
# Blank characters

The characters of the Unicode property White_Space, and trimming by them.
-/

namespace SyntaxGateway.Text

/-- White space in the sense of Unicode: the controls U+0009 to U+000D and U+0085, and the spaces
and separators of every script. -/
def isBlank (c : Char) : Bool :=
  let n := c.toNat
  (9 ≤ n && n ≤ 13) || n == 0x20 || n == 0x85 || n == 0xA0 || n == 0x1680 ||
    (0x2000 ≤ n && n ≤ 0x200A) || n == 0x2028 || n == 0x2029 || n == 0x202F || n == 0x205F ||
    n == 0x3000

/-- `cs` without the blanks it starts with. -/
def trimStart (cs : List Char) : List Char := cs.dropWhile isBlank

/-- `cs` without the blanks it ends with. -/
def trimEnd (cs : List Char) : List Char := (cs.reverse.dropWhile isBlank).reverse

/-- `s` without blanks at either end. -/
def trim (s : String) : String := String.ofList (trimEnd (trimStart s.toList))

/-- The lists between blanks, none of them empty: `word` is the word being read, latest
character first. -/
def wordsFrom (word : List Char) : List Char → List (List Char)
  | [] => if word.isEmpty then [] else [word.reverse]
  | c :: cs =>
    if isBlank c then
      if word.isEmpty then wordsFrom [] cs else word.reverse :: wordsFrom [] cs
    else wordsFrom (c :: word) cs

/-- The maximal runs of non-blank characters, in order. -/
def words (cs : List Char) : List (List Char) := wordsFrom [] cs

end SyntaxGateway.Text
