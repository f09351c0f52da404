/-!
# Quoted text in TOML

Strings come in four forms. Basic ones stand between quotes and know escapes; literal ones stand
between apostrophes and know none. Either can run over several lines between three quotes or
apostrophes. Line breaks are single line feeds here.
-/

namespace SyntaxGateway.Toml

/-- A reader: what it read, and what is left of the input. -/
abbrev Scan (α : Type) := List Char → Option (α × List Char)

/-- The apostrophe. -/
def apostrophe : Char := Char.ofNat 0x27

/-- The blanks inside a line. -/
def isBlank (c : Char) : Bool := c = ' ' || c = '\t'

/-- A control that no string and no comment may hold as it is. The tab is none. -/
def isControl (c : Char) : Bool := (c.toNat < 0x20 && c ≠ '\t') || c.toNat = 0x7F

/-- Puts a character in front of what was read. -/
def prepend (c : Char) (r : Option (List Char × List Char)) : Option (List Char × List Char) :=
  r.map fun (text, rest) => (c :: text, rest)

/-! ## Escapes -/

/-- The value of a digit of base sixteen. -/
def hexValue? (c : Char) : Option Nat :=
  let n := c.toNat
  if 48 ≤ n && n ≤ 57 then some (n - 48)
  else if 65 ≤ n && n ≤ 70 then some (n - 55)
  else if 97 ≤ n && n ≤ 102 then some (n - 87)
  else none

/-- The character whose code point `count` digits write. -/
def codePoint? (count : Nat) (input : List Char) : Option Char := do
  let digits := input.take count
  if digits.length < count then none
  else
    let n ← digits.foldlM (fun n c => (hexValue? c).map (n * 16 + ·)) 0
    if n.isValidChar then some (Char.ofNat n) else none

/-- The character that an escape stands for, and the number of characters behind the backslash that
it takes. -/
def escaped? : List Char → Option (Char × Nat)
  | [] => none
  | c :: rest =>
    match c with
    | 'b' => some (Char.ofNat 0x08, 1)
    | 't' => some ('\t', 1)
    | 'n' => some ('\n', 1)
    | 'f' => some (Char.ofNat 0x0C, 1)
    | 'r' => some ('\r', 1)
    | '"' => some ('"', 1)
    | '\\' => some ('\\', 1)
    | 'u' => (codePoint? 4 rest).map (·, 5)
    | 'U' => (codePoint? 8 rest).map (·, 9)
    | _ => none

/-! ## One line -/

/-- Reads a basic string behind its opening quote. -/
def basicBody (input : List Char) : Option (List Char × List Char) :=
  match input with
  | [] => none
  | c :: rest =>
    if c = '"' then some ([], rest)
    else if c = '\\' then
      match escaped? rest with
      | some (d, count) => prepend d (basicBody (rest.drop count))
      | none => none
    else if isControl c then none
    else prepend c (basicBody rest)
termination_by input.length
decreasing_by all_goals simp only [List.length_drop, List.length_cons]; omega

/-- Reads a literal string behind its opening apostrophe. -/
def literalBody : List Char → Option (List Char × List Char)
  | [] => none
  | c :: rest =>
    if c = apostrophe then some ([], rest)
    else if isControl c then none
    else prepend c (literalBody rest)

/-! ## Several lines -/

/-- Reads the end of a string of several lines, if `rest` behind one quote has two more. One or two
quotes in front of the last three belong to the text. -/
def closing? (quote : Char) (rest : List Char) : Option (List Char × List Char) :=
  match rest with
  | a :: b :: rest =>
    if a = quote && b = quote then
      let extra := min 2 (rest.takeWhile (· = quote)).length
      some (List.replicate extra quote, rest.drop extra)
    else none
  | _ => none

/-- What follows a backslash at the end of a line: the blanks and line breaks behind it do not
count. -/
def joined? (input : List Char) : Option (List Char) :=
  match input.dropWhile isBlank with
  | '\n' :: rest => some (rest.dropWhile fun c => isBlank c || c = '\n')
  | _ => none

theorem length_dropWhile_le {α : Type} (p : α → Bool) (l : List α) :
    (l.dropWhile p).length ≤ l.length :=
  (List.dropWhile_suffix p).length_le

theorem length_joined {input rest : List Char} (h : joined? input = some rest) :
    rest.length < input.length := by
  simp only [joined?] at h
  split at h
  · rename_i more hm
    have h1 := length_dropWhile_le isBlank input
    rw [hm, List.length_cons] at h1
    have h2 := length_dropWhile_le (fun c => isBlank c || c = '\n') more
    simp only [Option.some.injEq] at h
    rw [← h]
    omega
  · simp at h

/-- Reads a basic string of several lines behind its opening quotes. -/
def basicLines (input : List Char) : Option (List Char × List Char) :=
  match input with
  | [] => none
  | c :: rest =>
    if c = '"' then
      match closing? '"' rest with
      | some r => some r
      | none => prepend '"' (basicLines rest)
    else if c = '\\' then
      match _h : joined? rest with
      | some rest => basicLines rest
      | none =>
        match escaped? rest with
        | some (d, count) => prepend d (basicLines (rest.drop count))
        | none => none
    else if isControl c && c ≠ '\n' then none
    else prepend c (basicLines rest)
termination_by input.length
decreasing_by
  · simp
  · have := length_joined _h; simp only [List.length_cons]; omega
  · simp only [List.length_drop, List.length_cons]; omega
  · simp

/-- Reads a literal string of several lines behind its opening apostrophes. -/
def literalLines : List Char → Option (List Char × List Char)
  | [] => none
  | c :: rest =>
    if c = apostrophe then
      match closing? apostrophe rest with
      | some r => some r
      | none => prepend c (literalLines rest)
    else if isControl c && c ≠ '\n' then none
    else prepend c (literalLines rest)

/-- A line break right behind the opening of a string does not count. -/
def dropFirstBreak : List Char → List Char
  | '\n' :: rest => rest
  | input => input

/-! ## Any form -/

/-- Reads a string of one line. -/
def lineString : Scan (List Char)
  | c :: rest =>
    if c = '"' then basicBody rest else if c = apostrophe then literalBody rest else none
  | [] => none

/-- Reads a string. -/
def string : Scan (List Char) := fun input =>
  match input with
  | a :: b :: c :: rest =>
    if a = b && b = c then
      if a = '"' then basicLines (dropFirstBreak rest)
      else if a = apostrophe then literalLines (dropFirstBreak rest)
      else none
    else lineString input
  | _ => lineString input

/-! ## Writing -/

/-- The longest run of a character. -/
def longestRun (c : Char) (text : List Char) : Nat :=
  (text.foldl (fun (longest, run) d =>
    if d = c then (max longest (run + 1), run + 1) else (longest, 0)) (0, 0)).1

/-- A digit of base sixteen, in capital letters. -/
def capitalDigit (n : Nat) : Char := if n < 10 then Char.ofNat (48 + n) else Char.ofNat (55 + n)

/-- The escape of a character that is not a quote, if it needs one. -/
def escapeOf? (lines : Bool) (c : Char) : Option (List Char) :=
  if c.toNat = 0x08 then some ['\\', 'b']
  else if c = '\t' then some ['\\', 't']
  else if c = '\n' then if lines then none else some ['\\', 'n']
  else if c.toNat = 0x0C then some ['\\', 'f']
  else if c = '\r' then some ['\\', 'r']
  else if c = '\\' then some ['\\', '\\']
  else if isControl c then
    some ['\\', 'u', '0', '0', capitalDigit (c.toNat / 16), capitalDigit (c.toNat % 16)]
  else none

/-- The inside of a basic string, behind a run of `run` quotes. Of the quotes in a row only every
third needs an escape in a string of several lines, and every one in a string of one line. -/
def escapeText (lines : Bool) : (run : Nat) → List Char → List Char
  | _, [] => []
  | run, c :: rest =>
    if c = '"' then
      if (if lines then 2 else 0) < run + 1 then '\\' :: '"' :: escapeText lines 0 rest
      else '"' :: escapeText lines (run + 1) rest
    else
      match escapeOf? lines c with
      | some e => e ++ escapeText lines 0 rest
      | none => c :: escapeText lines 0 rest

/-- The forms of strings. -/
inductive Form where
  | basic
  | literal
  | basicLines
  | literalLines
deriving DecidableEq, Repr

/-- The first form that shows the text without escapes other than that of the tab, or else a basic
form. -/
def Form.ofText (text : List Char) : Form :=
  let control := text.any fun c => isControl c && c ≠ '\n'
  let breaks := text.contains '\n'
  let backslash := text.contains '\\'
  let quotes := longestRun '"' text
  let apostrophes := longestRun apostrophe text
  if !control && !backslash && quotes = 0 && !breaks then .basic
  else if !control && apostrophes = 0 && !breaks then .literal
  else if !control && !backslash && quotes ≤ 2 then .basicLines
  else if !control && apostrophes ≤ 2 then .literalLines
  else if breaks then .basicLines
  else .basic

/-- Text as a string of several lines starts on a line of its own if it has more than one. -/
def firstBreak (text : List Char) : List Char := if text.contains '\n' then ['\n'] else []

/-- Text as a string of a form. -/
def Form.write (form : Form) (text : List Char) : List Char :=
  match form with
  | .basic => ['"'] ++ escapeText false 0 text ++ ['"']
  | .literal => [apostrophe] ++ text ++ [apostrophe]
  | .basicLines =>
    List.replicate 3 '"' ++ firstBreak text ++ escapeText true 0 text ++ List.replicate 3 '"'
  | .literalLines =>
    List.replicate 3 apostrophe ++ firstBreak text ++ text ++ List.replicate 3 apostrophe

/-- Text as a string. -/
def quote (text : List Char) : List Char := (Form.ofText text).write text

end SyntaxGateway.Toml
