/-!
# Writing JSON

Texts without blanks. Strings escape only the quote, the backslash and the controls below U+0020;
all other characters stand for themselves.
-/

namespace SyntaxGateway.Json

/-- A digit of base sixteen, in small letters. -/
def hexDigit (n : Nat) : Char := if n < 10 then Char.ofNat (48 + n) else Char.ofNat (87 + n)

/-- The form of a character inside a string. -/
def escape (c : Char) : List Char :=
  if c = '"' then ['\\', '"']
  else if c = '\\' then ['\\', '\\']
  else if c.toNat < 0x20 then
    if c = '\n' then ['\\', 'n']
    else if c = '\r' then ['\\', 'r']
    else if c = '\t' then ['\\', 't']
    else if c.toNat = 8 then ['\\', 'b']
    else if c.toNat = 12 then ['\\', 'f']
    else ['\\', 'u', '0', '0', hexDigit (c.toNat / 16), hexDigit (c.toNat % 16)]
  else [c]

/-- A string as JSON. -/
def quote (s : String) : String := String.ofList ('"' :: (s.toList.flatMap escape ++ ['"']))

/-- An array of texts that are JSON already. -/
def array (items : List String) : String := "[" ++ ",".intercalate items ++ "]"

/-- An object of keys and texts that are JSON already, in the given order. -/
def object (members : List (String × String)) : String :=
  "\x7b" ++ ",".intercalate (members.map fun m => quote m.1 ++ ":" ++ m.2) ++ "\x7d"

/-- An optional text that is JSON already, or `null`. -/
def optional (text : Option String) : String := text.getD "null"

end SyntaxGateway.Json
