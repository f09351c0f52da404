import SyntaxGateway.Text.Utf8

/-!
# Percent signs

The parts of a URL hold only printable ASCII: any other character, and those that would be taken
for something else in their part, are written byte by byte, each as a percent sign and two digits
of base sixteen.
-/

namespace SyntaxGateway.Url

/-- A digit of base sixteen, in capital letters. -/
def capitalDigit (n : Nat) : Char := if n < 10 then Char.ofNat (48 + n) else Char.ofNat (55 + n)

/-- The value of a digit of base sixteen. -/
def digitValue? (c : Char) : Option Nat :=
  let n := c.toNat
  if 48 ≤ n && n ≤ 57 then some (n - 48)
  else if 65 ≤ n && n ≤ 70 then some (n - 55)
  else if 97 ≤ n && n ≤ 102 then some (n - 87)
  else none

/-- A character outside printable ASCII. The space counts as printable. -/
def isUnprintable (c : Char) : Bool := c.toNat < 0x20 || 0x7E < c.toNat

/-- Writes a character byte by byte. -/
def percentChar (c : Char) : List Char :=
  (String.utf8EncodeChar c).flatMap fun b =>
    ['%', capitalDigit (b.toNat / 16), capitalDigit (b.toNat % 16)]

/-- Text with the unprintable characters and those of `special` written byte by byte. -/
def percentEncode (special : List Char) (cs : List Char) : List Char :=
  cs.flatMap fun c => if isUnprintable c || special.contains c then percentChar c else [c]

/-- What a fragment writes byte by byte. -/
def fragmentSpecial : List Char := [' ', '"', '<', '>', Char.ofNat 0x60]

/-- What a segment of a path writes byte by byte. -/
def pathSpecial : List Char := fragmentSpecial ++ ['#', '?', Char.ofNat 0x7B, Char.ofNat 0x7D]

/-- What a query writes byte by byte. -/
def querySpecial (web : Bool) : List Char :=
  [' ', '"', '#', '<', '>'] ++ if web then [Char.ofNat 0x27] else []

/-- The bytes of text in which a percent sign and two digits stand for a byte. -/
def percentDecode : List Char → Bytes
  | [] => []
  | c :: a :: b :: rest =>
    if c = '%' then
      match digitValue? a, digitValue? b with
      | some x, some y => (x * 16 + y).toUInt8 :: percentDecode rest
      | _, _ => String.utf8EncodeChar c ++ percentDecode (a :: b :: rest)
    else String.utf8EncodeChar c ++ percentDecode (a :: b :: rest)
  | c :: rest => String.utf8EncodeChar c ++ percentDecode rest

end SyntaxGateway.Url
