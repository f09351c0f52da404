import SyntaxGateway.Text.Split
import SyntaxGateway.Url.Percent
import SyntaxGateway.Url.Punycode

/-!
# Hosts

A host is a name, or a number of four or of sixteen bytes. Numbers come in many spellings and leave
in one. Names are written in small letters, each label with characters beyond ASCII as punycode.
-/

namespace SyntaxGateway.Url.Host

/-- The number that digits write, if all of them are digits of this base. -/
def numberOf? (base : Nat) (digits : List Char) : Option Nat :=
  digits.foldlM (fun n c => do
    let d ← digitValue? c
    if d < base then some (n * base + d) else none) 0

/-! ## Four bytes -/

/-- A part of a number of four bytes: in base ten, or in base eight behind a zero, or in base
sixteen behind `0x`. -/
def part? (digits : List Char) : Option Nat :=
  match digits with
  | [] => none
  | '0' :: 'x' :: rest | '0' :: 'X' :: rest => numberOf? 16 rest
  | '0' :: rest => numberOf? 8 rest
  | _ => numberOf? 10 digits

/-- The labels of a host without the empty one behind a final dot. -/
def labels (host : List Char) : List (List Char) :=
  let all := Text.splitBy (· = '.') host
  if 1 < all.length && all.getLast? = some [] then all.dropLast else all

/-- The last label is a number, so that the host can only be a number. -/
def endsInNumber (host : List Char) : Bool :=
  match (labels host).getLast? with
  | none | some [] => false
  | some last =>
    last.all Char.isDigit ||
      (match last with
        | '0' :: 'x' :: rest | '0' :: 'X' :: rest => (numberOf? 16 rest).isSome
        | _ => false)

/-- The number that parts write: each but the last is a byte, and the last fills the bytes that are
left. -/
def combine? : (left : Nat) → List Nat → Option Nat
  | _, [] => none
  | left, [n] => if n < Nat.pow 256 left then some n else none
  | left, n :: rest =>
    if n < 256 then (combine? (left - 1) rest).map (n * Nat.pow 256 (left - 1) + ·) else none

/-- Reads a number of four bytes. -/
def fourBytes? (host : List Char) : Option Nat := do
  let parts ← (labels host).mapM part?
  if 4 < parts.length then none else combine? 4 parts

/-- Four bytes with dots between them. -/
def dotted (n : Nat) : String :=
  s!"{n / 16777216 % 256}.{n / 65536 % 256}.{n / 256 % 256}.{n % 256}"

/-! ## Sixteen bytes -/

/-- The two units of four bytes in base ten with dots between them. -/
def dottedUnits? (text : List Char) : Option (List Nat) := do
  let parts ← (Text.splitBy (· = '.') text).mapM fun digits =>
    if digits.isEmpty || (1 < digits.length && digits.head? = some '0') then none
    else numberOf? 10 digits
  match parts with
  | [a, b, c, d] => if max (max a b) (max c d) < 256 then some [a * 256 + b, c * 256 + d] else none
  | _ => none

/-- A unit of up to four digits. -/
def unit? (digits : List Char) : Option Nat :=
  if digits.isEmpty || 4 < digits.length then none else numberOf? 16 digits

/-- Units with colons between them; at the end of the host, the last two may have dots. -/
def units? (atEnd : Bool) (text : List Char) : Option (List Nat) :=
  if text.isEmpty then some []
  else
    let runs := Text.splitBy (· = ':') text
    let last := runs.getLast?.getD []
    if atEnd && last.contains '.' then do
      return (← runs.dropLast.mapM unit?) ++ (← dottedUnits? last)
    else runs.mapM unit?

/-- Cuts text at the first pair of colons. -/
def cutAtColons : List Char → Option (List Char × List Char)
  | ':' :: ':' :: rest => some ([], rest)
  | c :: rest => (cutAtColons rest).map fun (before, after) => (c :: before, after)
  | [] => none

/-- The eight units of a number of sixteen bytes. A pair of colons stands for zeros. -/
def eightUnits? (text : List Char) : Option (List Nat) :=
  match cutAtColons text with
  | none => do
    let units ← units? true text
    if units.length = 8 then some units else none
  | some (before, after) => do
    let head ← units? false before
    let tail ← units? true after
    if head.length + tail.length < 8 then
      some (head ++ List.replicate (8 - head.length - tail.length) 0 ++ tail)
    else none

/-- The longest run of zeros, as its start and length; the first of several. -/
def longestZeros (units : List Nat) : Nat × Nat :=
  (List.range units.length).foldl (fun best i =>
    let run := ((units.drop i).takeWhile (· = 0)).length
    if best.2 < run then (i, run) else best) (0, 0)

/-- The digits of a unit, without zeros in front. -/
def unitText (n : Nat) : String := String.ofList (Nat.toDigits 16 n)

/-- Units with colons between them, the longest run of two or more zeros as a pair of colons. -/
def bracketed (units : List Nat) : String :=
  let join (us : List Nat) := ":".intercalate (us.map unitText)
  let (start, length) := longestZeros units
  let inner :=
    if length < 2 then join units
    else join (units.take start) ++ "::" ++ join (units.drop (start + length))
  "[" ++ inner ++ "]"

/-! ## Names -/

/-- A character that no name may hold. -/
def isForbidden (c : Char) : Bool :=
  c.toNat ≤ 0x20 || c.toNat = 0x7F || "%#/:<>?@[\\]^|".toList.contains c

/-- A label in ASCII. -/
def labelText (label : List Char) : List Char :=
  if label.all (·.toNat < 128) then label.map Char.toLower
  else "xn--".toList ++ Punycode.encode (label.map Char.toLower)

/-- A name in ASCII, if it is one. -/
def name? (host : List Char) : Option (List Char) :=
  match Utf8.decode (percentDecode host) with
  | .error _ => none
  | .ok cs =>
    if cs.isEmpty || cs.any isForbidden then none
    else some (['.'].intercalate ((Text.splitBy (· = '.') cs).map labelText))

/-- Reads what stands in square brackets, or gives the text to `other`. -/
def parseWith (other : List Char → Option String) (host : List Char) : Option String :=
  match host with
  | '[' :: rest =>
    if rest.getLast? = some ']' then (eightUnits? rest.dropLast).map bracketed else none
  | _ => other host

/-- The written form of a host of the web. -/
def parse? : List Char → Option String :=
  parseWith fun host => do
    let name ← name? host
    if endsInNumber name then (fourBytes? name).map dotted else some (String.ofList name)

/-- The written form of any other host. -/
def parsePlain? : List Char → Option String :=
  parseWith fun host =>
    if host.any fun c => c ≠ '%' && isForbidden c && 0x20 ≤ c.toNat then none
    else some (String.ofList (percentEncode [] host))

end SyntaxGateway.Url.Host
