import SyntaxGateway.Text.Utf8

/-!
# Base64

The standard alphabet with canonical padding. Reading is strict: the padding must be present, the
bits that no byte needs must be zero, and a fault names the first place that is wrong. Offsets
count the bytes of the text.
-/

namespace SyntaxGateway.Base64

/-! ## Symbols -/

/-- The symbol of a six-bit value: capitals, small letters, digits, `+` and `/`. -/
def symbol (n : Nat) : Char :=
  if n < 26 then Char.ofNat (65 + n)
  else if n < 52 then Char.ofNat (97 + (n - 26))
  else if n < 62 then Char.ofNat (48 + (n - 52))
  else if n == 62 then '+'
  else '/'

/-- The value of a symbol's byte. -/
def value? (b : UInt8) : Option Nat :=
  let n := b.toNat
  if 65 ≤ n && n ≤ 90 then some (n - 65)
  else if 97 ≤ n && n ≤ 122 then some (n - 97 + 26)
  else if 48 ≤ n && n ≤ 57 then some (n - 48 + 52)
  else if n == 43 then some 62
  else if n == 47 then some 63
  else none

/-- The byte of the padding character. -/
def pad : UInt8 := 0x3D

/-! ## Writing -/

/-- Writes bytes after the text `out` (latest character first). -/
def encodeOnto (out : List Char) : Bytes → List Char
  | [] => out.reverse
  | [a] =>
    let n := a.toNat
    ('=' :: '=' :: symbol (n % 4 * 16) :: symbol (n / 4) :: out).reverse
  | [a, b] =>
    let n := a.toNat * 256 + b.toNat
    ('=' :: symbol (n % 16 * 4) :: symbol (n / 16 % 64) :: symbol (n / 1024) :: out).reverse
  | a :: b :: c :: rest =>
    let n := a.toNat * 65536 + b.toNat * 256 + c.toNat
    encodeOnto (symbol (n % 64) :: symbol (n / 64 % 64) :: symbol (n / 4096 % 64) ::
      symbol (n / 262144) :: out) rest

/-- The text of a byte string. -/
def encode (bytes : Bytes) : String := String.ofList (encodeOnto [] bytes)

/-! ## Reading -/

/-- Why a text is not base64. -/
inductive Fault where
  | badSymbol (byte : UInt8) (offset : Nat)
  | badLength (length : Nat)
  | badPadding
  /-- The last symbol has bits set that belong to no byte. -/
  | looseBits (byte : UInt8) (offset : Nat)
deriving DecidableEq, Repr

def Fault.message : Fault → String
  | .badSymbol b i => s!"Invalid symbol {b.toNat}, offset {i}."
  | .badLength n => s!"Invalid input length: {n}"
  | .badPadding => "Invalid padding"
  | .looseBits b i => s!"Invalid last symbol {b.toNat}, offset {i}."

/-- The last one to four bytes of a text, split into symbol values and the padding after them. -/
structure Tail where
  /-- The symbols' bytes with their values. -/
  symbols : List (UInt8 × Nat)
  /-- The number of padding bytes. -/
  padding : Nat

/-- Splits the last quad: `offset` is the offset of its next byte, `index` that byte's place in the
quad, `padStart` the offset of the first padding byte seen. -/
def readTail (offset index : Nat) (padStart : Option Nat) : Bytes → Except Fault Tail
  | [] => .ok ⟨[], 0⟩
  | b :: rest =>
    if b == pad then
      if index < 2 then .error (.badSymbol b offset)
      else
        (readTail (offset + 1) (index + 1) (some (padStart.getD offset)) rest).map fun t =>
          { t with padding := t.padding + 1 }
    else
      match padStart with
      | some start => .error (.badSymbol pad start)
      | none =>
        match value? b with
        | none => .error (.badSymbol b offset)
        | some v =>
          (readTail (offset + 1) (index + 1) none rest).map fun t =>
            { t with symbols := (b, v) :: t.symbols }

/-- The bytes of the last quad, which starts at `offset`. -/
def Tail.bytes (offset : Nat) (t : Tail) : Except Fault Bytes :=
  if t.symbols.length < 2 then .error (.badLength (offset + t.symbols.length))
  else if (t.symbols.length + t.padding) % 4 != 0 then .error .badPadding
  else
    match t.symbols with
    | [(_, a), (s, b)] =>
      if b % 16 == 0 then .ok [(a * 4 + b / 16).toUInt8] else .error (.looseBits s (offset + 1))
    | [(_, a), (_, b), (s, c)] =>
      let n := a * 1024 + b * 16 + c / 4
      if c % 4 == 0 then .ok [(n / 256).toUInt8, n.toUInt8] else .error (.looseBits s (offset + 2))
    | [(_, a), (_, b), (_, c), (_, d)] =>
      let n := a * 262144 + b * 4096 + c * 64 + d
      .ok [(n / 65536).toUInt8, (n / 256).toUInt8, n.toUInt8]
    | _ => .error .badPadding

/-- Reads quads from `offset` on, with the bytes `out` (latest first) behind it. -/
def decodeFrom (offset : Nat) (out : Bytes) : Bytes → Except Fault Bytes
  | a :: b :: c :: d :: e :: rest =>
    match value? a, value? b, value? c, value? d with
    | some va, some vb, some vc, some vd =>
      let n := va * 262144 + vb * 4096 + vc * 64 + vd
      decodeFrom (offset + 4)
        (n.toUInt8 :: (n / 256).toUInt8 :: (n / 65536).toUInt8 :: out) (e :: rest)
    | none, _, _, _ => .error (.badSymbol a offset)
    | _, none, _, _ => .error (.badSymbol b (offset + 1))
    | _, _, none, _ => .error (.badSymbol c (offset + 2))
    | _, _, _, none => .error (.badSymbol d (offset + 3))
  | [] => .ok out.reverse
  | last => do
    let tail ← readTail offset 0 none last
    let bytes ← tail.bytes offset
    return out.reverseAux bytes

/-- The bytes of a base64 text. A stray byte that leaves a text of length 1 modulo 4 is reported
before any other fault. -/
def decode (text : Bytes) : Except Fault Bytes :=
  match text.getLast? with
  | some last =>
    if text.length % 4 == 1 && last != pad && (value? last).isNone then
      .error (.badSymbol last (text.length - 1))
    else decodeFrom 0 [] text
  | none => .ok []

end SyntaxGateway.Base64
