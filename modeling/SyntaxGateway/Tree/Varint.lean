import SyntaxGateway.Tree.Source

/-!
# Variable-width integers

An unsigned 64-bit integer takes one byte below 251, else a marker byte and two, four or eight
bytes, least significant first. Writing takes the shortest form; reading accepts longer ones too.
-/

namespace SyntaxGateway

/-! ## Faults of encoded trees -/

/-- Why a byte string is not an encoded tree. -/
inductive DecodeFault where
  /-- The input ends where an integer, a marker or a tag should stand. -/
  | endOfInput
  /-- Fewer bytes are left than a string's length says. -/
  | shortString
  | notUtf8 (fault : Utf8.Fault)
  /-- The tag of an optional position is neither 0 nor 1. -/
  | badTag (tag : Nat)
  /-- The marker of a 128-bit integer, which no field has. -/
  | wideMarker
  /-- The marker that is kept for extensions. -/
  | extensionMarker
  /-- A position field above the 32-bit range. -/
  | above32Bits (value : Nat)
  | tooDeep (limit : Nat)
  | trailingBytes
deriving DecidableEq, Repr

def DecodeFault.message : DecodeFault → String
  | .endOfInput => "io error: unexpected end of file"
  | .shortString => "io error: "
  | .notUtf8 fault => s!"string is not valid utf8: {fault.message}"
  | .badTag tag => s!"tag for enum is not valid, found {tag}"
  | .wideMarker =>
    "Invalid value (u128 range): you may have a version or configuration disagreement?"
  | .extensionMarker =>
    "\nByte 255 is treated as an extension point; it should not be encoding anything.\n" ++
      "Do you have a mismatched bincode version or configuration?\n"
  | .above32Bits value => s!"Invalid u32 {value}: you may have a version disagreement?"
  | .tooDeep limit => s!"tree exceeds maximum depth {limit}"
  | .trailingBytes => "Slice had bytes remaining after deserialization"

/-- A reader of encoded values: it takes the bytes in front of a source and leaves the source after
the value. -/
abbrev Decoder (σ α : Type) := StateT σ (Except DecodeFault) α

namespace Decoder

variable {σ α : Type} [ByteSource σ]

/-- The next byte. -/
def byte : Decoder σ UInt8 := fun source =>
  match ByteSource.next? source with
  | some next => .ok next
  | none => .error .endOfInput

/-- Reads `count` values in a row, after the values `before` (latest first). -/
def repeatFrom (item : Decoder σ α) : (count : Nat) → (before : List α) → Decoder σ (List α)
  | 0, before, source => .ok (before.reverse, source)
  | count + 1, before, source =>
    match item source with
    | .ok (a, rest) => repeatFrom item count (a :: before) rest
    | .error fault => .error fault

/-- Reads `count` values in a row. -/
def times (item : Decoder σ α) (count : Nat) : Decoder σ (List α) := repeatFrom item count []

end Decoder

namespace Varint

/-- The `width` low bytes of `n`, least significant first. -/
def littleEndian : (width : Nat) → (n : Nat) → Bytes
  | 0, _ => []
  | width + 1, n => n.toUInt8 :: littleEndian width (n / 256)

/-- The number that bytes write, least significant first. -/
def ofLittleEndian : Bytes → Nat
  | [] => 0
  | b :: rest => b.toNat + 256 * ofLittleEndian rest

/-- The shortest form of `n`. -/
def encode (n : Nat) : Bytes :=
  if n < 251 then [n.toUInt8]
  else if n < Nat.pow 2 16 then 251 :: littleEndian 2 n
  else if n < Nat.pow 2 32 then 252 :: littleEndian 4 n
  else 253 :: littleEndian 8 n

variable {σ : Type} [ByteSource σ]

/-- Reads an integer of exactly `width` bytes. -/
def decodeFixed (width : Nat) : Decoder σ Nat := do
  return ofLittleEndian (← Decoder.times Decoder.byte width)

/-- Reads an integer in any of its forms. -/
def decode : Decoder σ Nat := do
  let b ← Decoder.byte
  if b < 251 then return b.toNat
  else if b == 251 then decodeFixed 2
  else if b == 252 then decodeFixed 4
  else if b == 253 then decodeFixed 8
  else if b == 254 then throw .wideMarker
  else throw .extensionMarker

/-- Reads an integer that must fit 32 bits. -/
def decode32 : Decoder σ UInt32 := do
  let n ← decode
  if n < Nat.pow 2 32 then return n.toUInt32 else throw (.above32Bits n)

end Varint

end SyntaxGateway
