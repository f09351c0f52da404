/-!
# UTF-8

Characters to bytes and back. Reading is strict: overlong forms, surrogates and code points above
U+10FFFF are refused, and a refusal says how many bytes were fine and how many belong to the bad
sequence.
-/

namespace SyntaxGateway

/-- A byte string. -/
abbrev Bytes := List UInt8

namespace Utf8

/-- Where a byte string stops being UTF-8. -/
structure Fault where
  /-- The number of bytes before the bad sequence. -/
  validUpTo : Nat
  /-- The length of the bad sequence, or `none` when the input ends inside a character. -/
  width : Option Nat
deriving DecidableEq, Repr

/-- What the fault is called in a message. -/
def Fault.message (f : Fault) : String :=
  match f.width with
  | some w => s!"invalid utf-8 sequence of {w} bytes from index {f.validUpTo}"
  | none => s!"incomplete utf-8 byte sequence from index {f.validUpTo}"

/-- The bytes of a list of characters. -/
def encode (cs : List Char) : Bytes := cs.flatMap String.utf8EncodeChar

/-- The bytes of a string. -/
def ofString (s : String) : Bytes := encode s.toList

/-- A byte that continues a character. -/
def isTail (b : UInt8) : Bool := 0x80 ≤ b && b ≤ 0xBF

/-- The second bytes that may follow the first byte of a three-byte character. -/
def isSecondOfThree (a b : UInt8) : Bool :=
  (if a == 0xE0 then 0xA0 else 0x80) ≤ b && b ≤ (if a == 0xED then 0x9F else 0xBF)

/-- The second bytes that may follow the first byte of a four-byte character. -/
def isSecondOfFour (a b : UInt8) : Bool :=
  (if a == 0xF0 then 0x90 else 0x80) ≤ b && b ≤ (if a == 0xF4 then 0x8F else 0xBF)

/-- Six more bits of a code point, from a continuing byte. -/
def extend (n : Nat) (b : UInt8) : Nat := n * 64 + (b.toNat - 0x80)

/-- Reads characters from `bytes`, with `done` bytes and the characters `read` (latest first)
behind it. -/
def decodeFrom (bytes : Bytes) (done : Nat) (read : List Char) : Except Fault (List Char) :=
  match bytes with
  | [] => .ok read.reverse
  | a :: rest =>
    if a < 0x80 then decodeFrom rest (done + 1) (Char.ofNat a.toNat :: read)
    else if 0xC2 ≤ a && a ≤ 0xDF then
      match rest with
      | [] => .error ⟨done, none⟩
      | b :: rest =>
        if isTail b then
          decodeFrom rest (done + 2) (Char.ofNat (extend (a.toNat - 0xC0) b) :: read)
        else .error ⟨done, some 1⟩
    else if 0xE0 ≤ a && a ≤ 0xEF then
      match rest with
      | [] => .error ⟨done, none⟩
      | b :: rest =>
        if isSecondOfThree a b then
          match rest with
          | [] => .error ⟨done, none⟩
          | c :: rest =>
            if isTail c then
              decodeFrom rest (done + 3) (Char.ofNat (extend (extend (a.toNat - 0xE0) b) c) :: read)
            else .error ⟨done, some 2⟩
        else .error ⟨done, some 1⟩
    else if 0xF0 ≤ a && a ≤ 0xF4 then
      match rest with
      | [] => .error ⟨done, none⟩
      | b :: rest =>
        if isSecondOfFour a b then
          match rest with
          | [] => .error ⟨done, none⟩
          | c :: rest =>
            if isTail c then
              match rest with
              | [] => .error ⟨done, none⟩
              | d :: rest =>
                if isTail d then
                  decodeFrom rest (done + 4)
                    (Char.ofNat (extend (extend (extend (a.toNat - 0xF0) b) c) d) :: read)
                else .error ⟨done, some 3⟩
            else .error ⟨done, some 2⟩
        else .error ⟨done, some 1⟩
    else .error ⟨done, some 1⟩

/-- The characters of a byte string, if it is UTF-8. -/
def decode (bytes : Bytes) : Except Fault (List Char) := decodeFrom bytes 0 []

/-- The string of a byte string, if it is UTF-8. -/
def toString? (bytes : Bytes) : Except Fault String := (decode bytes).map String.ofList

end Utf8

end SyntaxGateway
