import SyntaxGateway.Text.Utf8

/-!
# Sources of bytes

What a decoder reads from: a list of bytes, whose front is the next byte, or a cursor into a packed
array, which costs one byte of memory per byte however large the input is.
-/

namespace SyntaxGateway

/-- Bytes that are read front first. -/
class ByteSource (σ : Type) where
  /-- The first byte and what is left after it. -/
  next? : σ → Option (UInt8 × σ)
  /-- The number of bytes left. -/
  size : σ → Nat

/-- The next byte of a list. -/
def Bytes.next? : Bytes → Option (UInt8 × Bytes)
  | [] => none
  | b :: rest => some (b, rest)

instance : ByteSource Bytes := ⟨Bytes.next?, List.length⟩

@[simp]
theorem next?_nil : ByteSource.next? ([] : Bytes) = none := rfl

@[simp]
theorem next?_cons (b : UInt8) (rest : Bytes) : ByteSource.next? (b :: rest) = some (b, rest) := rfl

@[simp]
theorem size_bytes (bytes : Bytes) : ByteSource.size bytes = bytes.length := rfl

/-- A packed array of bytes, of which the first `offset` have been read. -/
structure ByteCursor where
  bytes : ByteArray
  offset : Nat

namespace ByteCursor

def next? (c : ByteCursor) : Option (UInt8 × ByteCursor) :=
  if h : c.offset < c.bytes.size then some (c.bytes[c.offset], { c with offset := c.offset + 1 })
  else none

instance : ByteSource ByteCursor := ⟨next?, fun c => c.bytes.size - c.offset⟩

/-- A cursor at the start of an array. -/
def ofByteArray (bytes : ByteArray) : ByteCursor := ⟨bytes, 0⟩

end ByteCursor

end SyntaxGateway
