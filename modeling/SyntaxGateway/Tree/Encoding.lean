import SyntaxGateway.Tree.Basic
import SyntaxGateway.Tree.Varint

/-!
# Encoded trees

A tree as bytes: the fields of a node one after the other, without names. Integers are varints; a
string is its byte length and its UTF-8 bytes; a list is its length and its elements; properties
are a list of keys and values; a position is a tag byte 0, or 1 and its three numbers.

Reading accepts what writing produces and also integers in longer forms and properties in any
order, of which the last one of a key counts. No byte may be left over, and no path may hold more
than `maxDepth` nodes, so that a hostile input cannot build a tree too deep to handle.
-/

namespace SyntaxGateway

/-- The number of nodes that a path of a decoded tree may hold. -/
def maxDepth : Nat := 512

/-- The number of bytes that an encoded tree may have. -/
def maxTreeBytes : Nat := 64 * 1024 * 1024

/-! ## Writing -/

def encodeString (s : String) : Bytes :=
  let bytes := Utf8.ofString s
  Varint.encode bytes.length ++ bytes

def encodePosition : Option Position → Bytes
  | none => [0]
  | some p =>
    1 :: (Varint.encode p.offset.toNat ++ Varint.encode p.line.toNat ++ Varint.encode p.col.toNat)

def encodeEntry (e : String × String) : Bytes := encodeString e.1 ++ encodeString e.2

def Properties.encode (p : Properties) : Bytes :=
  Varint.encode p.entries.length ++ p.entries.flatMap encodeEntry

namespace Node

mutual

/-- The bytes of a tree, however deep or large. -/
def bytes : Node → Bytes
  | mk t k p cs s e rs =>
    encodeString t ++ (encodeString k ++ (p.encode ++
      (Varint.encode cs.length ++ (bytesAll cs ++
        (encodePosition s ++ (encodePosition e ++
          (Varint.encode rs.length ++ rs.flatMap encodeString)))))))

/-- The bytes of the trees of a list, one after the other. -/
def bytesAll : List Node → Bytes
  | [] => []
  | c :: cs => bytes c ++ bytesAll cs

end

/-- The encoded tree, unless it is larger than any tree may be. -/
def encode? (n : Node) : Option Bytes :=
  let bytes := n.bytes
  if bytes.length ≤ maxTreeBytes then some bytes else none

end Node

/-! ## Reading -/

namespace Decoder

variable {σ α : Type} [ByteSource σ]

/-- The next `count` bytes, after the bytes `before` (latest first). -/
def chunkFrom : (count : Nat) → (before : Bytes) → Decoder σ Bytes
  | 0, before, source => .ok (before.reverse, source)
  | count + 1, before, source =>
    match ByteSource.next? source with
    | some (b, rest) => chunkFrom count (b :: before) rest
    | none => .error .shortString

/-- A string: the number of its bytes, then the bytes. -/
def string : Decoder σ String := do
  let count ← Varint.decode
  let bytes ← chunkFrom count []
  match Utf8.toString? bytes with
  | .ok s => return s
  | .error fault => throw (.notUtf8 fault)

/-- A list: its length, then its elements. -/
def list (item : Decoder σ α) : Decoder σ (List α) := do
  let count ← Varint.decode
  times item count

/-- A property: its key, then its value. -/
def property : Decoder σ (String × String) := do
  let key ← string
  let value ← string
  return (key, value)

def properties : Decoder σ Properties := do
  return .ofList (← list property)

/-- A position that may be absent: a tag, then the numbers if there is one. -/
def position : Decoder σ (Option Position) := do
  let tag ← byte
  if tag == 0 then return none
  else if tag == 1 then
    let offset ← Varint.decode32
    let line ← Varint.decode32
    let col ← Varint.decode32
    return some ⟨offset, line, col⟩
  else throw (.badTag tag.toNat)

/-- A node whose children may still go `levels` levels deep. Where no level is left the node fails
before the number of its children is read. -/
def node : (levels : Nat) → Decoder σ Node
  | 0 => do
    let _ ← string
    let _ ← string
    let _ ← properties
    throw (.tooDeep maxDepth)
  | levels + 1 => do
    let internalType ← string
    let token ← string
    let properties ← properties
    let children ← list (node levels)
    let startPosition ← position
    let endPosition ← position
    let roles ← list string
    return .mk internalType token properties children startPosition endPosition roles

/-- The value of a whole source, with no byte after it. -/
def run (decoder : Decoder σ α) (source : σ) : Except DecodeFault α :=
  match decoder source with
  | .ok (a, rest) =>
    match ByteSource.next? rest with
    | none => .ok a
    | some _ => .error .trailingBytes
  | .error fault => .error fault

end Decoder

/-- Why a tree is refused. -/
inductive TreeFault where
  | tooLarge (bytes : Nat)
  | badEncoding (fault : DecodeFault)
deriving DecidableEq, Repr

def TreeFault.message : TreeFault → String
  | .tooLarge n => s!"tree of {n} bytes exceeds the {maxTreeBytes} byte limit"
  | .badEncoding fault => s!"invalid tree encoding: {fault.message}"

/-- The tree that a source encodes. -/
def Node.decode {σ : Type} [ByteSource σ] (source : σ) : Except TreeFault Node :=
  if maxTreeBytes < ByteSource.size source then .error (.tooLarge (ByteSource.size source))
  else (Decoder.run (Decoder.node maxDepth) source).mapError .badEncoding

end SyntaxGateway
