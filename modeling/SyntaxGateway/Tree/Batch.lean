import SyntaxGateway.Base64
import SyntaxGateway.Text.Blank
import SyntaxGateway.Tree.Encoding

/-!
# Batches of trees

A batch is a sequence of frames: a length in four bytes, most significant first, and that many
bytes with one encoded tree. Inside JSON a batch travels as base64. A batch is decoded as a whole:
framing comes first, then the trees in order, and the first fault is the answer.
-/

namespace SyntaxGateway

/-- Why a batch is refused. -/
inductive BatchFault where
  | badBase64 (fault : Base64.Fault)
  /-- One to three bytes are left where a frame should start. -/
  | truncatedHeader (offset : Nat)
  | truncatedFrame (offset declared remaining : Nat)
  | badTree (index : Nat) (fault : TreeFault)
deriving DecidableEq, Repr

/-- What a decoding fault is called to a client. -/
def decodeErrorMessage (detail : String) : String := s!"Decode error: {detail}"

def BatchFault.message : BatchFault → String
  | .badBase64 fault => s!"invalid base64: {fault.message}"
  | .truncatedHeader offset => s!"truncated frame header at byte {offset}"
  | .truncatedFrame offset declared remaining =>
    s!"frame at byte {offset} declares {declared} bytes but only {remaining} remain"
  | .badTree index fault =>
    let inner := decodeErrorMessage fault.message
    s!"tree {index}: {inner}"

namespace Batch

/-! ## Frames -/

/-- The number that four bytes write, most significant first. -/
def frameLength (a b c d : UInt8) : Nat :=
  ((a.toNat * 256 + b.toNat) * 256 + c.toNat) * 256 + d.toNat

/-- The four bytes of a frame length. -/
def frameHeader (n : Nat) : Bytes :=
  [(n / 16777216).toUInt8, (n / 65536).toUInt8, (n / 256).toUInt8, n.toUInt8]

/-- A payload with its length in front, unless four bytes are too few for the length. -/
def frame? (payload : Bytes) : Option Bytes :=
  if payload.length < Nat.pow 2 32 then some (frameHeader payload.length ++ payload) else none

/-- The first `count` bytes and the bytes after them, if there are that many. -/
def takeExact? (count : Nat) (bytes : Bytes) : Option (Bytes × Bytes) :=
  let head := bytes.take count
  if head.length = count then some (head, bytes.drop count) else none

/-- Cuts the frames off `bytes`, which start at `offset`, after the frames `before` (latest
first). -/
def splitFrom (offset : Nat) (before : List Bytes) (bytes : Bytes) :
    Except BatchFault (List Bytes) :=
  match bytes with
  | [] => .ok before.reverse
  | a :: b :: c :: d :: body =>
    let length := frameLength a b c d
    match h : takeExact? length body with
    | some (payload, rest) => splitFrom (offset + 4 + length) (payload :: before) rest
    | none => .error (.truncatedFrame offset length body.length)
  | _ => .error (.truncatedHeader offset)
termination_by bytes.length
decreasing_by
  simp only [takeExact?] at h
  split at h
  · simp only [Option.some.injEq, Prod.mk.injEq] at h
    simp only [← h.2, List.length_drop, List.length_cons]
    omega
  · simp at h

/-- The payloads of the frames of a batch, not yet decoded. -/
def split (bytes : Bytes) : Except BatchFault (List Bytes) := splitFrom 0 [] bytes

/-! ## Trees -/

/-- Decodes payloads from number `index` on, after the trees `before` (latest first). -/
def decodeFrom (index : Nat) (before : List Node) : List Bytes → Except BatchFault (List Node)
  | [] => .ok before.reverse
  | payload :: rest =>
    match Node.decode payload with
    | .ok tree => decodeFrom (index + 1) (tree :: before) rest
    | .error fault => .error (.badTree index fault)

/-- The trees of a batch, in order. -/
def decode (bytes : Bytes) : Except BatchFault (List Node) := do
  decodeFrom 0 [] (← split bytes)

/-- The batch that holds `trees`, unless one of them is too large. -/
def encode? (trees : List Node) : Option Bytes := do
  let frames ← trees.mapM fun tree => do frame? (← tree.encode?)
  return frames.flatten

/-- The trees of a batch in base64, with blanks around it ignored. -/
def decodeBase64 (text : String) : Except BatchFault (List Node) := do
  let bytes ← (Base64.decode (Utf8.ofString (Text.trim text))).mapError .badBase64
  decode bytes

def encodeBase64? (trees : List Node) : Option String := (encode? trees).map Base64.encode

end Batch

end SyntaxGateway
