import SyntaxGateway.Tree.Encoding

/-!
# The depth counter of a thread

`Decoder.node` carries the number of levels that are left. Behind it stands a counter that belongs
to the thread and outlives a decode: the children of a node are read one level further down, the
counter goes up before them and comes down after them, whether they were read or not, and a node
whose level would be above `maxDepth` is refused with the counter untouched.

Here that counter is part of the state. It is kept when a decode fails, and it remembers every value
it was set to.
-/

namespace SyntaxGateway

/-- The depth counter of a thread: an integer, so that a level released too often would show. -/
structure DepthCounter where
  value : Int
  /-- The values it was set to, latest first. -/
  history : List Int
deriving DecidableEq, Repr

namespace DepthCounter

/-- The counter of a thread that has decoded nothing. -/
def fresh : DepthCounter := ⟨0, []⟩

def set (counter : DepthCounter) (value : Int) : DepthCounter := ⟨value, value :: counter.history⟩

end DepthCounter

/-- What is done on a thread with a depth counter; `none` where it does not end. -/
abbrev OnThread := StateT DepthCounter Option

/-- A decoder on a thread: a failure drops the source, but not the counter. -/
abbrev ThreadDecoder (σ α : Type) := StateT σ (ExceptT DecodeFault OnThread) α

namespace ThreadDecoder

variable {σ α : Type} [ByteSource σ]

/-- A decoder that does not touch the counter. -/
def plain (decoder : Decoder σ α) : ThreadDecoder σ α := fun source =>
  ExceptT.mk (pure (decoder source))

/-- Reads `count` values in a row, after the values `before` (latest first). -/
def repeatFrom (item : ThreadDecoder σ α) :
    (count : Nat) → (before : List α) → ThreadDecoder σ (List α)
  | 0, before => return before.reverse
  | count + 1, before => do
    let a ← item
    repeatFrom item count (a :: before)

/-- A list: its length, then its elements. -/
def list (item : ThreadDecoder σ α) : ThreadDecoder σ (List α) := do
  let count ← plain Varint.decode
  repeatFrom item count []

/-- Reads one level further down: takes the level unless it is above the limit, and releases what
was taken, whatever comes out. -/
def nested (body : ThreadDecoder σ α) : ThreadDecoder σ α := fun source counter =>
  if counter.value + 1 > maxDepth then some (.error (.tooDeep maxDepth), counter)
  else
    match body source (counter.set (counter.value + 1)) with
    | some (result, counter) => some (result, counter.set (counter.value - 1))
    | none => none

/-- A node, with its children one level further down. The counter bounds the recursion, but only if
it is right: of its own the recursion is allowed `calls` calls, and does not end beyond them. -/
def node : (calls : Nat) → ThreadDecoder σ Node
  | 0 => fun _ _ => none
  | calls + 1 => do
    let internalType ← plain Decoder.string
    let token ← plain Decoder.string
    let properties ← plain Decoder.properties
    let children ← nested (list (node calls))
    let startPosition ← plain Decoder.position
    let endPosition ← plain Decoder.position
    let roles ← plain (Decoder.list Decoder.string)
    return .mk internalType token properties children startPosition endPosition roles

/-- The value of a whole source, with no byte after it. -/
def run (decoder : ThreadDecoder σ α) (source : σ) : OnThread (Except DecodeFault α) := do
  match ← (decoder source).run with
  | .ok (a, rest) =>
    match ByteSource.next? rest with
    | none => return .ok a
    | some _ => return .error .trailingBytes
  | .error fault => return .error fault

end ThreadDecoder

namespace Node

variable {σ : Type} [ByteSource σ]

/-- The tree that a source encodes, as a thread finds it. -/
def decodeOnThread (calls : Nat) (source : σ) : OnThread (Except TreeFault Node) := do
  if maxTreeBytes < ByteSource.size source then return .error (.tooLarge (ByteSource.size source))
  else return (← (ThreadDecoder.node calls).run source).mapError .badEncoding

/-- The trees of sources that a thread decodes one after the other. -/
def decodeAllOnThread (calls : Nat) :
    (sources : List σ) → OnThread (List (Except TreeFault Node))
  | [] => return []
  | source :: sources => do
    let result ← decodeOnThread calls source
    return result :: (← decodeAllOnThread calls sources)

/-- The tree that a source encodes, if no path of it holds more than `levels` nodes. No counter is
involved. -/
def decodeWithin (levels : Nat) (source : σ) : Except TreeFault Node :=
  if maxTreeBytes < ByteSource.size source then .error (.tooLarge (ByteSource.size source))
  else (Decoder.run (Decoder.node levels) source).mapError .badEncoding

theorem decodeWithin_maxDepth : (decodeWithin maxDepth : σ → Except TreeFault Node) = decode := rfl

end Node

end SyntaxGateway
