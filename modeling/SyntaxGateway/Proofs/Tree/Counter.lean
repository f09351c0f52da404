import Mathlib
import SyntaxGateway.Proofs.Tree.RoundTrip
import SyntaxGateway.Tree.Counter

/-!
# Decoding leaves no trace in the depth counter

**Theorem (`Node.decodeOnThread_leaves_counter`).** Let the counter of a thread stand at some `n`
from 0 to `maxDepth`. Whatever source is decoded, the decode ends, its result is that of the
counter-free decoder with `maxDepth - n` levels, the counter stands at `n` again, and every value it
had in between is from `n` to `maxDepth`. So sources that a thread decodes one after the other give
what each of them gives on a fresh thread.

What is done on a thread *yields* a result at `n` (`Yields`) if it comes to this result and the
counter is back at `n`, without having been below `n` or above the limit. Two such parts make a
whole (`Yields.bind`). A decoder on a thread *follows* a counter-free one (`Follows`) if on every
source it yields what that one finds. One level down (`Follows.nested`) the body starts from `n + 1`
and ends there, on success and on failure, so that the release goes back to `n`; at the limit
nothing is taken (`follows_refused`). For nodes it is an induction on the levels that are left,
which runs along with the calls of the recursion (`follows_node`).
-/

namespace SyntaxGateway

variable {σ α β : Type} {n : Nat}

/-! ## Parts and wholes -/

/-- From a counter at `n` this comes to the result and leaves the counter at `n`, with values from
`n` to the limit in between. -/
def OnThread.Yields (n : Nat) (act : OnThread α) (result : α) : Prop :=
  ∀ before, ∃ seen, act ⟨n, before⟩ = some (result, ⟨n, seen ++ before⟩) ∧
    ∀ value ∈ seen, (n : Int) ≤ value ∧ value ≤ maxDepth

namespace OnThread

theorem yields_pure (a : α) : Yields n (pure a) a :=
  fun _ => ⟨[], rfl, by simp⟩

theorem Yields.bind {act : OnThread α} {next : α → OnThread β} {a : α} {b : β}
    (h : Yields n act a) (hnext : Yields n (next a) b) : Yields n (act >>= next) b := by
  intro before
  obtain ⟨seen, hact, hseen⟩ := h before
  obtain ⟨later, hlater, hbounds⟩ := hnext (seen ++ before)
  refine ⟨later ++ seen, ?_, List.forall_mem_append.2 ⟨hbounds, hseen⟩⟩
  change (act ⟨n, before⟩ >>= fun (a, counter) => next a counter) = _
  rw [hact, List.append_assoc, ← hlater]
  rfl

end OnThread

open OnThread

namespace ThreadDecoder

/-- On every source, the decoder on the thread yields what the counter-free one finds. -/
def Follows (n : Nat) (d : ThreadDecoder σ α) (e : Decoder σ α) : Prop :=
  ∀ source, Yields n (d source).run (e source)

variable {d : ThreadDecoder σ α} {e : Decoder σ α}

theorem follows_plain (e : Decoder σ α) : Follows n (plain e) e :=
  fun source => yields_pure (e source)

theorem follows_pure (a : α) : Follows n (pure a : ThreadDecoder σ α) (pure a) :=
  fun source => yields_pure (Except.ok (a, source))

theorem Follows.bind {f : α → ThreadDecoder σ β} {g : α → Decoder σ β} (h : Follows n d e)
    (hnext : ∀ a, Follows n (f a) (g a)) : Follows n (d >>= f) (e >>= g) := by
  intro source
  have hsource : Yields n (d source).run (e source) := h source
  cases he : e source with
  | error fault =>
    rw [Decoder.bind_of_error he]
    rw [he] at hsource
    exact hsource.bind (yields_pure _)
  | ok taken =>
    obtain ⟨a, rest⟩ := taken
    rw [Decoder.bind_of_ok he]
    rw [he] at hsource
    exact hsource.bind (hnext a rest)

/-- What comes after a failure is not reached. -/
theorem Follows.bind_throw {f : α → ThreadDecoder σ β} {fault : DecodeFault}
    (h : Follows n d (throw fault)) : Follows n (d >>= f) (throw fault) :=
  fun source => (h source).bind (yields_pure _)

/-! ## Values in a row -/

theorem Follows.repeatFrom (h : Follows n d e) (count : Nat) (before : List α) :
    Follows n (repeatFrom d count before) (Decoder.repeatFrom e count before) := by
  induction count generalizing before with
  | zero => exact follows_pure before.reverse
  | succ count ih =>
    have hitems : Decoder.repeatFrom e (count + 1) before =
        e >>= fun a => Decoder.repeatFrom e count (a :: before) := by
      funext source
      cases he : e source with
      | error fault => rw [Decoder.bind_of_error he, Decoder.repeatFrom, he]
      | ok taken => rw [Decoder.bind_of_ok he, Decoder.repeatFrom, he]
    rw [hitems]
    exact h.bind fun a => ih (a :: before)

theorem Follows.list [ByteSource σ] (h : Follows n d e) : Follows n (list d) (Decoder.list e) :=
  (follows_plain Varint.decode).bind fun count => h.repeatFrom count []

/-! ## One level down -/

/-- The body gives back the counter as it got it, so the release ends where the taking began. -/
theorem Follows.nested (h : Follows (n + 1) d e) (hn : n + 1 ≤ maxDepth) :
    Follows n (nested d) e := by
  intro source before
  have hlevel : (n : Int) + 1 ≤ maxDepth := by exact_mod_cast hn
  obtain ⟨seen, hd, hseen⟩ := h source ((n + 1) :: before)
  refine ⟨n :: (seen ++ [(n : Int) + 1]), ?_, ?_⟩
  · change ThreadDecoder.nested d source ⟨n, before⟩ = _
    have htake : DepthCounter.set ⟨n, before⟩ (n + 1) = ⟨(n + 1 : Nat), (n + 1) :: before⟩ := rfl
    have hbody : d source ⟨(n + 1 : Nat), (n + 1) :: before⟩ =
        some (e source, ⟨(n + 1 : Nat), seen ++ ((n : Int) + 1) :: before⟩) := hd
    rw [ThreadDecoder.nested, if_neg (not_lt.2 hlevel), htake, hbody]
    simp [DepthCounter.set]
  · intro value hvalue
    simp only [List.mem_cons, List.mem_append, List.not_mem_nil, or_false] at hvalue
    rcases hvalue with rfl | hvalue | rfl
    · omega
    · have := hseen value hvalue
      omega
    · omega

/-- At the limit no level is taken, so that none is to be released. -/
theorem follows_refused (d : ThreadDecoder σ α) :
    Follows maxDepth (nested d) (throw (.tooDeep maxDepth)) :=
  fun _ _ => ⟨[], by simp [ThreadDecoder.nested, ExceptT.run], by simp⟩

/-! ## Trees -/

variable [ByteSource σ]

/-- Along the calls of the recursion, the levels that are left go down as the counter goes up. -/
theorem follows_node {levels calls : Nat} (hn : n + levels = maxDepth) (hcalls : levels < calls) :
    Follows n (node calls : ThreadDecoder σ Node) (Decoder.node levels) := by
  induction levels generalizing n calls with
  | zero =>
    obtain ⟨calls, rfl⟩ := Nat.exists_eq_succ_of_ne_zero (Nat.ne_of_gt hcalls)
    obtain rfl : n = maxDepth := hn
    unfold node Decoder.node
    exact (follows_plain _).bind fun _ => (follows_plain _).bind fun _ =>
      (follows_plain _).bind fun _ => (follows_refused _).bind_throw
  | succ levels ih =>
    obtain ⟨calls, rfl⟩ := Nat.exists_eq_succ_of_ne_zero (Nat.ne_of_gt (Nat.zero_lt_of_lt hcalls))
    have hchildren : Follows (n + 1) (node calls : ThreadDecoder σ Node) (Decoder.node levels) :=
      ih (by omega) (by omega)
    unfold node Decoder.node
    exact (follows_plain _).bind fun _ => (follows_plain _).bind fun _ =>
      (follows_plain _).bind fun _ => (hchildren.list.nested (by omega)).bind fun _ =>
      (follows_plain _).bind fun _ => (follows_plain _).bind fun _ =>
      (follows_plain _).bind fun _ => follows_pure _

theorem Follows.run (h : Follows n d e) (source : σ) :
    Yields n (d.run source) (Decoder.run e source) := by
  refine (h source).bind ?_
  unfold Decoder.run
  cases e source with
  | error fault => exact yields_pure _
  | ok taken =>
    obtain ⟨a, rest⟩ := taken
    simp only
    cases ByteSource.next? rest with
    | none => exact yields_pure _
    | some next => exact yields_pure _

end ThreadDecoder

namespace Node

open ThreadDecoder

variable [ByteSource σ] {calls : Nat}

theorem yields_decodeOnThread (hn : n ≤ maxDepth) (hcalls : maxDepth < calls) (source : σ) :
    Yields n (decodeOnThread calls source) (decodeWithin (maxDepth - n) source) := by
  unfold decodeOnThread decodeWithin
  split
  · exact yields_pure _
  · have hnode : Follows n (node calls : ThreadDecoder σ Node) (Decoder.node (maxDepth - n)) :=
      follows_node (by omega) (by omega)
    exact (hnode.run source).bind (yields_pure _)

theorem yields_decodeAllOnThread (hn : n ≤ maxDepth) (hcalls : maxDepth < calls)
    (sources : List σ) :
    Yields n (decodeAllOnThread calls sources)
      (sources.map (decodeWithin (maxDepth - n))) := by
  induction sources with
  | nil => exact yields_pure []
  | cons source sources ih =>
    exact (yields_decodeOnThread hn hcalls source).bind (ih.bind (yields_pure _))

/-- A decode yields at every `n` what the counter-free decoder finds with the levels that are left
there, so trees that a thread decodes in a row are those that a fresh thread finds for each. -/
theorem decodeOnThread_leaves_counter (hn : n ≤ maxDepth) (hcalls : maxDepth < calls) :
    (∀ source : σ,
      Yields n (decodeOnThread calls source) (decodeWithin (maxDepth - n) source)) ∧
    (∀ sources : List σ,
      Yields n (decodeAllOnThread calls sources)
        (sources.map (decodeWithin (maxDepth - n)))) ∧
    ∀ sources : List σ,
      (∃ history, decodeAllOnThread calls sources .fresh =
        some (sources.map decode, ⟨0, history⟩)) ∧
      ∀ source ∈ sources, ∃ history, decodeOnThread calls source .fresh =
        some (decode source, ⟨0, history⟩) := by
  refine ⟨yields_decodeOnThread hn hcalls, yields_decodeAllOnThread hn hcalls,
    fun sources => ⟨?_, fun source _ => ?_⟩⟩
  · obtain ⟨seen, hrun, -⟩ := yields_decodeAllOnThread (Nat.zero_le _) hcalls sources []
    rw [Nat.sub_zero, decodeWithin_maxDepth] at hrun
    exact ⟨_, hrun⟩
  · obtain ⟨seen, hrun, -⟩ := yields_decodeOnThread (Nat.zero_le _) hcalls source []
    rw [Nat.sub_zero, decodeWithin_maxDepth] at hrun
    exact ⟨_, hrun⟩

/-- With one level left, a source that ends too early and one that goes too deep do not keep a
third from being read. -/
theorem decodeOnThread_leaves_counter_chain :
    511 ≤ maxDepth ∧ maxDepth < 513 ∧
      ∃ seen, decodeAllOnThread 513 [[], (chain 1).bytes, (chain 0).bytes] ⟨511, []⟩ =
        some ([.error (.badEncoding .endOfInput), .error (.badEncoding (.tooDeep 512)),
          .ok (chain 0)], ⟨511, seen⟩) := by
  refine ⟨by decide, by decide, ?_⟩
  obtain ⟨seen, hrun, -⟩ :=
    (@decodeOnThread_leaves_counter Bytes 511 _ 513 (by decide) (by decide)).2.1
      [[], (chain 1).bytes, (chain 0).bytes] []
  have hresults : [[], (chain 1).bytes, (chain 0).bytes].map (decodeWithin (maxDepth - 511)) =
      [.error (.badEncoding .endOfInput), .error (.badEncoding (.tooDeep 512)), .ok (chain 0)] := by
    rfl
  rw [hresults] at hrun
  exact ⟨_, hrun⟩

end Node

end SyntaxGateway
