import SyntaxGateway.Proofs.Outcome
import SyntaxGateway.Proofs.Tree.RoundTrip

/-!
# Cut and continued encodings

**Theorem (`Node.decode_prefix_free`).** A byte string that is read as a tree is not the beginning
of another one. Each shorter beginning of it is refused because the bytes run out, and with any
bytes behind it the string is refused for these bytes or for its size. What the program writes can
be cut or continued as little, also where the tree is too deep to be read back.

A decoder takes its bytes from the front, so where the end of its input is cut off it goes on as
before until it misses a byte (`Sequential`). This is an induction over the levels of the tree, with
one lemma for each way in which decoders are put together.
-/

namespace SyntaxGateway

/-- The input ended before the value did. -/
def DecodeFault.RunsOut (fault : DecodeFault) : Prop := fault = .endOfInput ∨ fault = .shortString

namespace Decoder

variable {α β : Type}

/-- With the end of its input cut off, the decoder finds the same value and leaves so much less, or
it runs out of bytes. -/
def Sequential (d : Decoder Bytes α) : Prop :=
  ∀ cut more a rest, d (cut ++ more) = .ok (a, rest) →
    (∃ left, d cut = .ok (a, left) ∧ rest = left ++ more) ∨
      ∃ fault : DecodeFault, fault.RunsOut ∧ d cut = .error fault

/-! ## Sequences and choices -/

theorem sequential_pure (a : α) : Sequential (pure a : Decoder Bytes α) := by
  intro cut more b rest h
  obtain ⟨rfl, rfl⟩ := pure_eq_ok_iff.1 h
  exact .inl ⟨cut, rfl, rfl⟩

theorem sequential_throw (fault : DecodeFault) :
    Sequential (throw fault : Decoder Bytes α) := by
  intro cut more a rest h
  cases h

theorem Sequential.bind {d : Decoder Bytes α} {next : α → Decoder Bytes β} (h : Sequential d)
    (hnext : ∀ a, Sequential (next a)) : Sequential (d >>= next) := by
  intro cut more b rest hread
  obtain ⟨a, rest', hd, hb⟩ := bind_eq_ok_iff.1 hread
  rcases h cut more a rest' hd with ⟨left, hcut, rfl⟩ | ⟨fault, hfault, hcut⟩
  · rw [bind_of_ok hcut]
    exact hnext a left more b rest hb
  · exact .inr ⟨fault, hfault, bind_of_error hcut⟩

theorem Sequential.ite {c : Prop} [Decidable c] {d d' : Decoder Bytes α} (h : Sequential d)
    (h' : Sequential d') : Sequential (if c then d else d') := by
  by_cases hc : c
  · rw [if_pos hc]
    exact h
  · rw [if_neg hc]
    exact h'

/-! ## Bytes in a row -/

theorem sequential_byte : Sequential (byte : Decoder Bytes UInt8) := by
  intro cut more b rest h
  cases cut with
  | nil => exact .inr ⟨.endOfInput, .inl rfl, rfl⟩
  | cons c cut =>
    cases h
    exact .inl ⟨cut, rfl, rfl⟩

theorem sequential_chunkFrom (count : Nat) (before : Bytes) :
    Sequential (chunkFrom count before : Decoder Bytes Bytes) := by
  induction count generalizing before with
  | zero => exact sequential_pure before.reverse
  | succ count ih =>
    intro cut more taken rest h
    cases cut with
    | nil => exact .inr ⟨.shortString, .inr rfl, rfl⟩
    | cons b cut => exact ih (b :: before) cut more taken rest h

theorem Sequential.repeatFrom {d : Decoder Bytes α} (h : Sequential d) (count : Nat)
    (before : List α) : Sequential (repeatFrom d count before) := by
  induction count generalizing before with
  | zero => exact sequential_pure before.reverse
  | succ count ih =>
    have hstep : Decoder.repeatFrom d (count + 1) before =
        d >>= fun a => Decoder.repeatFrom d count (a :: before) := by
      funext source
      rw [Decoder.repeatFrom]
      cases hd : d source with
      | error fault => rw [bind_of_error hd]
      | ok taken => rw [bind_of_ok hd]
    rw [hstep]
    exact h.bind fun a => ih (a :: before)

/-! ## Trees -/

theorem sequential_decode : Sequential (Varint.decode : Decoder Bytes Nat) := by
  have hfixed (width : Nat) : Sequential (Varint.decodeFixed width : Decoder Bytes Nat) :=
    (sequential_byte.repeatFrom width []).bind fun _ => sequential_pure _
  exact sequential_byte.bind fun _ => .ite (sequential_pure _) <| .ite (hfixed 2) <|
    .ite (hfixed 4) <| .ite (hfixed 8) <| .ite (sequential_throw _) (sequential_throw _)

theorem sequential_string : Sequential (string : Decoder Bytes String) := by
  refine sequential_decode.bind fun count => (sequential_chunkFrom count []).bind fun bytes => ?_
  cases Utf8.toString? bytes with
  | ok s => exact sequential_pure s
  | error fault => exact sequential_throw _

theorem Sequential.list {d : Decoder Bytes α} (h : Sequential d) : Sequential (list d) :=
  sequential_decode.bind fun count => h.repeatFrom count []

theorem sequential_properties : Sequential (properties : Decoder Bytes Properties) := by
  have hproperty : Sequential (property : Decoder Bytes (String × String)) :=
    sequential_string.bind fun _ => sequential_string.bind fun _ => sequential_pure _
  exact hproperty.list.bind fun _ => sequential_pure _

theorem sequential_position : Sequential (position : Decoder Bytes (Option Position)) := by
  have hnumber : Sequential (Varint.decode32 : Decoder Bytes UInt32) :=
    sequential_decode.bind fun _ => .ite (sequential_pure _) (sequential_throw _)
  refine sequential_byte.bind fun _ => .ite (sequential_pure _) (.ite ?_ (sequential_throw _))
  exact hnumber.bind fun _ => hnumber.bind fun _ => hnumber.bind fun _ => sequential_pure _

theorem sequential_node (levels : Nat) : Sequential (node levels : Decoder Bytes Node) := by
  induction levels with
  | zero =>
    exact sequential_string.bind fun _ => sequential_string.bind fun _ =>
      sequential_properties.bind fun _ => sequential_throw _
  | succ levels ih =>
    exact sequential_string.bind fun _ => sequential_string.bind fun _ =>
      sequential_properties.bind fun _ => ih.list.bind fun _ => sequential_position.bind fun _ =>
        sequential_position.bind fun _ => sequential_string.list.bind fun _ => sequential_pure _

end Decoder

/-! ## Whole encodings -/

namespace Node

variable {bytes cut more : Bytes} {n : Node}

/-- What is said of a tree with bytes behind it. -/
def overrun (bytes : Bytes) : TreeFault :=
  if bytes.length ≤ maxTreeBytes then .badEncoding .trailingBytes else .tooLarge bytes.length

theorem decode_cut (h : Node.decode (cut ++ more) = .ok n) (hmore : more ≠ []) :
    ∃ fault : DecodeFault, fault.RunsOut ∧ Node.decode cut = .error (.badEncoding fault) := by
  obtain ⟨hlength, -⟩ := decode_eq_ok_iff.1 h
  have hcut : cut.length ≤ maxTreeBytes := by
    rw [List.length_append] at hlength
    omega
  rw [decode_eq_of_length_le hlength, mapError_eq_ok_iff, Decoder.run_eq_ok_iff] at h
  rcases Decoder.sequential_node maxDepth cut more n [] h with ⟨left, -, hleft⟩ |
    ⟨fault, hout, hfault⟩
  · exact absurd (List.append_eq_nil_iff.1 hleft.symm).2 hmore
  · refine ⟨fault, hout, ?_⟩
    rw [decode_eq_of_length_le hcut, Decoder.run, hfault]
    rfl

theorem decode_append (h : Node.decode bytes = .ok n) (hmore : more ≠ []) :
    Node.decode (bytes ++ more) = .error (overrun (bytes ++ more)) := by
  obtain ⟨-, t, hcounted, hdepth, rfl, rfl⟩ := decode_eq_ok_iff.1 h
  rw [overrun]
  split
  · next hlength =>
    have hread := (Decoder.reads_node maxDepth).apply ⟨t, hcounted, hdepth⟩ more
    obtain ⟨b, more, rfl⟩ := List.exists_cons_of_ne_nil hmore
    rw [decode_eq_of_length_le hlength, Decoder.run, hread]
    rfl
  · next hlength => exact decode_eq_tooLarge (Nat.lt_of_not_le hlength)

/-- Only a whole written tree is read, nothing shorter and nothing longer. -/
theorem exists_fault_of_ne {t : Written.Tree} (ht : t.Counted) (hne : bytes ≠ t.bytes)
    (happend : (∃ more, bytes ++ more = t.bytes) ∨ ∃ more, bytes = t.bytes ++ more) :
    ∃ fault, Node.decode bytes = .error fault := by
  cases h : Node.decode bytes with
  | error fault => exact ⟨fault, rfl⟩
  | ok n =>
    obtain ⟨-, u, hu, -, rfl, -⟩ := decode_eq_ok_iff.1 h
    obtain ⟨rest, rest', heq⟩ : ∃ rest rest', u.bytes ++ rest = t.bytes ++ rest' := by
      rcases happend with ⟨more, hmore⟩ | ⟨more, hmore⟩
      · exact ⟨more, [], by rw [hmore, List.append_nil]⟩
      · exact ⟨[], more, by rw [hmore, List.append_nil]⟩
    obtain ⟨rfl, -⟩ := Written.Tree.bytes_append_inj hu ht heq
    exact absurd rfl hne

/-- No byte string that is read as a tree begins another one: cut short it runs out of bytes, and
continued it is refused for what is behind it. The encodings of all trees can neither be cut nor be
continued without a fault. -/
theorem decode_prefix_free :
    (∀ (bytes : Bytes) (n : Node), Node.decode bytes = .ok n →
      (∀ cut more, cut ++ more = bytes → more ≠ [] →
        ∃ fault : DecodeFault, fault.RunsOut ∧ Node.decode cut = .error (.badEncoding fault)) ∧
      ∀ more, more ≠ [] → Node.decode (bytes ++ more) = .error (overrun (bytes ++ more))) ∧
    ∀ (bytes : Bytes) (n : Node), n.encode? = some bytes →
      (∀ cut more, cut ++ more = bytes → more ≠ [] → ∃ fault, Node.decode cut = .error fault) ∧
      ∀ more, more ≠ [] → ∃ fault, Node.decode (bytes ++ more) = .error fault := by
  refine ⟨fun bytes n h => ⟨?_, fun more => decode_append h⟩, fun bytes n h => ?_⟩
  · rintro cut more rfl hmore
    exact decode_cut h hmore
  · obtain ⟨t, hcounted, -, -, rfl, -⟩ := exists_canonical_of_encode? h
    constructor
    · intro cut more happend hmore
      refine exists_fault_of_ne hcounted (fun heq => hmore ?_) (.inl ⟨more, happend⟩)
      exact List.append_right_eq_self.1 (happend.trans heq.symm)
    · intro more hmore
      refine exists_fault_of_ne hcounted (fun heq => hmore ?_) (.inr ⟨more, rfl⟩)
      exact List.append_right_eq_self.1 heq

/-- A tree with a long form of a length in it, cut inside that length and continued by one byte; and
the encoding of a tree that is too deep, cut and continued. -/
theorem decode_prefix_free_repeated :
    let front : Bytes := [1, 97, 0, 2, 1, 107, 1, 50, 251, 1]
    let back : Bytes := [0, 107, 1, 49, 0, 0, 0, 0]
    (∃ n, Node.decode (front ++ back) = .ok n ∧
      (∃ fault : DecodeFault, fault.RunsOut ∧ Node.decode front = .error (.badEncoding fault)) ∧
      Node.decode (front ++ back ++ [0]) = .error (.badEncoding .trailingBytes)) ∧
    ∃ bytes, (chain 512).encode? = some bytes ∧
      (∃ fault, Node.decode (bytes.take 3000) = .error fault) ∧
      ∃ fault, Node.decode (bytes ++ [0]) = .error fault := by
  intro front back
  obtain ⟨haccepted, hencoded⟩ := decode_prefix_free
  constructor
  · let n : Node := .mk "a" "" (.ofList [("k", "2"), ("k", "1")]) [] none none []
    have h : Node.decode (front ++ back) = .ok n := rfl
    obtain ⟨hcut, happend⟩ := haccepted _ n h
    exact ⟨n, h, hcut front back rfl (by decide), happend [0] (by decide)⟩
  · have hlength := length_bytes_chain 512
    have h : (chain 512).encode? = some (chain 512).bytes :=
      encode?_eq_some_iff.2 ⟨by rw [hlength]; decide, rfl⟩
    obtain ⟨hcut, happend⟩ := hencoded _ _ h
    refine ⟨_, h, hcut _ ((chain 512).bytes.drop 3000) (List.take_append_drop _ _) ?_,
      happend [0] (by decide)⟩
    rw [Ne, List.drop_eq_nil_iff, hlength]
    decide

end Node

end SyntaxGateway
