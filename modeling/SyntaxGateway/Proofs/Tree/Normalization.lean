import SyntaxGateway.Proofs.Tree.RoundTrip

/-!
# Decoding and encoding again

**Theorem (`Node.encode?_of_decode`).** A tree that was read can always be encoded. The encoding is
no longer than the bytes that were read, it is read as the same tree, and it is these bytes exactly
when they were canonical: every integer in its shortest form, the keys of every map increasing.

Every part of a written tree shrinks or keeps its length when it is written canonically. Only the
properties need an argument, as keys are dropped and put in order: setting one more key adds at most
its own bytes, and the number of the entries does not grow.
-/

namespace SyntaxGateway

theorem Varint.length_encode_mono {m n : Nat} (h : m ≤ n) :
    (encode m).length ≤ (encode n).length := by
  unfold encode
  simp only [Nat.pow_eq]
  split_ifs <;> simp <;> omega

namespace Written

/-! ## Lengths of canonical forms -/

theorem length_flatMap_le {α β γ : Type} {f : α → List γ} {g : β → List γ} {value : β → α}
    {ws : List β} (h : ∀ w ∈ ws, (f (value w)).length ≤ (g w).length) :
    ((ws.map value).flatMap f).length ≤ (ws.flatMap g).length := by
  induction ws with
  | nil => simp
  | cons w ws ih =>
    obtain ⟨hw, hws⟩ := List.forall_mem_cons.1 h
    have := ih hws
    simp only [List.map_cons, List.flatMap_cons, List.length_append]
    omega

theorem Integer.length_encode_le_of_le {i : Integer} {n : Nat} (h : n ≤ i.value) :
    (Varint.encode n).length ≤ i.bytes.length :=
  Nat.le_trans (Varint.length_encode_mono h) i.length_encode_le

theorem Text.length_encode_le (s : Text) : (encodeString s.content).length ≤ s.bytes.length := by
  have := s.count.length_encode_le
  rw [encodeString, bytes, ← s.counts, List.length_append, List.length_append]
  omega

theorem Entry.length_encode_le (e : Entry) : (encodeEntry e.pair).length ≤ e.bytes.length := by
  have hkey := e.key.length_encode_le
  have hvalue := e.value.length_encode_le
  simp only [encodeEntry, pair, bytes, List.length_append]
  omega

theorem Point.length_encode_le (p : Option Point) :
    (encodePosition (p.map position)).length ≤ (bytes p).length := by
  cases p with
  | none => rfl
  | some p =>
    have hnumber (i : Integer32) :
        (Varint.encode i.1.value.toUInt32.toNat).length ≤ i.1.bytes.length :=
      Integer.length_encode_le_of_le (Nat.mod_le ..)
    have ho := hnumber p.offset
    have hl := hnumber p.line
    have hc := hnumber p.col
    simp only [Option.map_some, encodePosition, position, bytes, List.length_cons,
      List.length_append]
    omega

theorem Series.length_encode_le (p : Series Entry) :
    (Properties.ofList (p.items.map Entry.pair)).encode.length ≤
      (p.bytes Entry.bytes).length := by
  have hpairs : (setEntries (p.items.map Entry.pair)).length ≤ p.count.value := by
    simpa [p.counts] using length_flatMap_setEntries_le (fun e => [e]) (p.items.map Entry.pair)
  have hcount := Integer.length_encode_le_of_le hpairs
  have hset := length_flatMap_setEntries_le encodeEntry (p.items.map Entry.pair)
  have hrow : ((p.items.map Entry.pair).flatMap encodeEntry).length ≤
      (p.items.flatMap Entry.bytes).length :=
    length_flatMap_le fun e _ => e.length_encode_le
  simp only [Properties.encode, Properties.ofList, bytes, List.length_append]
  omega

/-- The program writes a tree in no more bytes than any written form of it has. -/
theorem Tree.length_bytes_le {t : Tree} (ht : t.Counted) :
    t.node.bytes.length ≤ t.bytes.length := by
  induction t using Tree.induction with
  | mk t k p n cs s e rs ih =>
    cases ht with | mk hn hcs =>
    have ht := t.length_encode_le
    have hk := k.length_encode_le
    have hp := p.length_encode_le
    have hcount := n.length_encode_le
    have hchildren : ((cs.map node).flatMap Node.bytes).length ≤ (cs.flatMap bytes).length :=
      length_flatMap_le fun c hc => ih c hc (hcs c hc)
    have hs := Point.length_encode_le s
    have he := Point.length_encode_le e
    have hroles := rs.count.length_encode_le
    have hrow : ((rs.items.map Text.content).flatMap encodeString).length ≤
        (rs.items.flatMap Text.bytes).length :=
      length_flatMap_le fun r _ => r.length_encode_le
    rw [hn] at hcount
    rw [rs.counts] at hroles
    simp only [bytes, bytesAll_eq, node, nodeAll_eq, Node.bytes, Node.bytesAll_eq,
      List.length_map, Series.bytes, List.length_append] at hp ⊢
    omega

end Written

/-! ## Normal forms -/

namespace Node

variable {bytes : Bytes} {n : Node}

/-- Reading bytes as a tree and writing it again puts them in canonical form. The written tree that
these bytes are is unique, so that it makes sense to ask whether they are canonical already. -/
theorem encode?_of_decode (h : Node.decode bytes = .ok n) :
    ∃ written, n.encode? = some written ∧ written.length ≤ bytes.length ∧
      Node.decode written = .ok n ∧
      ∃ t : Written.Tree, t.Counted ∧ t.bytes = bytes ∧ t.node = n ∧
        (∀ u : Written.Tree, u.Counted → u.bytes = bytes → u = t) ∧
        (written = bytes ↔ t.Canonical) := by
  obtain ⟨hlength, t, hcounted, hdepth, rfl, rfl⟩ := decode_eq_ok_iff.1 h
  have hle := Written.Tree.length_bytes_le hcounted
  have hencode := encode?_eq_some_iff.2 ⟨Nat.le_trans hle hlength, rfl⟩
  have hunique (u : Written.Tree) (hu : u.Counted) (hbytes : u.bytes = t.bytes) : u = t :=
    (Written.Tree.bytes_append_inj hu hcounted (congrArg (· ++ []) hbytes)).1
  refine ⟨_, hencode, hle, decode_of_encode? hencode hdepth, t, hcounted, rfl, rfl, hunique, ?_⟩
  constructor
  · intro hbytes
    obtain ⟨u, hu, hcanonical, -, hubytes, -⟩ := exists_canonical_of_encode? hencode
    rw [← hunique u hu (hubytes.trans hbytes)]
    exact hcanonical
  · intro hcanonical
    exact (Written.Tree.bytes_eq hcounted hcanonical).symm

/-- A key that stands twice, once with its length in three bytes, is written once. -/
theorem encode?_of_decode_repeated :
    let repeated : Bytes := [1, 97, 0, 2, 1, 107, 1, 50, 251, 1, 0, 107, 1, 49, 0, 0, 0, 0]
    let once : Bytes := [1, 97, 0, 1, 1, 107, 1, 49, 0, 0, 0, 0]
    ∃ n, Node.decode repeated = .ok n ∧ n.encode? = some once ∧ Node.decode once = .ok n := by
  intro repeated once
  let n : Node := .mk "a" "" (.ofList [("k", "2"), ("k", "1")]) [] none none []
  have h : Node.decode repeated = .ok n := rfl
  obtain ⟨written, hencode, -, hdecode, -⟩ := encode?_of_decode h
  have honce : n.encode? = some once := by decide +kernel
  rw [hencode] at honce
  obtain rfl := Option.some.inj honce
  exact ⟨n, h, hencode, hdecode⟩

end Node

end SyntaxGateway
