import SyntaxGateway.Proofs.Tree.Cursor
import SyntaxGateway.Proofs.Tree.Reading

/-!
# Trees that are written and read again

**Theorem (`Node.decode_encode?`).** A tree is encoded exactly when its bytes are not too many. The
encoding is read as the same tree when no path of the tree is too long, and refused for its depth
otherwise. It makes no difference whether it is read from a list or from a packed array.

What the program writes is one of the written trees, the canonical one: every integer is in its
shortest form and the keys of every map increase (`Canonical`).
-/

namespace SyntaxGateway

/-! ## What the program writes -/

theorem Node.bytesAll_eq (cs : List Node) : Node.bytesAll cs = cs.flatMap Node.bytes := by
  induction cs with
  | nil => rfl
  | cons c cs ih => rw [Node.bytesAll, ih, List.flatMap_cons]

theorem encodeString_length_pos (s : String) : 0 < (encodeString s).length := by
  have := Varint.length_encode_pos (Utf8.ofString s).length
  rw [encodeString, List.length_append]
  omega

theorem encodeEntry_length_pos (e : String × String) : 0 < (encodeEntry e).length := by
  have := encodeString_length_pos e.1
  rw [encodeEntry, List.length_append]
  omega

theorem Node.bytes_length_pos (n : Node) : 0 < n.bytes.length := by
  cases n with | mk t k p cs s e rs =>
  have := encodeString_length_pos t
  rw [Node.bytes, List.length_append]
  omega

namespace Written

variable {α β : Type}

/-! ## Canonical written trees -/

/-- Nothing in the encoding could be shorter or stand in another order. -/
structure Tree.Canonical (t : Tree) : Prop where
  shortest : ∀ i ∈ t.integers, i.IsShortest
  increasing : ∀ keys ∈ t.keys, keys.Pairwise fun k l => Utf8.ofString k < Utf8.ofString l

theorem Tree.canonical_mk {t k p n cs s e rs} :
    (mk t k p n cs s e rs).Canonical ↔
      t.count.IsShortest ∧ k.count.IsShortest ∧
      ((∀ i ∈ p.integers Entry.integers, i.IsShortest) ∧
        (p.items.map (·.key.content)).Pairwise (· < ·)) ∧
      n.IsShortest ∧ (∀ c ∈ cs, c.Canonical) ∧
      (∀ i ∈ Point.integers s, i.IsShortest) ∧ (∀ i ∈ Point.integers e, i.IsShortest) ∧
      ∀ i ∈ rs.integers fun r => [r.count], i.IsShortest := by
  constructor
  · rintro ⟨hshort, hkeys⟩
    simp only [integers, integersAll_eq, keys, keysAll_eq, List.forall_mem_cons,
      List.forall_mem_append, List.mem_flatMap, Utf8.ofString_lt_iff] at hshort hkeys
    obtain ⟨ht, hk, hp, hn, hcs, hs, he, hrs⟩ := hshort
    refine ⟨ht, hk, ⟨hp, hkeys.1⟩, hn, fun c hc => ?_, hs, he, hrs⟩
    have hsorted : ∀ ks ∈ c.keys, ks.Pairwise (· < ·) := fun ks hks => hkeys.2 ks ⟨c, hc, hks⟩
    exact ⟨fun i hi => hcs i ⟨c, hc, hi⟩, by simpa only [Utf8.ofString_lt_iff] using hsorted⟩
  · rintro ⟨ht, hk, ⟨hp, hkeys⟩, hn, hcs, hs, he, hrs⟩
    constructor
    · simp only [integers, integersAll_eq, List.forall_mem_cons, List.forall_mem_append,
        List.mem_flatMap]
      exact ⟨ht, hk, hp, hn, fun i ⟨c, hc, hi⟩ => (hcs c hc).shortest i hi, hs, he, hrs⟩
    · simp only [keys, keysAll_eq, List.forall_mem_cons, List.mem_flatMap]
      exact ⟨by simpa only [Utf8.ofString_lt_iff] using hkeys,
        fun ks ⟨c, hc, hks⟩ => (hcs c hc).increasing ks hks⟩

/-! ## The bytes of canonical trees -/

theorem Text.bytes_eq {s : Text} (h : s.count.IsShortest) : s.bytes = encodeString s.content := by
  rw [bytes, Integer.isShortest_iff.1 h, s.counts]
  rfl

theorem Entry.bytes_eq {e : Entry} (h : ∀ i ∈ e.integers, i.IsShortest) :
    e.bytes = encodeEntry e.pair := by
  rw [bytes, Text.bytes_eq (h _ (by simp [integers])), Text.bytes_eq (h _ (by simp [integers]))]
  rfl

theorem Series.bytes_eq {item : β → Bytes} {integers : β → List Integer} {value : β → α}
    {write : α → Bytes} {s : Series β}
    (hitem : ∀ w, (∀ i ∈ integers w, i.IsShortest) → item w = write (value w))
    (h : ∀ i ∈ s.integers integers, i.IsShortest) :
    s.bytes item =
      Varint.encode (s.items.map value).length ++ (s.items.map value).flatMap write := by
  obtain ⟨hcount, hitems⟩ := List.forall_mem_cons.1 h
  have hrow : s.items.flatMap item = (s.items.map value).flatMap write := by
    rw [List.flatMap_map]
    refine List.flatMap_congr fun w hw => hitem w fun i hi => ?_
    exact hitems i (List.mem_flatMap.2 ⟨w, hw, hi⟩)
  rw [bytes, Integer.isShortest_iff.1 hcount, s.counts, hrow, List.length_map]

theorem Series.bytes_eq_encode {p : Series Entry}
    (h : ∀ i ∈ p.integers Entry.integers, i.IsShortest)
    (hkeys : (p.items.map (·.key.content)).Pairwise (· < ·)) :
    p.bytes Entry.bytes = (Properties.ofList (p.items.map Entry.pair)).encode := by
  have hsorted : (p.items.map Entry.pair).Pairwise (·.1 < ·.1) := by
    rw [List.pairwise_map] at hkeys ⊢
    exact hkeys
  rw [bytes_eq (fun _ => Entry.bytes_eq) h, Properties.encode, Properties.entries_ofList hsorted]

theorem Point.bytes_eq {p : Option Point} (h : ∀ i ∈ integers p, i.IsShortest) :
    bytes p = encodePosition (p.map position) := by
  cases p with
  | none => rfl
  | some p =>
    have hnumber (i : Integer32) (hi : i.1.IsShortest) :
        i.1.bytes = Varint.encode i.1.value.toUInt32.toNat := by
      have hvalue : i.1.value.toUInt32.toNat = i.1.value := by
        change (UInt32.ofNat _).toNat = _
        rw [UInt32.toNat_ofNat', Nat.mod_eq_of_lt i.2]
      rw [hvalue, Integer.isShortest_iff.1 hi]
    rw [bytes, hnumber _ (h _ (by simp [integers])), hnumber _ (h _ (by simp [integers])),
      hnumber _ (h _ (by simp [integers]))]
    rfl

/-- A canonical written tree has the bytes that the program writes. -/
theorem Tree.bytes_eq {t : Tree} (ht : t.Counted) (h : t.Canonical) : t.bytes = t.node.bytes := by
  induction t using Tree.induction with
  | mk t k p n cs s e rs ih =>
    cases ht with | mk hn hcs =>
    obtain ⟨ht, hk, ⟨hp, hkeys⟩, hnshort, hcanonical, hs, he, hrs⟩ := canonical_mk.1 h
    have hchildren : cs.flatMap bytes = (cs.map node).flatMap Node.bytes := by
      rw [List.flatMap_map]
      exact List.flatMap_congr fun c hc => ih c hc (hcs c hc) (hcanonical c hc)
    have hrole (r : Text) (hr : ∀ i ∈ [r.count], i.IsShortest) :
        r.bytes = encodeString r.content := Text.bytes_eq (hr _ List.mem_cons_self)
    rw [bytes, bytesAll_eq, node, nodeAll_eq, Node.bytes, Node.bytesAll_eq, List.length_map,
      Text.bytes_eq ht, Text.bytes_eq hk, Series.bytes_eq_encode hp hkeys,
      Integer.isShortest_iff.1 hnshort, hn, hchildren, Point.bytes_eq hs, Point.bytes_eq he,
      Series.bytes_eq hrole hrs]

/-! ## Every tree has one -/

theorem Integer.exists_isShortest {n : Nat} (h : n < 256 ^ 8) :
    ∃ i : Integer, i.value = n ∧ i.IsShortest := by
  obtain ⟨i, rfl, hbytes⟩ := exists_bytes_eq_encode h
  exact ⟨i, rfl, isShortest_iff.2 hbytes⟩

theorem Text.exists_shortest {s : String} (h : (encodeString s).length < 256 ^ 8) :
    ∃ t : Text, t.content = s ∧ t.count.IsShortest := by
  have hcontent : (Utf8.ofString s).length < 256 ^ 8 := by
    simp only [encodeString, List.length_append] at h
    omega
  obtain ⟨i, hi, hshort⟩ := Integer.exists_isShortest hcontent
  exact ⟨⟨i, s, hi⟩, rfl, hshort⟩

theorem Entry.exists_shortest {e : String × String}
    (h : (encodeEntry e).length < 256 ^ 8) :
    ∃ w : Entry, w.pair = e ∧ ∀ i ∈ w.integers, i.IsShortest := by
  rw [encodeEntry, List.length_append] at h
  obtain ⟨k, hk, hkshort⟩ := Text.exists_shortest (s := e.1) (by omega)
  obtain ⟨v, hv, hvshort⟩ := Text.exists_shortest (s := e.2) (by omega)
  exact ⟨⟨k, v⟩, by rw [pair, hk, hv], by simp [integers, hkshort, hvshort]⟩

/-- Where each of some values has a good form, so has their row. -/
theorem exists_map_eq {value : β → α} {good : β → Prop} {as : List α}
    (h : ∀ a ∈ as, ∃ w, value w = a ∧ good w) :
    ∃ ws : List β, ws.map value = as ∧ ∀ w ∈ ws, good w := by
  induction as with
  | nil => exact ⟨[], rfl, by simp⟩
  | cons a as ih =>
    obtain ⟨ha, has⟩ := List.forall_mem_cons.1 h
    obtain ⟨w, rfl, hw⟩ := ha
    obtain ⟨ws, rfl, hws⟩ := ih has
    exact ⟨w :: ws, rfl, List.forall_mem_cons.2 ⟨hw, hws⟩⟩

/-- Bytes that are written for values in a row bound those of each value and, where each value has
some, the number of values. -/
theorem length_flatMap_lt {write : α → Bytes} {as : List α} {bound : Nat}
    (hwrite : ∀ a, 0 < (write a).length) (h : (as.flatMap write).length < bound) :
    as.length < bound ∧ ∀ a ∈ as, (write a).length < bound := by
  induction as generalizing bound with
  | nil => exact ⟨h, by simp⟩
  | cons a as ih =>
    rw [List.flatMap_cons, List.length_append] at h
    have hpos := hwrite a
    have hrest : (as.flatMap write).length < bound - (write a).length := by omega
    obtain ⟨hlength, heach⟩ := ih hrest
    rw [List.length_cons, List.forall_mem_cons]
    exact ⟨by omega, by omega, fun b hb => by have := heach b hb; omega⟩

theorem Series.exists_shortest {value : β → α} {integers : β → List Integer} {write : α → Bytes}
    {as : List α} (hwrite : ∀ a, 0 < (write a).length)
    (hitem : ∀ a, (write a).length < 256 ^ 8 →
      ∃ w, value w = a ∧ ∀ i ∈ integers w, i.IsShortest)
    (h : (as.flatMap write).length < 256 ^ 8) :
    ∃ s : Series β, s.items.map value = as ∧ ∀ i ∈ s.integers integers, i.IsShortest := by
  obtain ⟨hlength, heach⟩ := length_flatMap_lt hwrite h
  obtain ⟨i, hi, hshort⟩ := Integer.exists_isShortest hlength
  obtain ⟨ws, rfl, hws⟩ := exists_map_eq fun a ha => hitem a (heach a ha)
  rw [List.length_map] at hi
  refine ⟨⟨i, ws, hi⟩, rfl, List.forall_mem_cons.2 ⟨hshort, fun j hj => ?_⟩⟩
  obtain ⟨w, hw, hj⟩ := List.mem_flatMap.1 hj
  exact hws w hw j hj

theorem Point.exists_shortest (p : Option Position) :
    ∃ q : Option Point, q.map position = p ∧ ∀ i ∈ integers q, i.IsShortest := by
  cases p with
  | none => exact ⟨none, rfl, by simp [integers]⟩
  | some p =>
    have hnumber (n : UInt32) : ∃ i : Integer32, i.1.value.toUInt32 = n ∧ i.1.IsShortest := by
      have hn : n.toNat < 2 ^ 32 := n.toNat_lt
      obtain ⟨i, hi, hshort⟩ := Integer.exists_isShortest (Nat.lt_trans hn (by decide))
      refine ⟨⟨i, hi ▸ hn⟩, ?_, hshort⟩
      rw [hi]
      exact UInt32.ofNat_toNat
    obtain ⟨o, ho, hoshort⟩ := hnumber p.offset
    obtain ⟨l, hl, hlshort⟩ := hnumber p.line
    obtain ⟨c, hc, hcshort⟩ := hnumber p.col
    refine ⟨some ⟨o, l, c⟩, ?_, by simp [integers, hoshort, hlshort, hcshort]⟩
    rw [Option.map_some, position, ho, hl, hc]

/-- Every tree that is not too large for the lengths in it has a canonical written form. -/
theorem Tree.exists_canonical (n : Node) (h : n.bytes.length < 256 ^ 8) :
    ∃ t : Tree, t.Counted ∧ t.Canonical ∧ t.node = n := by
  induction n using Node.induction with | node n ih =>
  obtain ⟨t, k, p, cs, s, e, rs⟩ := n
  simp only [Node.bytes, Node.bytesAll_eq, Properties.encode, List.length_append] at h
  obtain ⟨t, rfl, ht⟩ := Text.exists_shortest (s := t) (by omega)
  obtain ⟨k, rfl, hk⟩ := Text.exists_shortest (s := k) (by omega)
  have hentries : (p.entries.flatMap encodeEntry).length < 256 ^ 8 := by omega
  have hchildren : (cs.flatMap Node.bytes).length < 256 ^ 8 := by omega
  have hroles : (rs.flatMap encodeString).length < 256 ^ 8 := by omega
  obtain ⟨q, hq, hqshort⟩ := Series.exists_shortest encodeEntry_length_pos
    (fun _ => Entry.exists_shortest) hentries
  obtain ⟨hlength, heach⟩ := length_flatMap_lt Node.bytes_length_pos hchildren
  obtain ⟨m, hm, hmshort⟩ := Integer.exists_isShortest hlength
  have hchild (c : Node) (hc : c ∈ cs) : ∃ t : Tree, t.node = c ∧ t.Counted ∧ t.Canonical := by
    obtain ⟨t, hcounted, hcanonical, hnode⟩ := ih c hc (heach c hc)
    exact ⟨t, hnode, hcounted, hcanonical⟩
  obtain ⟨ds, rfl, hds⟩ := exists_map_eq hchild
  obtain ⟨s, rfl, hs⟩ := Point.exists_shortest s
  obtain ⟨e, rfl, he⟩ := Point.exists_shortest e
  have hrole (r : String) (hr : (encodeString r).length < 256 ^ 8) :
      ∃ w : Text, w.content = r ∧ ∀ i ∈ [w.count], i.IsShortest := by
    obtain ⟨w, hw, hshort⟩ := Text.exists_shortest hr
    exact ⟨w, hw, by simpa using hshort⟩
  obtain ⟨qs, rfl, hqs⟩ := Series.exists_shortest encodeString_length_pos hrole hroles
  have hkeys : (q.items.map (·.key.content)).Pairwise (· < ·) := by
    have hsorted := p.sorted
    rw [← hq, List.pairwise_map] at hsorted
    exact List.pairwise_map.2 hsorted
  refine ⟨.mk t k q m ds s e qs, .mk (by rw [hm, List.length_map]) fun c hc => (hds c hc).1, ?_, ?_⟩
  · exact canonical_mk.2
      ⟨ht, hk, ⟨hqshort, hkeys⟩, hmshort, fun c hc => (hds c hc).2, hs, he, hqs⟩
  · rw [node, nodeAll_eq, hq, Properties.ofList_entries]

end Written

/-! ## Encoding and decoding -/

namespace Node

theorem encode?_eq_some_iff {n : Node} {bytes : Bytes} :
    n.encode? = some bytes ↔ n.bytes.length ≤ maxTreeBytes ∧ n.bytes = bytes := by
  unfold encode?
  simp

/-- A tree that is not too large is written canonically. -/
theorem exists_canonical_of_encode? {n : Node} {bytes : Bytes} (h : n.encode? = some bytes) :
    ∃ t : Written.Tree, t.Counted ∧ t.Canonical ∧ t.node = n ∧ t.bytes = bytes ∧
      bytes.length ≤ maxTreeBytes := by
  obtain ⟨hlength, rfl⟩ := encode?_eq_some_iff.1 h
  obtain ⟨t, hcounted, hcanonical, rfl⟩ :=
    Written.Tree.exists_canonical n (Nat.lt_of_le_of_lt hlength (by decide))
  exact ⟨t, hcounted, hcanonical, rfl, t.bytes_eq hcounted hcanonical, hlength⟩

theorem decode_of_encode? {n : Node} {bytes : Bytes} (h : n.encode? = some bytes)
    (hdepth : n.depth ≤ maxDepth) : Node.decode bytes = .ok n := by
  obtain ⟨t, hcounted, -, rfl, rfl, hlength⟩ := exists_canonical_of_encode? h
  exact decode_eq_ok_iff.2 ⟨hlength, t, hcounted, hdepth, rfl, rfl⟩

theorem tooDeep_of_encode? {n : Node} {bytes : Bytes} (h : n.encode? = some bytes)
    (hdepth : maxDepth < n.depth) :
    Node.decode bytes = .error (.badEncoding (.tooDeep maxDepth)) := by
  obtain ⟨t, hcounted, -, rfl, rfl, hlength⟩ := exists_canonical_of_encode? h
  exact decode_eq_tooDeep hcounted hdepth hlength

/-- A tree is encoded if and only if its bytes are not too many. Reading the encoding gives the tree
back, unless a path of it is too long: then this is what is reported. The same is read from a packed
array. -/
theorem decode_encode? (n : Node) :
    ((∃ bytes, n.encode? = some bytes) ↔ n.bytes.length ≤ maxTreeBytes) ∧
      ∀ bytes, n.encode? = some bytes →
        (n.depth ≤ maxDepth → Node.decode bytes = .ok n) ∧
        (maxDepth < n.depth → Node.decode bytes = .error (.badEncoding (.tooDeep maxDepth))) ∧
        Node.decode (ByteCursor.ofByteArray ⟨bytes.toArray⟩) = Node.decode bytes := by
  constructor
  · simp [encode?_eq_some_iff]
  · intro bytes h
    exact ⟨decode_of_encode? h, tooDeep_of_encode? h, decode_ofByteArray ⟨bytes.toArray⟩⟩

/-- A single path of `levels + 1` nodes without any text. -/
def chain : (levels : Nat) → Node
  | 0 => default
  | levels + 1 => .mk "" "" default [chain levels] none none []

theorem depth_chain (levels : Nat) : (chain levels).depth = levels + 1 := by
  induction levels with
  | zero => rfl
  | succ levels ih => simp [chain, depth, depthAll, ih, Nat.add_comm]

theorem length_bytes_chain (levels : Nat) : (chain levels).bytes.length = 7 * (levels + 1) := by
  induction levels with
  | zero => decide
  | succ levels ih =>
    have hnone : (default : Properties).entries = [] := rfl
    simp [chain, bytes, bytesAll, ih, hnone, encodeString, Properties.encode, encodePosition,
      Varint.encode, Utf8.ofString, Utf8.encode]
    omega

/-- The limit on depth is met by a path of 512 nodes and missed by one more. -/
theorem decode_encode?_chain :
    (∃ bytes, (chain 511).encode? = some bytes ∧ Node.decode bytes = .ok (chain 511) ∧
        Node.decode (ByteCursor.ofByteArray ⟨bytes.toArray⟩) = .ok (chain 511)) ∧
      ∃ bytes, (chain 512).encode? = some bytes ∧
        Node.decode bytes = .error (.badEncoding (.tooDeep maxDepth)) := by
  obtain ⟨hsome, hdecode⟩ := decode_encode? (chain 511)
  obtain ⟨bytes, h⟩ := hsome.2 (by rw [length_bytes_chain]; decide)
  obtain ⟨hsome', hdecode'⟩ := decode_encode? (chain 512)
  obtain ⟨bytes', h'⟩ := hsome'.2 (by rw [length_bytes_chain]; decide)
  obtain ⟨hread, -, hpacked⟩ := hdecode bytes h
  have hchain := hread (by rw [depth_chain]; decide)
  exact ⟨⟨bytes, h, hchain, hpacked.trans hchain⟩,
    bytes', h', (hdecode' bytes' h').2.1 (by rw [depth_chain]; decide)⟩

end Node

end SyntaxGateway
