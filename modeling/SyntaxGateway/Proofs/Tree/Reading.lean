import SyntaxGateway.Proofs.Tree.Written

/-!
# Which bytes are read as a tree

**Theorem (`reads_node`).** With `levels` levels left, the decoder of nodes reads exactly the
written trees that are no deeper, each as the tree that it writes.

**Theorem (`node_eq_tooDeep`).** Every deeper written tree is refused for its depth.

The decoders of the parts come first, each with the written forms that it reads. The number of
levels is charged on the way down only, so siblings have the same number.
-/

namespace SyntaxGateway

open Written hiding Tree

namespace Decoder

/-! ## Parts of a node -/

theorem reads_string : Reads string Text.bytes Text.content := by
  intro source content rest
  simp only [string, bind_eq_ok_iff, Integer.reads_decode.ok_iff, chunkFrom_eq_ok_iff]
  constructor
  · rintro ⟨_, _, ⟨count, rfl, rfl⟩, _, _, ⟨chunk, hchunk, rfl, rfl⟩, h⟩
    rw [List.reverse_nil, List.nil_append] at h
    cases hs : Utf8.toString? chunk with
    | error fault =>
      rw [hs] at h
      cases h
    | ok s =>
      rw [hs] at h
      obtain ⟨rfl, rfl⟩ := pure_eq_ok_iff.1 h
      obtain rfl := Utf8.toString?_eq_ok_iff.1 hs
      exact ⟨⟨count, s, hchunk.symm⟩, by simp [Text.bytes], rfl⟩
  · rintro ⟨⟨count, s, hcount⟩, rfl, rfl⟩
    refine ⟨_, _, ⟨count, List.append_assoc _ _ _, rfl⟩, _, _, ⟨_, hcount.symm, rfl, rfl⟩, ?_⟩
    have hs : Utf8.toString? ([].reverse ++ Utf8.ofString s) = .ok s :=
      Utf8.toString?_eq_ok_iff.2 rfl
    rw [hs]
    rfl

theorem reads_list {α β : Type} {item : Decoder Bytes α} {bytes : β → Bytes} {value : β → α}
    (h : Reads item bytes value) :
    Reads (list item) (Series.bytes bytes) fun s => s.items.map value := by
  intro source as rest
  simp only [list, bind_eq_ok_iff, Integer.reads_decode.ok_iff, h.times]
  constructor
  · rintro ⟨_, _, ⟨count, rfl, rfl⟩, ws, hcount, rfl, rfl⟩
    exact ⟨⟨count, ws, hcount.symm⟩, by simp [Series.bytes], rfl⟩
  · rintro ⟨⟨count, ws, hcount⟩, rfl, rfl⟩
    exact ⟨_, _, ⟨count, List.append_assoc _ _ _, rfl⟩, ws, hcount.symm, rfl, rfl⟩

theorem reads_property : Reads property Entry.bytes Entry.pair := by
  intro source e rest
  simp only [property, bind_eq_ok_iff, reads_string.ok_iff, pure_eq_ok_iff]
  constructor
  · rintro ⟨_, _, ⟨key, rfl, rfl⟩, _, _, ⟨value, rfl, rfl⟩, rfl, rfl⟩
    exact ⟨⟨key, value⟩, by simp [Entry.bytes], rfl⟩
  · rintro ⟨⟨key, value⟩, rfl, rfl⟩
    exact ⟨_, _, ⟨key, List.append_assoc _ _ _, rfl⟩, _, _, ⟨value, rfl, rfl⟩, rfl, rfl⟩

theorem reads_properties :
    Reads properties (Series.bytes Entry.bytes) fun s => .ofList (s.items.map Entry.pair) := by
  intro source p rest
  simp only [properties, bind_eq_ok_iff, (reads_list reads_property).ok_iff, pure_eq_ok_iff]
  constructor
  · rintro ⟨_, _, ⟨s, rfl, rfl⟩, rfl, rfl⟩
    exact ⟨s, rfl, rfl⟩
  · rintro ⟨s, rfl, rfl⟩
    exact ⟨_, _, ⟨s, rfl, rfl⟩, rfl, rfl⟩

theorem reads_decode32 :
    Reads Varint.decode32 (fun i : Integer32 => i.1.bytes) (·.1.value.toUInt32) := by
  intro source n rest
  simp only [Varint.decode32, bind_eq_ok_iff, Integer.reads_decode.ok_iff, Nat.pow_eq]
  constructor
  · rintro ⟨_, _, ⟨i, rfl, rfl⟩, h⟩
    split at h
    · rename_i hi
      obtain ⟨rfl, rfl⟩ := pure_eq_ok_iff.1 h
      exact ⟨⟨i, hi⟩, rfl, rfl⟩
    · cases h
  · rintro ⟨⟨i, hi⟩, rfl, rfl⟩
    refine ⟨_, _, ⟨i, rfl, rfl⟩, ?_⟩
    rw [if_pos hi]
    rfl

theorem reads_position : Reads position Point.bytes (Option.map Point.position) := by
  intro source p rest
  simp only [position, bind_eq_ok_iff, reads_byte.ok_iff]
  constructor
  · rintro ⟨_, _, ⟨tag, rfl, rfl⟩, h⟩
    split at h
    · rename_i htag
      obtain ⟨rfl, rfl⟩ := pure_eq_ok_iff.1 h
      exact ⟨none, by simpa [Point.bytes] using htag, rfl⟩
    split at h
    · rename_i htag
      simp only [bind_eq_ok_iff, reads_decode32.ok_iff, pure_eq_ok_iff] at h
      obtain ⟨_, _, ⟨o, rfl, rfl⟩, _, _, ⟨l, rfl, rfl⟩, _, _, ⟨c, rfl, rfl⟩, rfl, rfl⟩ := h
      refine ⟨some ⟨o, l, c⟩, ?_, rfl⟩
      simpa [Point.bytes] using htag
    · cases h
  · rintro ⟨p, rfl, rfl⟩
    cases p with
    | none => exact ⟨_, _, ⟨0, rfl, rfl⟩, rfl⟩
    | some p =>
      refine ⟨_, _, ⟨1, rfl, rfl⟩, ?_⟩
      obtain ⟨o, l, c⟩ := p
      rw [if_neg (by decide), if_pos (by decide)]
      simp only [bind_eq_ok_iff, reads_decode32.ok_iff, pure_eq_ok_iff]
      exact ⟨_, l.1.bytes ++ (c.1.bytes ++ rest), ⟨o, by simp, rfl⟩, _, _, ⟨l, rfl, rfl⟩, _, _,
        ⟨c, rfl, rfl⟩, rfl, rfl⟩

/-! ## Nodes -/

/-- What is read as a tree with `levels` levels left. -/
abbrev Shallow (levels : Nat) := {t : Written.Tree // t.Counted ∧ t.node.depth ≤ levels}

theorem reads_node (levels : Nat) :
    Reads (node levels) (fun w : Shallow levels => w.1.bytes) fun w => w.1.node := by
  induction levels with
  | zero =>
    intro source tree rest
    simp only [node, bind_eq_ok_iff, throw_apply, reduceCtorEq, and_false, exists_false, false_iff]
    rintro ⟨⟨t, -, hdepth⟩, -⟩
    exact absurd t.node.depth_pos (Nat.not_lt.2 hdepth)
  | succ levels ih =>
    intro source tree rest
    simp only [node, bind_eq_ok_iff, reads_string.ok_iff, reads_properties.ok_iff,
      (reads_list ih).ok_iff, reads_position.ok_iff, (reads_list reads_string).ok_iff,
      pure_eq_ok_iff]
    constructor
    · rintro ⟨_, _, ⟨t, rfl, rfl⟩, _, _, ⟨k, rfl, rfl⟩, _, _, ⟨p, rfl, rfl⟩, _, _,
        ⟨⟨n, cs, hn⟩, rfl, rfl⟩, _, _, ⟨s, rfl, rfl⟩, _, _, ⟨e, rfl, rfl⟩, _, _, ⟨rs, rfl, rfl⟩,
        rfl, rfl⟩
      refine ⟨⟨.mk t k p n (cs.map (·.1)) s e rs, .mk (by simpa using hn) ?_, ?_⟩, ?_, ?_⟩
      · exact List.forall_mem_map.2 fun c _ => c.2.1
      · exact Written.Tree.depth_node_le_succ_iff.2 (List.forall_mem_map.2 fun c _ => c.2.2)
      · simp [Written.Tree.bytes, Written.Tree.bytesAll_eq, Series.bytes]
      · simp [Written.Tree.node, Written.Tree.nodeAll_eq]
    · rintro ⟨⟨t, hcounted, hdepth⟩, rfl, rfl⟩
      cases hcounted with | @mk t k p n cs s e rs hn hcs =>
      have hshallow (c : Written.Tree) (hc : c ∈ cs) : c.Counted ∧ c.node.depth ≤ levels :=
        ⟨hcs c hc, Written.Tree.depth_node_le_succ_iff.1 hdepth c hc⟩
      obtain ⟨cs, rfl⟩ : ∃ ws : List (Shallow levels), ws.map (·.1) = cs :=
        ⟨cs.attachWith _ hshallow, List.attachWith_map_subtype_val hshallow⟩
      have hchildren : (cs.map (·.1)).flatMap Written.Tree.bytes = cs.flatMap (·.1.bytes) :=
        List.flatMap_map ..
      have hnodes : (cs.map (·.1)).map Written.Tree.node = cs.map (·.1.node) := List.map_map
      simp only [Written.Tree.bytes, Written.Tree.bytesAll_eq, Written.Tree.node,
        Written.Tree.nodeAll_eq, List.append_assoc, hchildren, hnodes]
      refine ⟨_, _, ⟨t, rfl, rfl⟩, _, _, ⟨k, rfl, rfl⟩, _, _, ⟨p, rfl, rfl⟩, _, _,
        ⟨⟨n, cs, by simpa using hn⟩, ?_, rfl⟩, _, _, ⟨s, rfl, rfl⟩, _, _, ⟨e, rfl, rfl⟩, _, _,
        ⟨rs, rfl, rfl⟩, rfl, rfl⟩
      exact (List.append_assoc _ _ _).symm

/-- A written tree with too many levels is refused for that, whatever follows. -/
theorem node_eq_tooDeep {t : Written.Tree} {levels : Nat} (ht : t.Counted)
    (hdepth : levels < t.node.depth) (rest : Bytes) :
    node levels (t.bytes ++ rest) = .error (.tooDeep maxDepth) := by
  induction levels generalizing t rest with
  | zero =>
    cases ht with | @mk t k p n cs s e rs hn hcs =>
    simp only [Written.Tree.bytes, List.append_assoc, node]
    rw [bind_of_ok (reads_string.apply t _), bind_of_ok (reads_string.apply k _),
      bind_of_ok (reads_properties.apply p _), throw_apply]
  | succ levels ih =>
    cases ht with | @mk t k p n cs s e rs hn hcs =>
    have hread (c : Written.Tree) (hc : c ∈ cs) :
        (∃ m, ∀ rest, node levels (c.bytes ++ rest) = .ok (m, rest)) ∨
          ∀ rest, node levels (c.bytes ++ rest) = .error (.tooDeep maxDepth) := by
      by_cases hshallow : c.node.depth ≤ levels
      · exact .inl ⟨_, fun rest => (reads_node levels).apply ⟨c, hcs c hc, hshallow⟩ rest⟩
      · exact .inr fun rest => ih (hcs c hc) (Nat.lt_of_not_le hshallow) rest
    have hfails : ∃ c ∈ cs, ∀ rest,
        node levels (c.bytes ++ rest) = .error (.tooDeep maxDepth) := by
      by_contra! hnone
      refine absurd hdepth (Nat.not_lt.2 (Written.Tree.depth_node_le_succ_iff.2 fun c hc => ?_))
      by_contra! hdeep
      obtain ⟨rest, hne⟩ := hnone c hc
      exact hne (ih (hcs c hc) hdeep rest)
    have hchildren (rest : Bytes) :
        list (node levels) (n.bytes ++ (cs.flatMap Written.Tree.bytes ++ rest)) =
          .error (.tooDeep maxDepth) := by
      rw [list, bind_of_ok (Integer.reads_decode.apply n _), hn]
      exact times_eq_error hread hfails rest
    simp only [Written.Tree.bytes, Written.Tree.bytesAll_eq, List.append_assoc, node]
    rw [bind_of_ok (reads_string.apply t _), bind_of_ok (reads_string.apply k _),
      bind_of_ok (reads_properties.apply p _), bind_of_error (hchildren _)]

end Decoder

/-! ## Whole sources -/

theorem Decoder.run_eq_ok_iff {α : Type} {decoder : Decoder Bytes α} {source : Bytes} {a : α} :
    run decoder source = .ok a ↔ decoder source = .ok (a, []) := by
  unfold run
  cases decoder source with
  | error fault => simp
  | ok taken =>
    obtain ⟨b, rest⟩ := taken
    cases rest <;> simp

theorem Node.decode_eq_of_length_le {bytes : Bytes} (h : bytes.length ≤ maxTreeBytes) :
    Node.decode bytes = (Decoder.run (Decoder.node maxDepth) bytes).mapError .badEncoding := by
  unfold Node.decode
  exact if_neg (Nat.not_lt.2 h)

theorem Node.decode_eq_tooLarge {bytes : Bytes} (h : maxTreeBytes < bytes.length) :
    Node.decode bytes = .error (.tooLarge bytes.length) := by
  unfold Node.decode
  exact if_pos h

/-- A byte string is read as a tree when a written tree that is neither too long nor too deep has
these bytes. -/
theorem Node.decode_eq_ok_iff {bytes : Bytes} {n : Node} :
    Node.decode bytes = .ok n ↔ bytes.length ≤ maxTreeBytes ∧
      ∃ t : Written.Tree, t.Counted ∧ t.node.depth ≤ maxDepth ∧ t.bytes = bytes ∧ t.node = n := by
  constructor
  · intro h
    by_cases hlength : bytes.length ≤ maxTreeBytes
    · rw [decode_eq_of_length_le hlength] at h
      cases hrun : Decoder.run (Decoder.node maxDepth) bytes with
      | error fault =>
        rw [hrun] at h
        cases h
      | ok m =>
        rw [hrun] at h
        cases h
        obtain ⟨⟨t, hcounted, hdepth⟩, hbytes, hnode⟩ :=
          (Decoder.reads_node maxDepth).ok_iff.1 (Decoder.run_eq_ok_iff.1 hrun)
        rw [List.append_nil] at hbytes
        exact ⟨hlength, t, hcounted, hdepth, hbytes.symm, hnode⟩
    · rw [decode_eq_tooLarge (Nat.lt_of_not_le hlength)] at h
      cases h
  · rintro ⟨hlength, t, hcounted, hdepth, rfl, rfl⟩
    have hread := (Decoder.reads_node maxDepth).apply ⟨t, hcounted, hdepth⟩ []
    rw [List.append_nil] at hread
    rw [decode_eq_of_length_le hlength, Decoder.run_eq_ok_iff.2 hread]
    rfl

/-- Where only the depth is wrong, the depth is what is reported. -/
theorem Node.decode_eq_tooDeep {t : Written.Tree} (hcounted : t.Counted)
    (hdepth : maxDepth < t.node.depth) (hlength : t.bytes.length ≤ maxTreeBytes) :
    Node.decode t.bytes = .error (.badEncoding (.tooDeep maxDepth)) := by
  have hread := Decoder.node_eq_tooDeep hcounted hdepth []
  rw [List.append_nil] at hread
  rw [decode_eq_of_length_le hlength, Decoder.run, hread]
  rfl

end SyntaxGateway
