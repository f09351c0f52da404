import Mathlib
import SyntaxGateway.Proofs.Query.Parsing
import SyntaxGateway.Proofs.Text.Base64
import SyntaxGateway.Proofs.Tree.Framing
import SyntaxGateway.Proofs.Tree.RoundTrip

/-!
# Batches as texts

A text holds trees when, without the blanks at its ends, it spells a run of frames whose payloads
are the trees (`Holds`). Any other text is refused for the first thing that is wrong with it, looking
at the whole text before any frame, and at all frames before any tree (`Refused`).

**Theorem (`holds_or_refused`).** Decoding gives the trees that a text holds, or the fault for which
it is refused.

**Theorem (`exists_encodeBase64?`).** What is written for trees holds them, also with blanks around
it.
-/

namespace SyntaxGateway

/-! ## Blanks around a text -/

theorem Text.trim_padded {lead s trail : String} (hlead : ∀ c ∈ lead.toList, Text.isBlank c)
    (htrail : ∀ c ∈ trail.toList, Text.isBlank c)
    (hs : ∀ c ∈ s.toList, Text.isBlank c = false) : Text.trim (lead ++ s ++ trail) = s := by
  have hstart : Text.trimStart (lead ++ s ++ trail).toList =
      Text.trimStart (s.toList ++ trail.toList) := by
    rw [String.toList_append, String.toList_append, List.append_assoc]
    exact Query.trimStart_append hlead
  have hend : Text.trimEnd (s.toList ++ trail.toList) = s.toList := by
    have hreverse : ∀ c ∈ trail.toList.reverse, Text.isBlank c := by simpa using htrail
    have hsolid : s.toList.reverse.dropWhile Text.isBlank = s.toList.reverse := by
      rw [List.dropWhile_eq_self_iff]
      intro hpos
      simpa using hs _ (List.mem_reverse.1 (List.getElem_mem hpos))
    rw [Text.trimEnd, List.reverse_append, List.dropWhile_append_of_pos hreverse, hsolid,
      List.reverse_reverse]
  rw [Text.trim, hstart]
  cases hlist : s.toList with
  | nil =>
    rw [List.nil_append, Query.trimStart_of_blanks htrail, ← String.toList_inj, hlist]
    rfl
  | cons c cs =>
    have hc := hs c (hlist ▸ List.mem_cons_self)
    rw [hlist] at hend
    rw [List.cons_append, Query.trimStart_cons hc, ← List.cons_append, hend, ← hlist,
      String.ofList_toList]

namespace Batch

variable {text : String} {bytes : Bytes} {payloads : List Bytes} {trees : List Node}
  {fault : BatchFault}

/-! ## What texts hold -/

/-- The payloads are these trees, in order. -/
def Trees (payloads : List Bytes) (trees : List Node) : Prop :=
  List.Forall₂ (fun payload tree => Node.decode payload = .ok tree) payloads trees

/-- The text is a batch of these trees. -/
inductive Holds (text : String) (trees : List Node) : Prop
  | mk {bytes : Bytes} {payloads : List Bytes} :
      Base64.Spells (Utf8.ofString (Text.trim text)) bytes → Framed bytes payloads →
      Trees payloads trees → Holds text trees

/-- The first thing that is wrong with a text that is no batch: it spells no bytes, the bytes are
not framed, or a payload is no tree. -/
inductive Refused (text : String) : BatchFault → Prop
  | base64 {fault : Base64.Fault} :
      (∀ bytes, ¬Base64.Spells (Utf8.ofString (Text.trim text)) bytes) →
      Refused text (.badBase64 fault)
  | framing {run rest : Bytes} {payloads : List Bytes} {fault : BatchFault} :
      Base64.Spells (Utf8.ofString (Text.trim text)) (run ++ rest) → Framed run payloads →
      Broken run.length rest fault → Refused text fault
  | tree {bytes payload : Bytes} {before after : List Bytes} {trees : List Node}
      {fault : TreeFault} :
      Base64.Spells (Utf8.ofString (Text.trim text)) bytes →
      Framed bytes (before ++ payload :: after) → Trees before trees →
      Node.decode payload = .error fault → Refused text (.badTree before.length fault)

/-! ## Payloads in a row -/

theorem decodeFrom_of_trees {index : Nat} {before : List Node} (h : Trees payloads trees) :
    decodeFrom index before payloads = .ok (before.reverse ++ trees) := by
  induction h generalizing index before with
  | nil => simp [decodeFrom]
  | cons hpayload _ ih => simp [decodeFrom, hpayload, ih]

/-- The first payload that is no tree is reported by its number. -/
theorem decodeFrom_of_fault {index : Nat} {before : List Node} {payload : Bytes}
    {after : List Bytes} {fault : TreeFault} (h : Trees payloads trees)
    (hfault : Node.decode payload = .error fault) :
    decodeFrom index before (payloads ++ payload :: after) =
      .error (.badTree (index + payloads.length) fault) := by
  induction h generalizing index before with
  | nil => simp [decodeFrom, hfault]
  | cons hpayload _ ih =>
    simp only [List.cons_append, decodeFrom, hpayload, ih, List.length_cons]
    rw [Nat.add_assoc, Nat.add_comm 1]

/-- Payloads are trees, or there is a first one that is none. -/
theorem trees_or_fault (payloads : List Bytes) :
    (∃ trees, Trees payloads trees) ∨ ∃ before payload after trees fault,
      payloads = before ++ payload :: after ∧ Trees before trees ∧
        Node.decode payload = .error fault := by
  induction payloads with
  | nil => exact .inl ⟨[], .nil⟩
  | cons payload payloads ih =>
    cases hpayload : Node.decode payload with
    | error fault => exact .inr ⟨[], payload, payloads, [], fault, rfl, .nil, hpayload⟩
    | ok tree =>
      rcases ih with ⟨trees, htrees⟩ | ⟨before, bad, after, trees, fault, rfl, htrees, hfault⟩
      · exact .inl ⟨tree :: trees, .cons hpayload htrees⟩
      · exact .inr ⟨payload :: before, bad, after, tree :: trees, fault, rfl,
          .cons hpayload htrees, hfault⟩

theorem Trees.exists_payload {tree : Node} (h : Trees payloads trees) (htree : tree ∈ trees) :
    ∃ payload ∈ payloads, Node.decode payload = .ok tree := by
  induction h with
  | nil => cases htree
  | cons hpayload _ ih =>
    rcases List.mem_cons.1 htree with rfl | htree
    · exact ⟨_, List.mem_cons_self, hpayload⟩
    · obtain ⟨payload, hmem, hdecode⟩ := ih htree
      exact ⟨payload, List.mem_cons_of_mem _ hmem, hdecode⟩

/-! ## Decoding -/

theorem decode_of_trees (h : Framed bytes payloads) (htrees : Trees payloads trees) :
    decode bytes = .ok trees :=
  bind_eq_ok_iff.2 ⟨payloads, split_of_framed h, decodeFrom_of_trees htrees⟩

theorem decode_of_fault {before : List Bytes} {payload : Bytes} {after : List Bytes}
    {fault : TreeFault} (h : Framed bytes (before ++ payload :: after))
    (htrees : Trees before trees) (hfault : Node.decode payload = .error fault) :
    decode bytes = .error (.badTree before.length fault) := by
  have hdecode : decodeFrom 0 [] (before ++ payload :: after) =
      .error (.badTree (0 + before.length) fault) := decodeFrom_of_fault htrees hfault
  rw [Nat.zero_add] at hdecode
  rw [decode, split_of_framed h]
  exact hdecode

theorem decode_of_broken {run rest : Bytes} (h : Framed run payloads)
    (hrest : Broken run.length rest fault) : decode (run ++ rest) = .error fault := by
  rw [decode, split_of_broken h hrest]
  rfl

theorem decodeBase64_of_spells (h : Base64.Spells (Utf8.ofString (Text.trim text)) bytes) :
    decodeBase64 text = decode bytes := by
  rw [decodeBase64, Base64.decode_eq_ok_iff.2 h]
  rfl

/-- A text holds trees, or it is refused. -/
theorem holds_or_refused (text : String) :
    (∃ trees, Holds text trees ∧ decodeBase64 text = .ok trees) ∨
      ∃ fault, Refused text fault ∧ decodeBase64 text = .error fault := by
  cases hread : Base64.decode (Utf8.ofString (Text.trim text)) with
  | error fault =>
    refine .inr ⟨.badBase64 fault, .base64 fun bytes h => ?_, ?_⟩
    · rw [Base64.decode_eq_ok_iff.2 h] at hread
      cases hread
    · rw [decodeBase64, hread]
      rfl
  | ok bytes =>
    have hspells := Base64.decode_eq_ok_iff.1 hread
    rw [decodeBase64_of_spells hspells]
    -- A fault of the frames hides all faults of the payloads, also of those in front of it.
    obtain ⟨run, payloads, rest, rfl, hrun, hrest⟩ := exists_run bytes
    rcases hrest with rfl | ⟨fault, hbroken⟩
    · rw [List.append_nil] at hspells ⊢
      rcases trees_or_fault payloads with
        ⟨trees, htrees⟩ | ⟨before, payload, after, trees, fault, rfl, htrees, hfault⟩
      · exact .inl ⟨trees, .mk hspells hrun htrees, decode_of_trees hrun htrees⟩
      · exact .inr ⟨_, .tree hspells hrun htrees hfault, decode_of_fault hrun htrees hfault⟩
    · exact .inr ⟨fault, .framing hspells hrun hbroken, decode_of_broken hrun hbroken⟩

theorem decodeBase64_eq_ok_iff : decodeBase64 text = .ok trees ↔ Holds text trees := by
  constructor
  · intro h
    rcases holds_or_refused text with ⟨trees', hholds, h'⟩ | ⟨fault, -, h'⟩
    · rw [h] at h'
      cases h'
      exact hholds
    · rw [h] at h'
      cases h'
  · rintro ⟨hspells, hframed, htrees⟩
    rw [decodeBase64_of_spells hspells, decode_of_trees hframed htrees]

/-! ## What is written for trees -/

/-- The trees can be encoded, and none of them is too deep to be decoded again. -/
def Portable (trees : List Node) : Prop :=
  ∀ tree ∈ trees, (∃ bytes, tree.encode? = some bytes) ∧ tree.depth ≤ maxDepth

theorem portable_singleton {tree : Node} (hbytes : tree.encode? = some bytes)
    (hdepth : tree.depth ≤ maxDepth) : Portable [tree] := by
  intro tree' htree'
  obtain rfl := List.mem_singleton.1 htree'
  exact ⟨⟨bytes, hbytes⟩, hdepth⟩

theorem Portable.append {trees' : List Node} (h : Portable trees) (h' : Portable trees') :
    Portable (trees ++ trees') := by
  intro tree htree
  exact (List.mem_append.1 htree).elim (h tree) (h' tree)

theorem trees_of_encode? (hdepth : ∀ tree ∈ trees, tree.depth ≤ maxDepth)
    (h : trees.map Node.encode? = payloads.map some) : Trees payloads trees := by
  induction trees generalizing payloads with
  | nil =>
    obtain rfl := List.map_eq_nil_iff.1 h.symm
    exact .nil
  | cons tree trees ih =>
    cases payloads with
    | nil => cases h
    | cons payload payloads =>
      obtain ⟨hpayload, hrest⟩ := List.cons.inj h
      obtain ⟨htree, htrees⟩ := List.forall_mem_cons.1 hdepth
      exact .cons (Node.decode_of_encode? hpayload htree) (ih htrees hrest)

/-- The text of a batch holds its trees, whatever blanks stand around it. -/
theorem exists_encodeBase64? (h : Portable trees) :
    ∃ batch, encodeBase64? trees = some batch ∧ ∀ lead trail : String,
      (∀ c ∈ lead.toList, Text.isBlank c) → (∀ c ∈ trail.toList, Text.isBlank c) →
      Holds (lead ++ batch ++ trail) trees := by
  have hencoded : ∀ tree ∈ trees, ∃ bytes, tree.encode? = some bytes :=
    fun tree htree => (h tree htree).1
  obtain ⟨payloads, bytes, hpayloads, hbytes, hframed⟩ := exists_batch hencoded
  refine ⟨Base64.encode bytes, by rw [encodeBase64?, hbytes, Option.map_some],
    fun lead trail hlead htrail => ?_⟩
  have htrim : Text.trim (lead ++ Base64.encode bytes ++ trail) = Base64.encode bytes :=
    Text.trim_padded hlead htrail fun c hc => Base64.isBlank_of_mem_encode hc
  refine .mk ?_ hframed (trees_of_encode? (fun tree htree => (h tree htree).2) hpayloads)
  rw [htrim]
  exact Base64.spells_encode bytes

end Batch

end SyntaxGateway
