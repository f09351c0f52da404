import SyntaxGateway.Proofs.Filter
import SyntaxGateway.Proofs.Parse.Stages

/-!
# How deep trees can be

**Theorem (`decoded_within`).** No path of a decoded tree holds more than `maxDepth` nodes, whatever
the bytes are. Every node that is given for a batch or for a source stands somewhere in a tree that
was decoded for it, with all that hangs below it, so that this holds of it too.

Places tell the paths of a tree (`Within`): on the way to a node there are as many nodes as there
are numbers in its place. A node at a place has the paths of the tree that lead through this place,
each shorter by the way down to it (`Within.of_place`).
-/

namespace SyntaxGateway

namespace Node

variable {trees : List Node} {root n : Node} {p : Place} {levels : Nat}

/-! ## Paths -/

/-- No path from the root down holds more than `levels` nodes. -/
def Within (levels : Nat) (root : Node) : Prop :=
  ∀ p n, Place.node? [root] p = some n → p.length ≤ levels

theorem length_le_of_depthAll_le (h : depthAll trees ≤ levels) (hn : Place.node? trees p = some n) :
    p.length ≤ levels := by
  -- Each number of the place leads into the children of a node, which have one level less.
  induction p generalizing trees levels with
  | nil => exact Nat.zero_le levels
  | cons i path ih =>
    rw [Place.node?_cons] at hn
    obtain ⟨m, hm, hn⟩ := Option.bind_eq_some_iff.1 hn
    have hdepth := depthAll_le_iff.1 h m (List.mem_of_getElem? hm)
    have hpos := m.depth_pos
    split at hn
    · next hnil =>
      subst hnil
      exact Nat.le_trans hpos hdepth
    · obtain ⟨rest, rfl⟩ : ∃ rest, levels = rest + 1 := ⟨levels - 1, by omega⟩
      have hpath := ih (depthAll_le_iff.2 (depth_le_succ_iff.1 hdepth)) hn
      exact Nat.succ_le_succ hpath

/-- Trees with short paths only are not deep. -/
theorem depthAll_le_of_length_le (h : ∀ p n, Place.node? trees p = some n → p.length ≤ levels) :
    depthAll trees ≤ levels := by
  rw [depthAll_le_iff]
  intro c hc
  obtain ⟨i, hi⟩ := List.mem_iff_getElem?.1 hc
  induction levels generalizing trees c i with
  | zero => exact absurd (h [i] c (by rw [Place.node?_singleton, hi])) (by simp)
  | succ levels ih =>
    rw [depth_le_succ_iff]
    intro d hd
    obtain ⟨j, hj⟩ := List.mem_iff_getElem?.1 hd
    refine ih (fun path n hn => ?_) d hd j hj
    have hne : path ≠ [] := by
      rintro rfl
      cases hn
    have hpath := h (i :: path) n (by rw [Place.node?_cons, hi, Option.bind_some, if_neg hne, hn])
    exact Nat.le_of_succ_le_succ hpath

/-- The depth of a tree is the number of nodes on a longest path. -/
theorem depth_le_iff_within : root.depth ≤ levels ↔ Within levels root := by
  have hdepth : root.depth ≤ levels ↔ depthAll [root] ≤ levels := by simp [depthAll]
  rw [hdepth]
  exact ⟨fun h p n => length_le_of_depthAll_le h, depthAll_le_of_length_le⟩

/-- What stands in a tree is no deeper than the tree. -/
theorem Within.of_place (h : Within levels root) (hn : Place.node? [root] p = some n) :
    Within levels n := by
  intro q m hm
  cases q with
  | nil => exact Nat.zero_le levels
  | cons i path =>
    rw [Place.node?_cons] at hm
    obtain ⟨n', hn', hm⟩ := Option.bind_eq_some_iff.1 hm
    -- A place below `n` starts with the only number there is at the top, that of `n` itself.
    obtain rfl : n = n' := by
      rcases i with _ | i
      · exact Option.some.inj hn'
      · cases hn'
    have hp : 0 < p.length := by
      cases p with
      | nil => cases hn
      | cons => exact Nat.succ_pos _
    split at hm
    · next hnil =>
      subst hnil
      exact Nat.le_trans hp (h p n hn)
    · next hne =>
      have hpath := h (p ++ path) m (by rw [Place.node?_append hn hne, hm])
      rw [List.length_append] at hpath
      rw [List.length_cons]
      omega

/-! ## Decoded trees -/

theorem within_of_decode {bytes : Bytes} (h : Node.decode bytes = .ok root) :
    Within maxDepth root := by
  obtain ⟨-, t, -, hdepth, -, rfl⟩ := decode_eq_ok_iff.1 h
  exact depth_le_iff_within.1 hdepth

end Node

theorem Batch.within_of_decodeBase64 {text : String} {trees : List Node}
    (h : Batch.decodeBase64 text = .ok trees) : ∀ tree ∈ trees, tree.Within maxDepth := by
  obtain ⟨-, -, htrees⟩ := Batch.decodeBase64_eq_ok_iff.1 h
  intro tree htree
  obtain ⟨payload, -, hpayload⟩ := htrees.exists_payload htree
  exact Node.within_of_decode hpayload

/-! ## Answers -/

/-- What a query gives stands in the tree. -/
theorem Query.exists_place_of_mem_evaluate {q : Query} {root n : Node} (hsteps : q.steps ≠ [])
    (h : n ∈ q.evaluate root) : ∃ p, Place.node? [root] p = some n := by
  obtain ⟨places, hmatches⟩ := q.exists_matches root hsteps
  have hmem : some n ∈ places.map (Place.node? [root]) :=
    hmatches.nodes_eq ▸ List.mem_map_of_mem h
  obtain ⟨p, -, hp⟩ := List.mem_map.1 hmem
  exact ⟨p, hp⟩

theorem exists_place_of_filterRun {text query : String} {nodes : List Node}
    (h : (FilterRequest.run ⟨text, query⟩).value = .ok nodes) :
    ∃ trees, Batch.decodeBase64 text = .ok trees ∧
      ∀ n ∈ nodes, ∃ tree ∈ trees, ∃ p, Place.node? [tree] p = some n := by
  obtain ⟨trees, q, htrees, hq, rfl⟩ := filterRun_eq_ok h
  refine ⟨trees, htrees, fun n hn => ?_⟩
  obtain ⟨tree, htree, hn⟩ := List.mem_flatMap.1 hn
  exact ⟨tree, htree, Query.exists_place_of_mem_evaluate (Query.steps_ne_nil_of_parse hq) hn⟩

namespace ParseRequest

theorem exists_place_of_nodesOf {r : ParseRequest} {query : Option Query}
    {answer : Service.Answer} {nodes : List Node} (hquery : r.HasQuery query)
    (h : nodesOf query answer = .ok nodes) :
    ∃ bytes root, answer = .ok bytes ∧ Node.decode bytes = .ok root ∧
      ∀ n ∈ nodes, ∃ p, Place.node? [root] p = some n := by
  cases answer with
  | error trouble => cases h
  | ok bytes =>
    cases hdecode : Node.decode bytes with
    | error fault =>
      rw [nodesOf, hdecode] at h
      cases h
    | ok root =>
      rw [nodesOf, hdecode] at h
      cases h
      refine ⟨bytes, root, rfl, hdecode, fun n hn => ?_⟩
      cases query with
      | none =>
        obtain rfl := List.mem_singleton.1 hn
        exact ⟨[0], by simp⟩
      | some q => exact Query.exists_place_of_mem_evaluate hquery.steps_ne_nil hn

theorem exists_place_of_run {client : Service.Client} {r : ParseRequest} {nodes : List Node}
    (h : (r.run client).value.outcome = .ok nodes) :
    ∃ call ∈ (r.run client).value.calls, ∃ bytes root, (client call).value = .ok bytes ∧
      Node.decode bytes = .ok root ∧ ∀ n ∈ nodes, ∃ p, Place.node? [root] p = some n := by
  obtain ⟨f, -, hplan⟩ | ⟨plan, hplan, -, hquery, -⟩ := r.plan_cases
  · rw [(run_of_plan_error client hplan).1] at h
    cases h
  · rw [(run_of_plan_ok client hplan).1] at h ⊢
    exact ⟨plan.call, List.mem_singleton_self _, exists_place_of_nodesOf hquery h⟩

end ParseRequest

/-- A decoded tree is not too deep, and what is given for a batch or a source stands in trees that
were decoded for it. -/
theorem decoded_within :
    (∀ (bytes : Bytes) (root : Node), Node.decode bytes = .ok root → root.Within maxDepth) ∧
      (∀ text query nodes, (FilterRequest.run ⟨text, query⟩).value = .ok nodes →
        ∃ trees, Batch.decodeBase64 text = .ok trees ∧ (∀ tree ∈ trees, tree.Within maxDepth) ∧
          ∀ n ∈ nodes, n.Within maxDepth ∧
            ∃ tree ∈ trees, ∃ p, Place.node? [tree] p = some n) ∧
      ∀ (client : Service.Client) (r : ParseRequest) (nodes : List Node),
        (r.run client).value.outcome = .ok nodes →
        ∃ call ∈ (r.run client).value.calls, ∃ bytes root, (client call).value = .ok bytes ∧
          Node.decode bytes = .ok root ∧ root.Within maxDepth ∧
          ∀ n ∈ nodes, n.Within maxDepth ∧ ∃ p, Place.node? [root] p = some n := by
  refine ⟨fun bytes root => Node.within_of_decode, fun text query nodes h => ?_,
    fun client r nodes h => ?_⟩
  · obtain ⟨trees, htrees, hplace⟩ := exists_place_of_filterRun h
    have hwithin := Batch.within_of_decodeBase64 htrees
    refine ⟨trees, htrees, hwithin, fun n hn => ?_⟩
    obtain ⟨tree, htree, p, hp⟩ := hplace n hn
    exact ⟨(hwithin tree htree).of_place hp, tree, htree, p, hp⟩
  · obtain ⟨call, hcall, bytes, root, hanswer, hdecode, hplace⟩ :=
      ParseRequest.exists_place_of_run h
    have hwithin := Node.within_of_decode hdecode
    refine ⟨call, hcall, bytes, root, hanswer, hdecode, hwithin, fun n hn => ?_⟩
    obtain ⟨p, hp⟩ := hplace n hn
    exact ⟨hwithin.of_place hp, p, hp⟩

/-- A path of 512 nodes is decoded, and all that is found in it for a batch and for a source is no
deeper. -/
theorem decoded_within_chain :
    ∃ bytes batch found given, Node.decode bytes = .ok (Node.chain 511) ∧
      (Node.chain 511).Within maxDepth ∧
      (FilterRequest.run ⟨batch, "//*"⟩).value = .ok found ∧ (∀ n ∈ found, n.Within maxDepth) ∧
      (ParseRequest.run (fun _ => pure (.ok bytes))
        ⟨"x", none, some "python", none, none⟩).value.outcome = .ok given ∧
      ∀ n ∈ given, n.Within maxDepth := by
  obtain ⟨hroot, hfilter, hparse⟩ := decoded_within
  have hdepth : (Node.chain 511).depth ≤ maxDepth := by
    rw [Node.depth_chain]
    decide
  obtain ⟨bytes, hbytes⟩ : ∃ bytes, (Node.chain 511).encode? = some bytes := by
    refine ⟨_, Node.encode?_eq_some_iff.2 ⟨?_, rfl⟩⟩
    rw [Node.length_bytes_chain]
    decide
  have hdecode := Node.decode_of_encode? hbytes hdepth
  obtain ⟨batch, -, hbatch, -⟩ :=
    Batch.exists_decodeBase64 (Batch.portable_singleton hbytes hdepth)
  have hq : Query.parse "//*" = .ok ⟨[⟨.descendant, .any, []⟩]⟩ := rfl
  have hfound := filterRun_of_query hbatch hq
  have hgiven : (ParseRequest.run (fun _ => pure (.ok bytes))
      ⟨"x", none, some "python", none, none⟩).value.outcome = .ok [Node.chain 511] := by
    have hmode : ParseRequest.ModeKnown ⟨"x", none, some "python", none, none⟩ := by
      simp [ParseRequest.ModeKnown]
    have hlanguage : ParseRequest.LanguageResolves ⟨"x", none, some "python", none, none⟩ :=
      ParseRequest.languageResolves_of_named rfl (by decide +kernel)
    rw [ParseRequest.run_of_answer hmode (.blank (by simp)) hlanguage fun _ _ => rfl]
    simp [ParseRequest.nodesOf, hdecode]
  obtain ⟨trees, -, -, hfoundWithin⟩ := hfilter _ _ _ hfound
  obtain ⟨call, -, bytes', root, -, -, -, hgivenWithin⟩ := hparse _ _ _ hgiven
  exact ⟨bytes, batch, _, _, hdecode, hroot _ _ hdecode, hfound,
    fun n hn => (hfoundWithin n hn).1, hgiven, fun n hn => (hgivenWithin n hn).1⟩

end SyntaxGateway
