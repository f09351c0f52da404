import SyntaxGateway.Filter
import SyntaxGateway.Proofs.Query.Rendering
import SyntaxGateway.Proofs.Query.Selection
import SyntaxGateway.Proofs.Tree.Batches

/-!
# Filtering a batch

**Theorem (`run_batch`).** Filtering the text of a batch gives the matches of the query in its
trees, tree after tree, or the fault of the query. So batches that are joined give their matches one
after the other. A text that is no batch is refused for the first thing that is wrong with it,
whatever the query is, and nothing is given of the trees before that place.

The batch is decoded as a whole before the query is read, so there are three cases: the text is
refused (`filterRun_of_refused`), the query cannot be read (`filterRun_of_fault`), or all trees are
searched (`filterRun_of_query`).
-/

namespace SyntaxGateway

variable {text query : String} {trees trees' nodes : List Node} {q : Query}

/-! ## Matches in trees -/

namespace Query

/-- The nodes are the matches of the query in each of the trees, tree after tree. -/
def Finds (q : Query) (trees nodes : List Node) : Prop :=
  ∃ parts : List (List Node),
    List.Forall₂ (fun tree part => ∃ places, q.Matches tree places part) trees parts ∧
      nodes = parts.flatten

theorem steps_ne_nil_of_parse (h : Query.parse query = .ok q) : q.steps ≠ [] :=
  (writable_of_parse h).nonempty

theorem finds_evaluateAll (h : q.steps ≠ []) (trees : List Node) :
    q.Finds trees (q.evaluateAll trees) := by
  refine ⟨trees.map q.evaluate, ?_, List.flatMap_def⟩
  induction trees with
  | nil => exact .nil
  | cons tree trees ih => exact .cons (q.exists_matches tree h) ih

theorem evaluateAll_append (q : Query) (trees trees' : List Node) :
    q.evaluateAll (trees ++ trees') = q.evaluateAll trees ++ q.evaluateAll trees' :=
  List.flatMap_append

end Query

/-! ## The three cases -/

theorem filterRun_of_refused {fault : BatchFault} (h : Batch.decodeBase64 text = .error fault) :
    (FilterRequest.run ⟨text, query⟩).value = .error (.ofBatch fault) := by
  simp [FilterRequest.run, h]

theorem filterRun_of_fault {fault : Query.Fault} (htrees : Batch.decodeBase64 text = .ok trees)
    (hfault : Query.parse query = .error fault) :
    (FilterRequest.run ⟨text, query⟩).value = .error (.ofQuery fault) := by
  simp [FilterRequest.run, htrees, hfault]

theorem filterRun_of_query (htrees : Batch.decodeBase64 text = .ok trees)
    (hq : Query.parse query = .ok q) :
    (FilterRequest.run ⟨text, query⟩).value = .ok (q.evaluateAll trees) := by
  simp [FilterRequest.run, htrees, hq]

/-- What is found is found in all trees that the text holds. -/
theorem filterRun_eq_ok (h : (FilterRequest.run ⟨text, query⟩).value = .ok nodes) :
    ∃ trees q, Batch.decodeBase64 text = .ok trees ∧ Query.parse query = .ok q ∧
      nodes = q.evaluateAll trees := by
  cases htrees : Batch.decodeBase64 text with
  | error fault =>
    rw [filterRun_of_refused htrees] at h
    cases h
  | ok trees =>
    cases hq : Query.parse query with
    | error fault =>
      rw [filterRun_of_fault htrees hq] at h
      cases h
    | ok q =>
      rw [filterRun_of_query htrees hq] at h
      cases h
      exact ⟨trees, q, rfl, rfl, rfl⟩

/-- The matches in trees that stand one after the other are joined. -/
theorem filterRun_append {batch batch' : String} (h : Batch.decodeBase64 batch = .ok trees)
    (h' : Batch.decodeBase64 batch' = .ok trees')
    (htext : Batch.decodeBase64 text = .ok (trees ++ trees')) :
    (FilterRequest.run ⟨text, query⟩).value = do
      let nodes ← (FilterRequest.run ⟨batch, query⟩).value
      let nodes' ← (FilterRequest.run ⟨batch', query⟩).value
      return nodes ++ nodes' := by
  cases hq : Query.parse query with
  | error fault =>
    rw [filterRun_of_fault htext hq, filterRun_of_fault h hq]
    rfl
  | ok q =>
    rw [filterRun_of_query htext hq, filterRun_of_query h hq, filterRun_of_query h' hq,
      q.evaluateAll_append]
    rfl

/-! ## Batches -/

/-- The text of a batch is decoded to its trees, whatever blanks stand around it. -/
theorem Batch.exists_decodeBase64 (h : Batch.Portable trees) :
    ∃ batch, Batch.encodeBase64? trees = some batch ∧ Batch.decodeBase64 batch = .ok trees ∧
      ∀ lead trail : String, (∀ c ∈ lead.toList, Text.isBlank c) →
        (∀ c ∈ trail.toList, Text.isBlank c) →
        Batch.decodeBase64 (lead ++ batch ++ trail) = .ok trees := by
  obtain ⟨batch, hbatch, hholds⟩ := Batch.exists_encodeBase64? h
  refine ⟨batch, hbatch, ?_, fun lead trail hlead htrail =>
    Batch.decodeBase64_eq_ok_iff.2 (hholds lead trail hlead htrail)⟩
  have hplain := Batch.decodeBase64_eq_ok_iff.2 (hholds "" "" (by simp) (by simp))
  rwa [String.empty_append, String.append_empty] at hplain

/-- Trees that can be encoded and decoded make a batch in which a query finds its matches, and which
can be joined with others. A text that holds no trees is refused for the first thing that is wrong
with it. Nothing else is found than the matches in all trees of a text. -/
theorem run_batch :
    (∀ trees, Batch.Portable trees → ∃ batch, Batch.encodeBase64? trees = some batch ∧
      ∀ lead trail query : String, (∀ c ∈ lead.toList, Text.isBlank c) →
        (∀ c ∈ trail.toList, Text.isBlank c) →
        (∀ fault, Query.parse query = .error fault →
          (FilterRequest.run ⟨lead ++ batch ++ trail, query⟩).value = .error (.ofQuery fault)) ∧
        ∀ q, Query.parse query = .ok q → ∃ nodes,
          (FilterRequest.run ⟨lead ++ batch ++ trail, query⟩).value = .ok nodes ∧
            q.Finds trees nodes) ∧
      (∀ trees trees', Batch.Portable trees → Batch.Portable trees' → ∃ batch batch' whole,
        Batch.encodeBase64? trees = some batch ∧ Batch.encodeBase64? trees' = some batch' ∧
          Batch.encodeBase64? (trees ++ trees') = some whole ∧
          ∀ query, (FilterRequest.run ⟨whole, query⟩).value = do
            let nodes ← (FilterRequest.run ⟨batch, query⟩).value
            let nodes' ← (FilterRequest.run ⟨batch', query⟩).value
            return nodes ++ nodes') ∧
      (∀ text, (¬∃ trees, Batch.Holds text trees) → ∃ fault, Batch.Refused text fault ∧
        ∀ query, (FilterRequest.run ⟨text, query⟩).value = .error (.decode fault.message)) ∧
      ∀ text query nodes, (FilterRequest.run ⟨text, query⟩).value = .ok nodes →
        ∃ trees q, Batch.Holds text trees ∧ Query.parse query = .ok q ∧ q.Finds trees nodes := by
  refine ⟨fun trees h => ?_, fun trees trees' h h' => ?_, fun text h => ?_,
    fun text query nodes h => ?_⟩
  · obtain ⟨batch, hbatch, -, hdecode⟩ := Batch.exists_decodeBase64 h
    refine ⟨batch, hbatch, fun lead trail query hlead htrail => ?_⟩
    have htrees := hdecode lead trail hlead htrail
    refine ⟨fun fault => filterRun_of_fault htrees, fun q hq => ?_⟩
    exact ⟨_, filterRun_of_query htrees hq,
      q.finds_evaluateAll (Query.steps_ne_nil_of_parse hq) trees⟩
  · obtain ⟨batch, hbatch, hdecode, -⟩ := Batch.exists_decodeBase64 h
    obtain ⟨batch', hbatch', hdecode', -⟩ := Batch.exists_decodeBase64 h'
    obtain ⟨whole, hwhole, hdecodeAll, -⟩ := Batch.exists_decodeBase64 (h.append h')
    exact ⟨batch, batch', whole, hbatch, hbatch', hwhole,
      fun query => filterRun_append hdecode hdecode' hdecodeAll⟩
  · rcases Batch.holds_or_refused text with ⟨trees, hholds, -⟩ | ⟨fault, hrefused, hdecode⟩
    · exact absurd ⟨trees, hholds⟩ h
    · exact ⟨fault, hrefused, fun query => filterRun_of_refused hdecode⟩
  · obtain ⟨trees, q, htrees, hq, rfl⟩ := filterRun_eq_ok h
    exact ⟨trees, q, Batch.decodeBase64_eq_ok_iff.1 htrees, hq,
      q.finds_evaluateAll (Query.steps_ne_nil_of_parse hq) trees⟩

/-- Two bare nodes make a batch that is searched, also between blanks; and of two payloads that are
no trees, the first one is reported, even beside a query that cannot be read. -/
theorem run_batch_bare :
    let bare : Node := .mk "" "" {} [] none none []
    let text := "AAAABwAAAAAAAAAAAAABAAAAAAA="
    (∃ batch nodes q, Batch.encodeBase64? [bare, bare] = some batch ∧
      Query.parse "//*" = .ok q ∧
      (FilterRequest.run ⟨" " ++ batch ++ "\n", "//*"⟩).value = .ok nodes ∧
      q.Finds [bare, bare] nodes) ∧
    (¬∃ trees, Batch.Holds text trees) ∧
      (FilterRequest.run ⟨text, "["⟩).value = .error (.decode
        "tree 1: Decode error: invalid tree encoding: io error: unexpected end of file") := by
  intro bare text
  obtain ⟨hfound, -, hrefused, -⟩ := run_batch
  constructor
  · have hbare : bare.encode? = some [0, 0, 0, 0, 0, 0, 0] := by decide +kernel
    have hdepth : bare.depth ≤ maxDepth := by decide +kernel
    have hsingle := Batch.portable_singleton hbare hdepth
    have hportable : Batch.Portable [bare, bare] := hsingle.append hsingle
    have hq : Query.parse "//*" = .ok ⟨[⟨.descendant, .any, []⟩]⟩ := rfl
    obtain ⟨batch, hbatch, hrun⟩ := hfound _ hportable
    have hlead : ∀ c ∈ " ".toList, Text.isBlank c := by simp [Text.isBlank]
    have htrail : ∀ c ∈ "\n".toList, Text.isBlank c := by simp [Text.isBlank]
    obtain ⟨nodes, hnodes, hfinds⟩ := (hrun " " "\n" "//*" hlead htrail).2 _ hq
    exact ⟨batch, nodes, _, hbatch, hq, hnodes, hfinds⟩
  · have hdecode : Batch.decodeBase64 text = .error (.badTree 1 (.badEncoding .endOfInput)) := by
      cbv
    have hnone : ¬∃ trees, Batch.Holds text trees := by
      rintro ⟨trees, hholds⟩
      rw [← Batch.decodeBase64_eq_ok_iff, hdecode] at hholds
      cases hholds
    obtain ⟨fault, -, hrun⟩ := hrefused text hnone
    have hfault : Failure.decode fault.message = .ofBatch (.badTree 1 (.badEncoding .endOfInput)) :=
      Except.error.inj ((hrun "[").symm.trans (filterRun_of_refused hdecode))
    refine ⟨hnone, ?_⟩
    rw [hrun, hfault]
    rfl

end SyntaxGateway
