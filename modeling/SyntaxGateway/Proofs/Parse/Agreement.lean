import SyntaxGateway.Proofs.Filter
import SyntaxGateway.Proofs.Parse.Stages
import SyntaxGateway.Proofs.Query.Trimming

/-!
# Two ways to filter a tree

A tree can be filtered where it is parsed, or later as a batch of one tree.

**Theorem (`run_agrees`).** Both ways give the same nodes for the same filter, or both report that
it cannot be read.

One way reads the filter without the blanks at its ends and decodes the bytes of the client, the
other reads the filter as it stands and decodes a text. Blanks at the ends do not change whether a
text is a query, nor which (`Query.parse_trim_eq_ok_iff`), and both ways decode to the tree that was
encoded.
-/

namespace SyntaxGateway

variable {text : String}

/-! ## Trimmed filters -/

theorem Query.parse_trim_eq_ok_iff {q : Query} (h : Text.trim text ≠ "") :
    Query.parse (Text.trim text) = .ok q ↔ Query.parse text = .ok q := by
  rw [Query.parse_eq_parse_trim h, mapError_eq_ok_iff]

/-! ## Both ways -/

/-- A request with a filter that is more than blanks passes the checks of its mode and its language,
and the client answers its call with a tree that can be encoded and decoded. -/
structure Serves (client : Service.Client) (r : ParseRequest) (text : String) (tree : Node) :
    Prop where
  mode : r.ModeKnown
  language : r.LanguageResolves
  filter : r.filter = some text
  solid : ∃ c ∈ text.toList, Text.isBlank c = false
  depth : tree.depth ≤ maxDepth
  answer : ∃ bytes, tree.encode? = some bytes ∧
    ∀ call, r.Forwards call → (client call).value = .ok bytes

variable {client : Service.Client} {r : ParseRequest} {tree : Node} {q : Query}

theorem Serves.run_of_query (h : Serves client r text tree) (hq : Query.parse text = .ok q) :
    (r.run client).value.outcome = .ok (q.evaluate tree) := by
  have hne := Query.trim_ne_empty h.solid
  have hquery : r.HasQuery (some q) := .query h.filter hne ((Query.parse_trim_eq_ok_iff hne).2 hq)
  obtain ⟨bytes, hbytes, hclient⟩ := h.answer
  rw [ParseRequest.run_of_answer h.mode hquery h.language hclient]
  simp [ParseRequest.nodesOf, Node.decode_of_encode? hbytes h.depth]

theorem Serves.run_of_fault {fault : Query.Fault} (h : Serves client r text tree)
    (hfault : Query.parse text = .error fault) :
    ∃ fault', (r.run client).value.outcome = .error (.ofQuery fault') := by
  have hne := Query.trim_ne_empty h.solid
  rw [Query.parse_eq_parse_trim hne, mapError_eq_error_iff] at hfault
  obtain ⟨fault', hfault', -⟩ := hfault
  have hplan := ParseRequest.plan_of_fault h.mode h.filter hne hfault'
  exact ⟨fault', by rw [(ParseRequest.run_of_plan_error client hplan).1]⟩

/-- A tree is filtered in the same way where it is parsed and as a batch: with the same nodes, or
with a report that the filter cannot be read. There is no third outcome. -/
theorem run_agrees (h : Serves client r text tree) :
    ∃ batch, Batch.encodeBase64? [tree] = some batch ∧
      (∀ nodes, (r.run client).value.outcome = .ok nodes ↔
        (FilterRequest.run ⟨batch, text⟩).value = .ok nodes) ∧
      ((∃ position detail, (r.run client).value.outcome = .error (.query position detail)) ↔
        ∃ position detail,
          (FilterRequest.run ⟨batch, text⟩).value = .error (.query position detail)) ∧
      ((∃ nodes, (r.run client).value.outcome = .ok nodes) ∨
        ∃ position detail, (r.run client).value.outcome = .error (.query position detail)) := by
  obtain ⟨bytes, hbytes, -⟩ := h.answer
  obtain ⟨batch, hbatch, hdecode, -⟩ :=
    Batch.exists_decodeBase64 (Batch.portable_singleton hbytes h.depth)
  refine ⟨batch, hbatch, ?_⟩
  cases hq : Query.parse text with
  | ok q =>
    rw [h.run_of_query hq, filterRun_of_query hdecode hq, Query.evaluateAll, List.flatMap_singleton]
    simp
  | error fault =>
    obtain ⟨fault', hfault'⟩ := h.run_of_fault hq
    rw [hfault', filterRun_of_fault hdecode hq]
    simp [Failure.ofQuery]

/-- A filter with conditions and with blanks on both sides finds one of two names in both ways. -/
theorem run_agrees_spaced :
    let total : Node := .mk "Name" "total" (.ofList [("scope", "local")]) [] (some ⟨4, 1, 5⟩) none
      ["Identifier"]
    let print : Node := .mk "Name" "print" {} [] none none ["Identifier", "Callee"]
    let call : Node := .mk "Call" "" {} [total] none none []
    let root : Node := .mk "Module" "" {} [print, call] none none []
    let client : Service.Client := fun _ => pure (.ok (root.encode?.getD []))
    let filter := " //Name [@role='Identifier'] [@scope]\n"
    let r : ParseRequest := ⟨"x", none, some "python", none, some filter⟩
    Serves client r filter root ∧ ∃ batch, Batch.encodeBase64? [root] = some batch ∧
      (r.run client).value.outcome = .ok [total] ∧
      (FilterRequest.run ⟨batch, filter⟩).value = .ok [total] := by
  intro total print call root client filter r
  have hbytes : root.encode? = some (root.encode?.getD []) := by decide +kernel
  have hserves : Serves client r filter root := {
    mode := by simp [ParseRequest.ModeKnown, r]
    language := ParseRequest.languageResolves_of_named rfl (by decide +kernel)
    filter := rfl
    solid := ⟨'N', by simp [filter], rfl⟩
    depth := by decide +kernel
    answer := ⟨_, hbytes, fun _ _ => rfl⟩ }
  obtain ⟨batch, hbatch, hsame, -, -⟩ := run_agrees hserves
  let q : Query := ⟨[⟨.descendant, .type "Name", [.equals "role" "Identifier", .has "scope"]⟩]⟩
  have hq : Query.parse filter = .ok q := by cbv
  have hnodes := hserves.run_of_query hq
  have hfound : q.evaluate root = [total] := by cbv
  rw [hfound] at hnodes
  exact ⟨hserves, batch, hbatch, hnodes, (hsame _).1 hnodes⟩

end SyntaxGateway
