import Mathlib.Data.List.Sort
import SyntaxGateway.Proofs.Query.Selection

/-!
# The occurrences a query matches

A query with a step has an answer on every tree (`Answered`): the places that it selects
(`occurrences`), with their slots and their nodes, each once and in document order.

**Theorem (`occurrences_sublist_of_relaxes`).** A query loses no match when its steps are relaxed:
when they go to descendants instead of children, accept any type, or drop predicates. What it
matched before is, in the same order, among what it matches then.

A chain of moves through the steps is one through the relaxed steps, as a child is a descendant. So
the selected places stay selected, and of two lists in document order the one with fewer places is a
sublist of the other.
-/

namespace SyntaxGateway.Query

variable {q q' : Query} {root : Node}

/-! ## Occurrences -/

/-- The places in the slots that a query selects, in document order. -/
def occurrences (q : Query) (root : Node) : List Place :=
  (q.select root).filterMap (root.documentPlaces[·]?)

/-- The query has an answer on the tree: no look-up of a slot fails, and the slots and the nodes are
those of the places that it selects. -/
structure Answered (q : Query) (root : Node) : Prop where
  select?_eq : q.select? root = some (q.select root)
  evaluate?_eq : q.evaluate? root = some (q.evaluate root)
  answers : Answers q root (q.occurrences root) (q.select root) (q.evaluate root)

theorem filterMap_of_map_eq {α β : Type} {f : α → Option β} {as : List α} {bs : List β}
    (h : as.map f = bs.map some) : as.filterMap f = bs := by
  have hfilter := congrArg (List.filterMap id) h
  simpa [List.filterMap_map] using hfilter

theorem answered (h : q.steps ≠ []) : Answered q root := by
  obtain ⟨places, slots, nodes, hanswers, hselect?, hevaluate?⟩ := exists_answers q root h
  have hselect : q.select root = slots := by
    rw [select, hselect?, Option.getD_some]
  have hevaluate : q.evaluate root = nodes := by
    rw [evaluate, hevaluate?, Option.getD_some]
  have hoccurrences : q.occurrences root = places := by
    rw [occurrences, hselect]
    exact filterMap_of_map_eq hanswers.slots_eq
  refine ⟨hselect ▸ hselect?, hevaluate ▸ hevaluate?, ?_⟩
  rw [hoccurrences, hselect, hevaluate]
  exact hanswers

theorem mem_occurrences (h : q.steps ≠ []) {p : Place} :
    p ∈ q.occurrences root ↔ Leads root q.steps [] p :=
  (answered h).answers.selected p

theorem pairwise_occurrences (h : q.steps ≠ []) : (q.occurrences root).Pairwise (· < ·) :=
  (answered h).answers.ordered

theorem evaluate_eq (h : q.steps ≠ []) :
    q.evaluate root = (q.occurrences root).filterMap (Place.node? [root]) :=
  (filterMap_of_map_eq (answered h).answers.nodes_eq.symm).symm

/-! ## Relaxed steps -/

/-- The second step goes as far and further, and asks for no more: `//` may stand for `/` and `*`
for a type, and predicates may be left out. -/
structure Step.Relaxes (s s' : Step) : Prop where
  axis : s'.axis = s.axis ∨ s'.axis = .descendant
  test : s'.test = s.test ∨ s'.test = .any
  predicates : s'.predicates.Sublist s.predicates

namespace Step.Relaxes

variable {s s' : Step} {p p' : Place}

theorem moves (h : s.Relaxes s') (hmoves : s.axis.Moves root p p') :
    s'.axis.Moves root p p' := by
  rcases h.axis with haxis | haxis
  · rwa [haxis]
  · rw [haxis]
    cases hs : s.axis with
    | child =>
      rw [hs] at hmoves
      exact .single hmoves
    | descendant => rwa [hs] at hmoves

theorem keeps (h : s.Relaxes s') (hkeeps : s.Keeps root p) : s'.Keeps root p := by
  obtain ⟨n, hn, htest, hpredicates⟩ := hkeeps
  refine ⟨n, hn, ?_, fun c hc => hpredicates c (h.predicates.subset hc)⟩
  rcases h.test with heq | heq
  · rwa [heq]
  · rw [heq]
    exact .any n

end Step.Relaxes

theorem Leads.relax {steps steps' : List Step} {p p' : Place}
    (h : List.Forall₂ Step.Relaxes steps steps') (hleads : Leads root steps p p') :
    Leads root steps' p p' := by
  induction hleads generalizing steps' with
  | stay p =>
    cases h
    exact .stay p
  | move hmoves hkeeps _ ih =>
    cases h with
    | cons hs hsteps => exact .move (hs.moves hmoves) (hs.keeps hkeeps) (ih hsteps)

/-- What a query matches is, in the same order, among what it matches with relaxed steps. -/
theorem occurrences_sublist_of_relaxes (q q' : Query) (root : Node) (h : q.steps ≠ [])
    (hrelaxes : List.Forall₂ Step.Relaxes q.steps q'.steps) :
    Answered q root ∧ Answered q' root ∧ (q.occurrences root).Sublist (q'.occurrences root) ∧
      (q.evaluate root).Sublist (q'.evaluate root) := by
  have h' : q'.steps ≠ [] := by
    intro hnil
    rw [hnil] at hrelaxes
    exact h (List.forall₂_nil_right_iff.1 hrelaxes)
  have hsubset : q.occurrences root ⊆ q'.occurrences root := by
    intro p hp
    exact (mem_occurrences h').2 (((mem_occurrences h).1 hp).relax hrelaxes)
  have hsublist : (q.occurrences root).Sublist (q'.occurrences root) :=
    List.sublist_of_subperm_of_pairwise
      (List.subperm_of_subset (pairwise_occurrences h).nodup hsubset)
      (pairwise_occurrences h) (pairwise_occurrences h')
  refine ⟨answered h, answered h', hsublist, ?_⟩
  rw [evaluate_eq h, evaluate_eq h']
  exact hsublist.filterMap _

/-- All three ways to relax a step at once. -/
theorem occurrences_sublist_of_relaxes_nested :
    let leaf : Node := .mk "Leaf" "x" {} [] none none []
    let inner : Node := .mk "Block" "" {} [leaf] none none []
    let root : Node := .mk "Block" "" {} [leaf, inner] none none []
    let q : Query := ⟨[⟨.child, .any, []⟩, ⟨.child, .type "Leaf", [.equals "token" "x"]⟩]⟩
    let q' : Query := ⟨[⟨.child, .any, []⟩, ⟨.descendant, .any, []⟩]⟩
    q.steps ≠ [] ∧ List.Forall₂ Step.Relaxes q.steps q'.steps ∧
      (q.occurrences root).Sublist (q'.occurrences root) ∧
      (q.evaluate root).Sublist (q'.evaluate root) := by
  intro leaf inner root q q'
  have hsteps : q.steps ≠ [] := nofun
  have hfirst : Step.Relaxes ⟨.child, .any, []⟩ ⟨.child, .any, []⟩ :=
    ⟨.inl rfl, .inl rfl, List.Sublist.refl _⟩
  have hsecond : Step.Relaxes ⟨.child, .type "Leaf", [.equals "token" "x"]⟩
      ⟨.descendant, .any, []⟩ := ⟨.inr rfl, .inr rfl, List.nil_sublist _⟩
  have hrelaxes : List.Forall₂ Step.Relaxes q.steps q'.steps :=
    .cons hfirst (.cons hsecond .nil)
  obtain ⟨-, -, hoccurrences, hnodes⟩ := occurrences_sublist_of_relaxes q q' root hsteps hrelaxes
  exact ⟨hsteps, hrelaxes, hoccurrences, hnodes⟩

end SyntaxGateway.Query
