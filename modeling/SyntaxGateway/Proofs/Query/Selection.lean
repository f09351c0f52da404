import Mathlib
import SyntaxGateway.Proofs.Query.Conditions
import SyntaxGateway.Proofs.Query.Layout

/-!
# What a query selects

A query selects places of the document. From the document, each step moves to a child or along one
child after another, and keeps the places whose node passes its test and its predicates; a place is
selected when some chain of such moves through all the steps ends there (`Selects`).

**Theorem (`evaluate?_answers`).** A query with a step has an answer on every tree: no look-up of a
slot fails. The answer lists the selected places, each once and in document order, by their slots
and by their nodes.

A set of slots stands for the set of their places (`Represents`). Every step keeps this, as the
slots that an axis reaches are those of the places it moves to.
-/

namespace SyntaxGateway.Query

/-! ## Path semantics -/

/-- A node stands at `q`, one step below `p`. -/
def IsChild (root : Node) (p q : Place) : Prop :=
  (∃ i, q = p ++ [i]) ∧ ∃ n, Place.node? [root] q = some n

/-- The moves of an axis: to a child, or along one child after another. -/
def Axis.Moves (root : Node) : Axis → Place → Place → Prop
  | .child => IsChild root
  | .descendant => Relation.TransGen (IsChild root)

/-- The node at a place passes the step's test and all its predicates. -/
def Step.Keeps (s : Step) (root : Node) (p : Place) : Prop :=
  ∃ n, Place.node? [root] p = some n ∧ s.test.Passed n ∧ ∀ c ∈ s.predicates, c.Met n

/-- A chain of moves, one for each step and each to a place that the step keeps. -/
inductive Leads (root : Node) : List Step → Place → Place → Prop
  | stay (p : Place) : Leads root [] p p
  | move {s : Step} {steps : List Step} {p q r : Place} :
      s.axis.Moves root p q → s.Keeps root q → Leads root steps q r → Leads root (s :: steps) p r

/-- The query leads from the document to the place. -/
def Selects (q : Query) (root : Node) (p : Place) : Prop := Leads root q.steps [] p

/-- The answer of a query on a tree: the selected places in document order, each once, with their
slots and their nodes. -/
structure Answers (q : Query) (root : Node) (places : List Place) (slots : List Nat)
    (nodes : List Node) : Prop where
  ordered : places.Pairwise (· < ·)
  selected : ∀ p, p ∈ places ↔ q.Selects root p
  slots_eq : slots.map (root.documentPlaces[·]?) = places.map some
  nodes_eq : nodes.map some = places.map (Place.node? [root])

theorem moves_iff {root : Node} {axis : Axis} {p q : Place} :
    axis.Moves root p q ↔ (∃ n, Place.node? [root] q = some n) ∧
      match axis with
      | .child => ∃ i, q = p ++ [i]
      | .descendant => ∃ path, path ≠ [] ∧ q = p ++ path := by
  cases axis with
  | child => exact and_comm
  | descendant =>
    constructor
    · intro h
      induction h with
      | single h =>
        obtain ⟨⟨i, rfl⟩, hn⟩ := h
        exact ⟨hn, [i], by simp, rfl⟩
      | tail _ h ih =>
        obtain ⟨⟨i, rfl⟩, hn⟩ := h
        obtain ⟨-, path, -, rfl⟩ := ih
        exact ⟨hn, path ++ [i], by simp, by rw [List.append_assoc]⟩
    · rintro ⟨hn, path, hpath, rfl⟩
      induction path using List.reverseRecOn with
      | nil => exact absurd rfl hpath
      | append_singleton path i ih =>
        rw [← List.append_assoc] at hn ⊢
        by_cases hnil : path = []
        · subst hnil
          exact .single ⟨⟨i, by rw [List.append_nil]⟩, hn⟩
        · obtain ⟨n, hn'⟩ := hn
          have habove := Place.exists_node?_of_append (by simp [hnil]) hn'
          exact .tail (ih hnil habove) ⟨⟨i, rfl⟩, n, hn'⟩

/-! ## Look-ups -/

theorem mapM_eq_map {α β : Type} {f : α → Option β} {g : α → β} {l : List α}
    (h : ∀ a ∈ l, f a = some (g a)) : l.mapM f = some (l.map g) := by
  induction l with
  | nil => rfl
  | cons a l ih =>
    obtain ⟨ha, hl⟩ := List.forall_mem_cons.1 h
    simp [List.mapM_cons, ha, ih hl]

theorem mem_sortedSlots {l : List Nat} {i : Nat} :
    i ∈ (Std.TreeSet.ofList l).toList ↔ i ∈ l := by
  simp

theorem pairwise_sortedSlots (l : List Nat) :
    (Std.TreeSet.ofList l).toList.Pairwise (· < ·) :=
  Std.TreeSet.ordered_toList.imp Nat.compare_eq_lt.1

theorem keeps_iff {s : Step} {root : Node} {p : Place} {n : Node}
    (hn : Place.node? [root] p = some n) : s.Keeps root p ↔ s.accepts n := by
  simp [Step.Keeps, Step.accepts, hn, accepts_iff, holds_iff]

namespace Index

variable {root : Node} {slot : Nat} {p : Place}

theorem node?_of_place (h : root.documentPlaces[slot]? = some p) :
    (ofNode root).node? slot = Place.node? [root] p := by
  rw [node?_eq, h, Option.bind_some]

/-- The slots that an axis reaches are those of the places that it moves to. -/
theorem exists_reach (axis : Axis) (h : root.documentPlaces[slot]? = some p) :
    ∃ slots, (ofNode root).reach? axis slot = some slots ∧
      ∀ c, c ∈ slots ↔ ∃ q, root.documentPlaces[c]? = some q ∧ axis.Moves root p q := by
  have hnode {c : Nat} {q : Place} (hc : root.documentPlaces[c]? = some q) (hq : q ≠ []) :
      ∃ n, Place.node? [root] q = some n :=
    (Node.mem_documentPlaces.1 (List.mem_of_getElem? hc)).resolve_left hq
  cases axis with
  | child =>
    obtain ⟨slots, hslots, hmem⟩ := exists_children h
    refine ⟨slots.toList, by rw [reach?, hslots, Option.map_some], fun c => ?_⟩
    rw [Array.mem_toList_iff, hmem]
    constructor
    · rintro ⟨i, hc⟩
      exact ⟨_, hc, moves_iff.2 ⟨hnode hc (by simp), i, rfl⟩⟩
    · rintro ⟨q, hc, hmoves⟩
      obtain ⟨-, i, rfl⟩ := moves_iff.1 hmoves
      exact ⟨i, hc⟩
  | descendant =>
    obtain ⟨stop, hstop, hmem⟩ := exists_stop h
    refine ⟨_, by rw [reach?, hstop, Option.map_some], fun c => ?_⟩
    have hrange : c ∈ List.range' (slot + 1) (stop - (slot + 1)) ↔ slot < c ∧ c < stop := by
      rw [List.mem_range'_1]
      omega
    rw [hrange, hmem]
    constructor
    · rintro ⟨path, hpath, hc⟩
      exact ⟨_, hc, moves_iff.2 ⟨hnode hc (by simp [hpath]), path, hpath, rfl⟩⟩
    · rintro ⟨q, hc, hmoves⟩
      obtain ⟨-, path, hpath, rfl⟩ := moves_iff.1 hmoves
      exact ⟨path, hpath, hc⟩

theorem keep?_eq {x : Index} {s : Step} {slots : List Nat} {node : Nat → Node}
    (h : ∀ slot ∈ slots, x.node? slot = some (node slot)) :
    x.keep? s slots = some (slots.filter fun slot => s.accepts (node slot)) := by
  rw [keep?, mapM_eq_map h]
  have hzip : slots.zip (slots.map node) = slots.map fun slot => (slot, node slot) := by
    simpa using List.zip_map' (f := id) (g := node) (l := slots)
  simp [hzip, List.filter_map, Function.comp_def]

/-! ## Steps in a row -/

/-- The slots, in increasing order, are those of the places in `S`. -/
structure Represents (root : Node) (slots : List Nat) (S : Place → Prop) : Prop where
  sorted : slots.Pairwise (· < ·)
  place : ∀ slot ∈ slots, ∃ p, root.documentPlaces[slot]? = some p
  holds : ∀ p, S p ↔ ∃ slot ∈ slots, root.documentPlaces[slot]? = some p

namespace Represents

variable {slots : List Nat} {S : Place → Prop}

/-- An axis finds all that it looks up, and reaches the slots of the places that it moves to. -/
theorem reach (h : Represents root slots S) (axis : Axis) :
    ∃ lists, slots.mapM ((ofNode root).reach? axis) = some lists ∧
      ∀ c, c ∈ lists.flatten ↔
        ∃ p q, S p ∧ root.documentPlaces[c]? = some q ∧ axis.Moves root p q := by
  have hreach : ∀ slot ∈ slots, (ofNode root).reach? axis slot =
      some (((ofNode root).reach? axis slot).getD []) := by
    intro slot hslot
    obtain ⟨p, hp⟩ := h.place slot hslot
    obtain ⟨reached, hreached, -⟩ := exists_reach axis hp
    rw [hreached, Option.getD_some]
  refine ⟨_, mapM_eq_map hreach, fun c => ?_⟩
  rw [← List.flatMap_def, List.mem_flatMap]
  constructor
  · rintro ⟨slot, hslot, hc⟩
    obtain ⟨p, hp⟩ := h.place slot hslot
    obtain ⟨reached, hreached, hmem⟩ := exists_reach axis hp
    rw [hreached, Option.getD_some, hmem] at hc
    obtain ⟨q, hq, hmoves⟩ := hc
    exact ⟨p, q, (h.holds p).2 ⟨slot, hslot, hp⟩, hq, hmoves⟩
  · rintro ⟨p, q, hS, hq, hmoves⟩
    obtain ⟨slot, hslot, hp⟩ := (h.holds p).1 hS
    obtain ⟨reached, hreached, hmem⟩ := exists_reach axis hp
    refine ⟨slot, hslot, ?_⟩
    rw [hreached, Option.getD_some]
    exact (hmem c).2 ⟨q, hq, hmoves⟩

/-- A step finds all that it looks up, and leads to the slots of the places that it moves to and
keeps. -/
theorem step (h : Represents root slots S) (s : Step) :
    ∃ slots', (ofNode root).step? s slots = some slots' ∧
      Represents root slots' fun q => ∃ p, S p ∧ s.axis.Moves root p q ∧ s.Keeps root q := by
  obtain ⟨lists, hlists, hmem⟩ := h.reach s.axis
  have hnode : ∀ c ∈ (Std.TreeSet.ofList lists.flatten).toList, (ofNode root).node? c =
      some (((ofNode root).node? c).getD default) := by
    intro c hc
    obtain ⟨p, q, -, hq, hmoves⟩ := (hmem c).1 (mem_sortedSlots.1 hc)
    obtain ⟨⟨n, hn⟩, -⟩ := moves_iff.1 hmoves
    rw [node?_of_place hq, hn, Option.getD_some]
  refine ⟨_, by rw [step?, hlists, Option.bind_eq_bind, Option.bind_some, keep?_eq hnode], ?_⟩
  refine ⟨(pairwise_sortedSlots _).filter _, fun c hc => ?_, fun q => ⟨?_, ?_⟩⟩
  · obtain ⟨p, q, -, hq, -⟩ := (hmem c).1 (mem_sortedSlots.1 (List.mem_of_mem_filter hc))
    exact ⟨q, hq⟩
  · rintro ⟨p, hS, hmoves, hkeeps⟩
    obtain ⟨⟨n, hn⟩, -⟩ := moves_iff.1 hmoves
    obtain ⟨c, hc⟩ := List.mem_iff_getElem?.1 (Node.mem_documentPlaces.2 (.inr ⟨n, hn⟩))
    refine ⟨c, List.mem_filter.2 ⟨mem_sortedSlots.2 ((hmem c).2 ⟨p, q, hS, hc, hmoves⟩), ?_⟩, hc⟩
    rw [node?_of_place hc, hn, Option.getD_some]
    exact (keeps_iff hn).1 hkeeps
  · rintro ⟨c, hc, hq⟩
    obtain ⟨hc, haccepts⟩ := List.mem_filter.1 hc
    obtain ⟨p, q', hS, hq', hmoves⟩ := (hmem c).1 (mem_sortedSlots.1 hc)
    obtain rfl := Option.some.inj (hq.symm.trans hq')
    obtain ⟨⟨n, hn⟩, -⟩ := moves_iff.1 hmoves
    rw [node?_of_place hq, hn, Option.getD_some] at haccepts
    exact ⟨p, hS, hmoves, (keeps_iff hn).2 haccepts⟩

/-- Steps in a row lead to the slots of the places that chains of moves lead to. -/
theorem follow (h : Represents root slots S) (steps : List Step) :
    ∃ slots', (ofNode root).follow? steps slots = some slots' ∧
      Represents root slots' fun q => ∃ p, S p ∧ Leads root steps p q := by
  induction steps generalizing slots S with
  | nil =>
    refine ⟨slots, rfl, h.sorted, h.place, fun q => ?_⟩
    rw [← h.holds]
    constructor
    · rintro ⟨p, hS, hleads⟩
      cases hleads
      exact hS
    · exact fun hS => ⟨q, hS, .stay q⟩
  | cons s steps ih =>
    by_cases hempty : slots = []
    · -- Nothing is selected any more, so no chain can go on.
      subst hempty
      refine ⟨[], rfl, .nil, by simp, fun q => ?_⟩
      have hS (p : Place) : ¬S p := by simp [h.holds p]
      simp [hS]
    · obtain ⟨slots', hslots', h'⟩ := h.step s
      obtain ⟨slots'', hslots'', h''⟩ := ih h'
      refine ⟨slots'', ?_, h''.sorted, h''.place, fun q => ?_⟩
      · rw [follow?, if_neg (by simpa using hempty), hslots']
        exact hslots''
      · rw [← h''.holds]
        constructor
        · rintro ⟨p, hS, hleads⟩
          cases hleads with
          | move hmoves hkeeps hrest => exact ⟨_, ⟨p, hS, hmoves, hkeeps⟩, hrest⟩
        · rintro ⟨r, ⟨p, hS, hmoves, hkeeps⟩, hrest⟩
          exact ⟨p, hS, .move hmoves hkeeps hrest⟩

/-- The places of the slots, in document order. -/
theorem exists_places (h : Represents root slots S) :
    ∃ places : List Place, places.Pairwise (· < ·) ∧ (∀ p, p ∈ places ↔ S p) ∧
      slots.map (root.documentPlaces[·]?) = places.map some := by
  have hplace : ∀ c ∈ slots,
      root.documentPlaces[c]? = some ((root.documentPlaces[c]?).getD []) := by
    intro c hc
    obtain ⟨p, hp⟩ := h.place c hc
    rw [hp, Option.getD_some]
  refine ⟨slots.map fun c => (root.documentPlaces[c]?).getD [], ?_, fun p => ?_, ?_⟩
  · rw [List.pairwise_map]
    refine h.sorted.imp_of_mem fun ha hb hab => ?_
    exact (Place.lt_iff_of_pairwise root.pairwise_documentPlaces (hplace _ ha) (hplace _ hb)).1 hab
  · rw [h.holds, List.mem_map]
    constructor
    · rintro ⟨c, hc, rfl⟩
      exact ⟨c, hc, hplace c hc⟩
    · rintro ⟨c, hc, hp⟩
      exact ⟨c, hc, by rw [hp, Option.getD_some]⟩
  · rw [List.map_map]
    exact List.map_congr_left hplace

/-- The places and the nodes of the slots, where a node stands at each of the places. -/
theorem exists_nodes (h : Represents root slots S)
    (hS : ∀ p, S p → ∃ n, Place.node? [root] p = some n) :
    ∃ (places : List Place) (nodes : List Node), places.Pairwise (· < ·) ∧
      (∀ p, p ∈ places ↔ S p) ∧ slots.map (root.documentPlaces[·]?) = places.map some ∧
      slots.mapM (ofNode root).node? = some nodes ∧
      nodes.map some = places.map (Place.node? [root]) := by
  obtain ⟨places, hordered, hmem, hplaces⟩ := h.exists_places
  have hnode : ∀ c ∈ slots, (ofNode root).node? c =
      some (((ofNode root).node? c).getD default) := by
    intro c hc
    obtain ⟨p, hp⟩ := h.place c hc
    obtain ⟨n, hn⟩ := hS p ((h.holds p).2 ⟨c, hc, hp⟩)
    rw [node?_of_place hp, hn, Option.getD_some]
  refine ⟨places, _, hordered, hmem, hplaces, mapM_eq_map hnode, ?_⟩
  have heq := congrArg (List.map fun o => Option.bind o (Place.node? [root])) hplaces
  simp only [List.map_map, Function.comp_def, ← node?_eq, Option.bind_some] at heq
  rw [← heq, List.map_map]
  exact (List.map_congr_left hnode).symm

end Represents

/-- At first there is the document. -/
theorem represents_document (root : Node) : Represents root [0] (· = []) := by
  refine ⟨List.pairwise_singleton _ _, fun slot hslot => ?_, fun p => ?_⟩
  · obtain rfl := List.mem_singleton.1 hslot
    exact ⟨[], rfl⟩
  · simp [Node.documentPlaces, eq_comm]

end Index

/-! ## Queries -/

/-- A chain with a step ends at a node. -/
theorem Leads.exists_node {root : Node} {steps : List Step} {p q : Place}
    (h : Leads root steps p q) (hsteps : steps ≠ []) : ∃ n, Place.node? [root] q = some n := by
  induction h with
  | stay => exact absurd rfl hsteps
  | @move s steps p q r _ hkeeps hrest ih =>
    by_cases hnil : steps = []
    · subst hnil
      cases hrest
      obtain ⟨n, hn, -⟩ := hkeeps
      exact ⟨n, hn⟩
    · exact ih hnil

/-- No look-up of a slot fails for a query with a step, and what is found is its answer. -/
theorem exists_answers (q : Query) (root : Node) (h : q.steps ≠ []) :
    ∃ places slots nodes, Answers q root places slots nodes ∧
      q.select? root = some slots ∧ q.evaluate? root = some nodes := by
  obtain ⟨slots, hslots, hrep⟩ := (Index.represents_document root).follow q.steps
  have hselects (p : Place) : (∃ p', p' = [] ∧ Leads root q.steps p' p) ↔ q.Selects root p := by
    simp [Selects]
  obtain ⟨places, nodes, hordered, hmem, hplaces, hnodes, heq⟩ := hrep.exists_nodes fun p hp =>
    ((hselects p).1 hp).exists_node h
  have hevaluate : q.evaluate? root = some nodes := by
    rw [evaluate?, hslots, Option.bind_eq_bind, Option.bind_some, hnodes]
  exact ⟨places, slots, nodes,
    ⟨hordered, fun p => (hmem p).trans (hselects p), hplaces, heq⟩, hslots, hevaluate⟩

/-- The nodes at the selected places, in document order. -/
structure Matches (q : Query) (root : Node) (places : List Place) (nodes : List Node) : Prop where
  ordered : places.Pairwise (· < ·)
  selected : ∀ p, p ∈ places ↔ q.Selects root p
  nodes_eq : nodes.map some = places.map (Place.node? [root])

/-- The nodes that a query with a step gives are its matches. -/
theorem exists_matches (q : Query) (root : Node) (h : q.steps ≠ []) :
    ∃ places, q.Matches root places (q.evaluate root) := by
  obtain ⟨places, slots, nodes, hanswers, -, hnodes⟩ := exists_answers q root h
  rw [evaluate, hnodes, Option.getD_some]
  exact ⟨places, hanswers.ordered, hanswers.selected, hanswers.nodes_eq⟩

/-- A query with a step finds all that it looks up, and answers with the selected places: each
occurrence once, in document order. -/
theorem evaluate?_answers (q : Query) (root : Node) (h : q.steps ≠ []) :
    ∃ places slots nodes, Answers q root places slots nodes ∧
      q.select? root = some slots ∧ q.evaluate? root = some nodes ∧ q.evaluate root = nodes := by
  obtain ⟨places, slots, nodes, hanswers, hslots, hnodes⟩ := exists_answers q root h
  refine ⟨places, slots, nodes, hanswers, hslots, hnodes, ?_⟩
  rw [evaluate, hnodes, Option.getD_some]

/-- A leaf below two nested blocks is selected once. -/
theorem evaluate?_answers_nested :
    let leaf : Node := .mk "Leaf" "" {} [] none none []
    let inner : Node := .mk "Block" "" {} [leaf] none none []
    let root : Node := .mk "Block" "" {} [inner] none none []
    let q : Query := ⟨[⟨.descendant, .type "Block", []⟩, ⟨.descendant, .type "Leaf", []⟩]⟩
    q.steps ≠ [] ∧ Answers q root [[0, 0, 0]] [3] [leaf] ∧ q.select? root = some [3] ∧
      q.evaluate? root = some [leaf] := by
  intro leaf inner root q
  have hsteps : q.steps ≠ [] := nofun
  obtain ⟨places, slots, nodes, hanswers, hslots, hnodes, -⟩ := evaluate?_answers q root hsteps
  -- The slot tells the place, and the place tells the node.
  have hselect : q.select? root = some [3] := by cbv
  obtain rfl : slots = [3] := Option.some.inj (hslots.symm.trans hselect)
  have hplaces : places = [[0, 0, 0]] :=
    (List.map_inj_right fun _ _ => Option.some.inj).1 hanswers.slots_eq.symm
  subst hplaces
  have hleaf : nodes = [leaf] :=
    (List.map_inj_right fun _ _ => Option.some.inj).1 hanswers.nodes_eq
  subst hleaf
  exact ⟨hsteps, hanswers, hslots, hnodes⟩

end SyntaxGateway.Query
