import Mathlib.Data.List.Sort
import SyntaxGateway.Proofs.Query.Selection
import SyntaxGateway.Tree.Walk

/-!
# The index of a tree

**Theorem (`describes_ofNode`).** The index of a tree describes its document. The nodes stand in its
slots as a walk visits them, each place of the document in one slot. A slot's child slots are those
of its node's children, in their order, and the slots up to its stop are those of its strict
descendants; so the stop is as far behind the slot as its tree has nodes.

The slots of a set of places in document order are in increasing order (`Represents`), and two lists
in order with the same members are equal. So it is enough to know the members of the child slots and
of the slots up to a stop, and the lengths follow.
-/

namespace SyntaxGateway.Query.Index

/-- The index describes the document that has the tree `root` below it, with the document and the
nodes at `places` in its slots. -/
structure Describes (x : Index) (root : Node) (places : List Place) : Prop where
  /-- Every place has one slot, and the slots are in document order. -/
  ordered : places.Pairwise (· < ·)
  complete : ∀ p, p ∈ places ↔ p = [] ∨ ∃ n, Place.node? [root] p = some n
  nodes_eq : x.nodes.toList.map some = places.tail.map (Place.node? [root])
  size_children : x.children.size = places.length
  size_stops : x.stops.size = places.length
  /-- Below the document there is the root alone. -/
  children_document : x.children[0]? = some #[1]
  children_node : ∀ (slot : Nat) (p : Place) (n : Node),
    places[slot]? = some p → Place.node? [root] p = some n →
    ∃ slots : Array Nat, x.children[slot]? = some slots ∧
      slots.toList.map (places[·]?) = (List.range n.children.length).map fun i => some (p ++ [i])
  descendants : ∀ (slot : Nat) (p : Place) (stop : Nat),
    places[slot]? = some p → x.stops[slot]? = some stop →
    ∀ c, slot + 1 ≤ c ∧ c < stop ↔
      ∃ q, places[c]? = some q ∧ Relation.TransGen (IsChild root) p q
  stop_document : x.stops[0]? = some (1 + root.size)
  stop_node : ∀ (slot : Nat) (p : Place) (n : Node),
    places[slot]? = some p → Place.node? [root] p = some n → x.stops[slot]? = some (slot + n.size)

variable {root : Node} {slot : Nat} {p : Place}

/-! ## Nodes -/

/-- A visit takes the nodes of the trees on its stack in document order. -/
theorem toList_visit (nodes : Array Node) (parents : Array Nat) (stack : List (Node × Nat)) :
    (visit nodes parents stack).1.toList = nodes.toList ++ Node.preOrderAll (stack.map (·.1)) := by
  induction nodes, parents, stack using visit.induct with
  | case1 nodes parents => rw [visit, List.map_nil, Node.preOrderAll, List.append_nil]
  | case2 nodes parents n parent stack ih =>
    rw [visit, ih, List.map_cons, Node.preOrderAll_cons]
    simp [Function.comp_def]

theorem toList_nodes (root : Node) : (ofNode root).nodes.toList = root.preOrder := by
  have h := toList_visit #[] #[0] [(root, 0)]
  rwa [List.map_singleton, Node.preOrderAll, Node.preOrderAll, List.append_nil] at h

theorem map_nodes (root : Node) :
    (ofNode root).nodes.toList.map some =
      root.documentPlaces.tail.map (Place.node? [root]) := by
  refine List.ext_getElem? fun i => ?_
  have hnode := (laysOut_ofNode root).node i
  rw [List.getElem?_map, List.getElem?_map, List.getElem?_tail, Array.getElem?_toList]
  refine (congrArg (Option.map some) hnode).trans ?_
  cases hp : root.documentPlaces[i + 1]? with
  | none => rfl
  | some p =>
    have hne := (slot_pos_iff hp).1 (Nat.succ_pos i)
    obtain ⟨n, hn⟩ := (Node.mem_documentPlaces.1 (List.mem_of_getElem? hp)).resolve_left hne
    rw [Option.bind_some, Option.map_some, hn]
    rfl

theorem length_documentPlaces (root : Node) : root.documentPlaces.length = 1 + root.size := by
  rw [← (laysOut_ofNode root).size_nodes, Nat.add_comm, ← Node.length_preOrder, ← toList_nodes]
  rfl

theorem length_places (n : Node) : n.places.length = n.size := by
  have h := length_documentPlaces n
  simp only [Node.documentPlaces, Node.placesFrom, List.length_cons, List.length_append,
    List.length_map, List.length_nil] at h
  omega

/-! ## Lists of slots -/

theorem append_lt_append_iff {p path path' : Place} : p ++ path < p ++ path' ↔ path < path' := by
  induction p with
  | nil => rfl
  | cons i p ih => rw [List.cons_append, List.cons_append, List.cons_lt_cons_iff, ih]; simp

/-- Slots in increasing order are those of places in document order, if the members agree. -/
theorem map_places_eq {slots : List Nat} {places : List Place} (hslots : slots.Pairwise (· < ·))
    (hplaces : places.Pairwise (· < ·)) (hmem : ∀ p ∈ places, p ∈ root.documentPlaces)
    (h : ∀ c, c ∈ slots ↔ ∃ p ∈ places, root.documentPlaces[c]? = some p) :
    slots.map (root.documentPlaces[·]?) = places.map some := by
  have hrep : Represents root slots (· ∈ places) := by
    refine ⟨hslots, fun c hc => ?_, fun p => ⟨fun hp => ?_, ?_⟩⟩
    · obtain ⟨p, -, hp⟩ := (h c).1 hc
      exact ⟨p, hp⟩
    · obtain ⟨c, hc⟩ := List.mem_iff_getElem?.1 (hmem p hp)
      exact ⟨c, (h c).2 ⟨p, hp, hc⟩, hc⟩
    · rintro ⟨c, hc, hp⟩
      obtain ⟨q, hq, hcq⟩ := (h c).1 hc
      rwa [Option.some.inj (hp.symm.trans hcq)]
  obtain ⟨places', hordered, hmem', heq⟩ := hrep.exists_places
  rw [heq, hordered.eq_of_mem_iff hplaces hmem']

/-! ## Children -/

theorem pairwise_children {slots : Array Nat}
    (h : (ofNode root).children[slot]? = some slots) : slots.toList.Pairwise (· < ·) := by
  have hfold : (childSlots (parentsOf root))[slot]? = some slots := h
  rw [childSlots, getElem?_foldl_push, Array.getElem?_replicate] at hfold
  split at hfold
  · rw [Option.map_some, Option.some.injEq] at hfold
    rw [← hfold, Array.empty_append, List.toList_toArray, List.pairwise_map]
    exact (pairwise_links _).filter _
  · simp at hfold

/-- The child slots of a place with `count` trees right below it are those of the trees, in their
order. -/
theorem children_eq (h : root.documentPlaces[slot]? = some p) {count : Nat}
    (hcount : ∀ i, (∃ n, Place.node? [root] (p ++ [i]) = some n) ↔ i < count) :
    ∃ slots : Array Nat, (ofNode root).children[slot]? = some slots ∧
      slots.toList.map (root.documentPlaces[·]?) =
        (List.range count).map fun i => some (p ++ [i]) := by
  obtain ⟨slots, hslots, hmem⟩ := exists_children h
  have hdocument {i : Nat} : p ++ [i] ∈ root.documentPlaces ↔ i ∈ List.range count := by
    rw [Node.mem_documentPlaces, hcount, List.mem_range]
    simp
  have hplaces : slots.toList.map (root.documentPlaces[·]?) =
      ((List.range count).map fun i => p ++ [i]).map some := by
    refine map_places_eq (pairwise_children hslots) ?_ ?_ fun c => ?_
    · refine List.pairwise_map.2 (List.pairwise_lt_range.imp fun hij => ?_)
      exact append_lt_append_iff.2 (List.cons_lt_cons_iff.2 (.inl hij))
    · intro q hq
      obtain ⟨i, hi, rfl⟩ := List.mem_map.1 hq
      exact hdocument.2 hi
    · rw [Array.mem_toList_iff, hmem]
      constructor
      · rintro ⟨i, hc⟩
        exact ⟨_, List.mem_map_of_mem (hdocument.1 (List.mem_of_getElem? hc)), hc⟩
      · rintro ⟨q, hq, hc⟩
        obtain ⟨i, -, rfl⟩ := List.mem_map.1 hq
        exact ⟨i, hc⟩
  exact ⟨slots, hslots, by rw [hplaces, List.map_map]; rfl⟩

/-! ## Stops -/

/-- The stop of a place lies behind its slot by the number of the places from there on down. -/
theorem stop_eq (h : root.documentPlaces[slot]? = some p) {below : List Place}
    (hordered : below.Pairwise (· < ·))
    (hbelow : ∀ path, path ∈ below ↔ path = [] ∨ ∃ n, Place.node? [root] (p ++ path) = some n) :
    (ofNode root).stops[slot]? = some (slot + below.length) := by
  obtain ⟨stop, hstop, hmem⟩ := exists_stop h
  obtain ⟨hlt, -⟩ := (settled_stops root).within slot stop hstop
  have hdocument {path : Place} : p ++ path ∈ root.documentPlaces ↔ path ∈ below := by
    by_cases hpath : path = []
    · subst hpath
      rw [List.append_nil]
      exact iff_of_true (List.mem_of_getElem? h) ((hbelow _).2 (.inl rfl))
    · rw [Node.mem_documentPlaces, hbelow]
      simp [hpath]
  have hslots : (List.range' slot (stop - slot)).map (root.documentPlaces[·]?) =
      (below.map (p ++ ·)).map some := by
    refine map_places_eq List.pairwise_lt_range' ?_ ?_ fun c => ?_
    · exact List.pairwise_map.2 (hordered.imp append_lt_append_iff.2)
    · intro q hq
      obtain ⟨path, hpath, rfl⟩ := List.mem_map.1 hq
      exact hdocument.2 hpath
    · rw [List.mem_range'_1]
      constructor
      · intro hc
        obtain rfl | hc' := Nat.eq_or_lt_of_le hc.1
        · exact ⟨p, List.mem_map.2 ⟨[], (hbelow _).2 (.inl rfl), List.append_nil p⟩, h⟩
        · obtain ⟨path, -, hplace⟩ := (hmem c).1 ⟨hc', by omega⟩
          exact ⟨p ++ path, List.mem_map_of_mem (hdocument.1 (List.mem_of_getElem? hplace)), hplace⟩
      · rintro ⟨q, hq, hplace⟩
        obtain ⟨path, -, rfl⟩ := List.mem_map.1 hq
        by_cases hpath : path = []
        · subst hpath
          rw [List.append_nil] at hplace
          obtain rfl := Place.eq_of_pairwise root.pairwise_documentPlaces h hplace
          omega
        · have := (hmem c).2 ⟨path, hpath, hplace⟩
          omega
  have hlength := congrArg List.length hslots
  simp only [List.length_map, List.length_range'] at hlength
  rw [hstop, ← hlength]
  congr 1
  omega

/-! ## The index -/

/-- The slots behind a slot up to its stop are those of the places below. -/
theorem descendants_iff {stop c : Nat} (h : root.documentPlaces[slot]? = some p)
    (hstop : (ofNode root).stops[slot]? = some stop) :
    slot + 1 ≤ c ∧ c < stop ↔
      ∃ q, root.documentPlaces[c]? = some q ∧ Relation.TransGen (IsChild root) p q := by
  obtain ⟨slots, hslots, hmem⟩ := exists_reach .descendant h
  rw [reach?, hstop, Option.map_some, Option.some.injEq] at hslots
  refine Iff.trans ?_ (hmem c)
  rw [← hslots, List.mem_range'_1]
  omega

theorem size_children (root : Node) :
    (ofNode root).children.size = root.documentPlaces.length := by
  have hfold (ls : List (Nat × Nat)) (children : Array (Array Nat)) :
      (ls.foldl (fun children link => children.modify link.1 (·.push link.2)) children).size =
        children.size := by
    induction ls generalizing children with
    | nil => rfl
    | cons link ls ih => rw [List.foldl_cons, ih, Array.size_modify]
  rw [← size_parentsOf]
  exact (hfold _ _).trans Array.size_replicate

theorem children_document (root : Node) : (ofNode root).children[0]? = some #[1] := by
  have hcount (i : Nat) : (∃ n, Place.node? [root] ([] ++ [i]) = some n) ↔ i < 1 := by
    rw [List.nil_append, Place.node?_singleton]
    cases i <;> simp
  have hdocument : root.documentPlaces[0]? = some [] := rfl
  obtain ⟨slots, hslots, hplaces⟩ := children_eq hdocument hcount
  obtain ⟨c, hc, hroot⟩ := List.map_eq_singleton_iff.1 hplaces
  have hone : root.documentPlaces[1]? = some [0] := by
    rw [Node.documentPlaces, Node.placesFrom, Node.places_eq]
    rfl
  obtain rfl := Place.eq_of_pairwise root.pairwise_documentPlaces hroot hone
  rw [hslots]
  exact congrArg some (Array.toList_inj.1 hc)

theorem children_node {n : Node} (h : root.documentPlaces[slot]? = some p)
    (hn : Place.node? [root] p = some n) :
    ∃ slots : Array Nat, (ofNode root).children[slot]? = some slots ∧
      slots.toList.map (root.documentPlaces[·]?) =
        (List.range n.children.length).map fun i => some (p ++ [i]) := by
  refine children_eq h fun i => ?_
  rw [Place.node?_append hn (by simp), Place.node?_singleton, ← Option.isSome_iff_exists]
  simp

theorem stop_document (root : Node) : (ofNode root).stops[0]? = some (1 + root.size) := by
  have hdocument : root.documentPlaces[0]? = some [] := rfl
  have h := stop_eq hdocument root.pairwise_documentPlaces fun path => Node.mem_documentPlaces
  rwa [Nat.zero_add, length_documentPlaces] at h

theorem stop_node {n : Node} (h : root.documentPlaces[slot]? = some p)
    (hn : Place.node? [root] p = some n) :
    (ofNode root).stops[slot]? = some (slot + n.size) := by
  rw [← length_places]
  refine stop_eq h n.pairwise_places fun path => ?_
  rw [Node.places_eq, List.mem_cons, Node.mem_placesFrom]
  refine or_congr_right' fun hpath => ?_
  rw [Place.node?_append hn hpath]

theorem describes (root : Node) : (ofNode root).Describes root root.documentPlaces where
  ordered := root.pairwise_documentPlaces
  complete _ := Node.mem_documentPlaces
  nodes_eq := map_nodes root
  size_children := size_children root
  size_stops := (settled_stops root).size
  children_document := children_document root
  children_node _ _ _ := children_node
  descendants _ _ _ h hstop _ := descendants_iff h hstop
  stop_document := stop_document root
  stop_node _ _ _ := stop_node

/-- The index of a tree describes its document, and the nodes in its slots are those that a walk
visits, in document order. -/
theorem describes_ofNode (root : Node) :
    (ofNode root).Describes root root.documentPlaces ∧
      (ofNode root).nodes.toList = root.walk.toList ∧ root.walk.toList = root.preOrder ∧
      root.walk.toList.length = root.size := by
  refine ⟨describes root, ?_, root.toList_walk, ?_⟩
  · rw [toList_nodes, Node.toList_walk]
  · rw [Node.toList_walk, Node.length_preOrder]

end SyntaxGateway.Query.Index
