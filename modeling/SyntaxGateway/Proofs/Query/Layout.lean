import Mathlib.Data.List.Induction
import SyntaxGateway.Proofs.Tree.Places
import SyntaxGateway.Query.Index

/-!
# The slots of a document

An index describes its tree faithfully: slot `i` is the `i`-th place of the document in document
order (`Node.documentPlaces`), slot 0 the document itself.

* `node?_eq`: a slot holds the node at its place.
* `exists_children`: the child slots of a slot are those of the places one step below.
* `exists_stop`: the slots between a slot and its stop are those of the places below.

The visit is an induction over its stack (`LaysOut.visit`), on which every tree carries the place
where it stands. The pass that widens the stops keeps `Settled`: a stop never leaves the subtree of
its slot, and covers those of the children that have been passed.
-/

namespace SyntaxGateway.Query.Index

/-! ## Visiting a tree -/

/-- A tree on the stack of a visit, with the slot of its parent and the place where it stands. -/
structure Pending where
  node : Node
  parent : Nat
  place : Place

namespace Pending

/-- The places of the tree's nodes. -/
def places (e : Pending) : List Place := e.node.places.map (e.place ++ ·)

/-- What the stack holds once the tree's root has gone to `slot`. -/
def below (e : Pending) (slot : Nat) : List Pending :=
  e.node.children.zipIdx.map fun c => ⟨c.1, slot, e.place ++ [c.2]⟩

theorem places_eq (e : Pending) (slot : Nat) :
    e.places = e.place :: (e.below slot).flatMap places := by
  rw [places, Node.places_eq, List.map_cons, List.append_nil, Node.placesFrom_eq, List.map_flatMap,
    below, List.flatMap_map]
  simp [places, Function.comp_def]

theorem map_below (e : Pending) (slot : Nat) :
    (e.below slot).map (fun c => (c.node, c.parent)) =
      e.node.children.map fun c => (c, slot) := by
  rw [below, List.map_map]
  conv_rhs => rw [← List.zipIdx_map_fst 0 e.node.children, List.map_map]
  rfl

end Pending

/-- The nodes and the slots of the parents are those of `places`, in which the document stands
first. -/
structure LaysOut (trees : List Node) (places : List Place) (nodes : Array Node)
    (parents : Array Nat) : Prop where
  document : places[0]? = some []
  size_nodes : nodes.size + 1 = places.length
  size_parents : parents.size = places.length
  node : ∀ slot, nodes[slot]? = places[slot + 1]?.bind (Place.node? trees)
  parent : ∀ slot p, places[slot + 1]? = some p →
    ∃ parent, parents[slot + 1]? = some parent ∧ places[parent]? = some p.dropLast

namespace LaysOut

variable {trees : List Node} {places : List Place} {nodes : Array Node} {parents : Array Nat}

theorem push (h : LaysOut trees places nodes parents) {p : Place} {n : Node} {parent : Nat}
    (hn : Place.node? trees p = some n) (hp : places[parent]? = some p.dropLast) :
    LaysOut trees (places ++ [p]) (nodes.push n) (parents.push parent) := by
  have hlen := h.size_nodes
  have hsize := h.size_parents
  have hold {slot : Nat} {q : Place} (hq : places[slot]? = some q) :
      (places ++ [p])[slot]? = some q := by
    obtain ⟨hlt, -⟩ := List.getElem?_eq_some_iff.1 hq
    rw [List.getElem?_append_left hlt, hq]
  refine ⟨hold h.document, by simp [hlen], by simp [hsize], fun slot => ?_, fun slot q hq => ?_⟩
  · rw [Array.getElem?_push]
    split
    · next heq =>
      subst heq
      rw [hlen, List.getElem?_concat_length]
      exact hn.symm
    · next hne =>
      rw [h.node]
      by_cases hlt : slot < nodes.size
      · rw [List.getElem?_append_left (by omega)]
      · rw [List.getElem?_eq_none (by omega), List.getElem?_eq_none (by simp; omega)]
  · by_cases heq : slot + 1 = places.length
    · rw [heq, List.getElem?_concat_length] at hq
      obtain rfl := Option.some.inj hq
      exact ⟨parent, by rw [heq, ← hsize, Array.getElem?_push_size], hold hp⟩
    · have hlt : slot + 1 < places.length := by
        obtain ⟨hlt, -⟩ := List.getElem?_eq_some_iff.1 hq
        rw [List.length_append, List.length_singleton] at hlt
        omega
      rw [List.getElem?_append_left hlt] at hq
      obtain ⟨parent', hparent, hp'⟩ := h.parent slot q hq
      exact ⟨parent', by rw [Array.getElem?_push, if_neg (by omega), hparent], hold hp'⟩

/-- A visit lays out the trees on its stack behind what has been visited already. -/
theorem visit (h : LaysOut trees places nodes parents) (stack : List Pending)
    (hstack : ∀ e ∈ stack, Place.node? trees e.place = some e.node ∧
      places[e.parent]? = some e.place.dropLast) :
    LaysOut trees (places ++ stack.flatMap Pending.places)
      (Index.visit nodes parents (stack.map fun e => (e.node, e.parent))).1
      (Index.visit nodes parents (stack.map fun e => (e.node, e.parent))).2 := by
  generalize hs : stack.map (fun e => (e.node, e.parent)) = s
  induction nodes, parents, s using Index.visit.induct generalizing places stack with
  | case1 nodes parents =>
    obtain rfl := List.map_eq_nil_iff.1 hs
    rw [Index.visit, List.flatMap_nil, List.append_nil]
    exact h
  | case2 nodes parents n parent s ih =>
    obtain ⟨e, rest, rfl, he, rfl⟩ := List.map_eq_cons_iff.1 hs
    obtain ⟨rfl, rfl⟩ := Prod.mk.inj he
    obtain ⟨⟨hnode, hparent⟩, hrest⟩ := List.forall_mem_cons.1 hstack
    have hslot : (places ++ [e.place])[nodes.size + 1]? = some e.place := by
      rw [h.size_nodes, List.getElem?_concat_length]
    -- The popped tree's root takes the next slot; its children go on the stack with that slot.
    have hplaces : places ++ (e :: rest).flatMap Pending.places =
        places ++ [e.place] ++ (e.below (nodes.size + 1) ++ rest).flatMap Pending.places := by
      rw [List.flatMap_cons, e.places_eq (nodes.size + 1), List.flatMap_append]
      simp
    rw [hplaces, Index.visit]
    refine ih (h.push hnode hparent) _ (fun c hc => ?_) ?_
    · rcases List.mem_append.1 hc with hc | hc
      · obtain ⟨⟨c, i⟩, hi, rfl⟩ := List.mem_map.1 hc
        refine ⟨?_, by simpa using hslot⟩
        rw [Place.node?_append hnode (by simp), Place.node?_singleton]
        exact List.mk_mem_zipIdx_iff_getElem?.1 hi
      · obtain ⟨hcnode, hcparent⟩ := hrest c hc
        obtain ⟨hlt, -⟩ := List.getElem?_eq_some_iff.1 hcparent
        exact ⟨hcnode, by rw [List.getElem?_append_left hlt, hcparent]⟩
    · rw [List.map_append, Pending.map_below]

end LaysOut

/-- The index of a tree lays out the places of its document. -/
theorem laysOut_ofNode (root : Node) :
    LaysOut [root] root.documentPlaces (Index.visit #[] #[0] [(root, 0)]).1
      (Index.visit #[] #[0] [(root, 0)]).2 := by
  have hstart : LaysOut [root] [[]] #[] #[0] := ⟨rfl, rfl, rfl, by simp, by simp⟩
  have h := hstart.visit [⟨root, 0, [0]⟩] (by simp)
  simpa [Node.documentPlaces, Pending.places, Node.placesFrom] using h

/-! ## Links -/

theorem mem_links {parents : Array Nat} {parent slot : Nat} :
    (parent, slot) ∈ links parents ↔ 0 < slot ∧ parents[slot]? = some parent := by
  rw [links, ← Array.getElem?_toList]
  cases parents.toList with
  | nil => simp
  | cons a rest =>
    rw [List.zipIdx_cons, List.tail_cons, List.mk_mem_zipIdx_iff_le_and_getElem?_sub]
    cases slot with
    | zero => simp
    | succ slot => simp

theorem pairwise_links (parents : Array Nat) :
    (links parents).Pairwise fun l l' => l.2 < l'.2 := by
  have h : ((parents.toList.zipIdx).map Prod.snd).Pairwise (· < ·) := by
    rw [List.zipIdx_map_snd]
    exact List.pairwise_lt_range'
  exact (List.pairwise_map.1 h).tail

theorem getElem?_foldl_push (ls : List (Nat × Nat)) (children : Array (Array Nat)) (slot : Nat) :
    (ls.foldl (fun children link => children.modify link.1 (·.push link.2)) children)[slot]? =
      children[slot]?.map (· ++ ((ls.filter (·.1 = slot)).map (·.2)).toArray) := by
  induction ls generalizing children with
  | nil => simp
  | cons link ls ih =>
    rw [List.foldl_cons, ih, Array.getElem?_modify]
    by_cases h : link.1 = slot
    · rw [if_pos h, Option.map_map, List.filter_cons_of_pos (by simpa using h)]
      congr 1
      funext slots
      simp
    · rw [if_neg h, List.filter_cons_of_neg (by simpa using h)]

/-- A slot's child slots are those linked to it. -/
theorem getElem?_childSlots {parents : Array Nat} {slot : Nat} (h : slot < parents.size) :
    ∃ slots, (childSlots parents)[slot]? = some slots ∧
      ∀ c, c ∈ slots ↔ (slot, c) ∈ links parents := by
  refine ⟨_, by rw [childSlots, getElem?_foldl_push, Array.getElem?_replicate, if_pos h,
    Option.map_some], fun c => ?_⟩
  simp

/-! ## Stops -/

/-- The stops once the links `passed` have been passed: a stop does not leave the subtree of its
slot, and covers those of the children passed. -/
structure Settled (places : List Place) (passed : List (Nat × Nat)) (stops : Array Nat) :
    Prop where
  size : stops.size = places.length
  within : ∀ slot stop, stops[slot]? = some stop → slot < stop ∧
    ∃ p q, places[slot]? = some p ∧ places[stop - 1]? = some q ∧ p <+: q
  covers : ∀ link ∈ passed, ∀ stop stop', stops[link.2]? = some stop → stops[link.1]? = some stop' →
    stop ≤ stop'

namespace Settled

variable {places : List Place} {passed : List (Nat × Nat)} {stops : Array Nat}

theorem cons (h : Settled places passed stops) {link : Nat × Nat} {p : Place}
    (hslot : places[link.2]? = some p) (hparent : places[link.1]? = some p.dropLast)
    (hlt : link.1 < link.2) (hpassed : ∀ l ∈ passed, link.2 < l.2) :
    Settled places (link :: passed) (stops.modify link.1 (max · (stops.getD link.2 0))) := by
  obtain ⟨stop, hstop⟩ : ∃ stop, stops[link.2]? = some stop := by
    obtain ⟨hlen, -⟩ := List.getElem?_eq_some_iff.1 hslot
    exact ⟨_, Array.getElem?_eq_getElem (h.size ▸ hlen)⟩
  have hgetD : stops.getD link.2 0 = stop := by
    rw [Array.getD_eq_getD_getElem?, hstop, Option.getD_some]
  have hself {stop' : Nat}
      (h' : (stops.modify link.1 (max · stop))[link.1]? = some stop') :
      ∃ old, stops[link.1]? = some old ∧ stop' = max old stop := by
    rw [Array.getElem?_modify, if_pos rfl, Option.map_eq_some_iff] at h'
    obtain ⟨old, hold, rfl⟩ := h'
    exact ⟨old, hold, rfl⟩
  have hother {slot : Nat} (hne : slot ≠ link.1) :
      (stops.modify link.1 (max · stop))[slot]? = stops[slot]? := by
    rw [Array.getElem?_modify, if_neg (Ne.symm hne)]
  rw [hgetD]
  refine ⟨by rw [Array.size_modify, h.size], fun slot stop' h' => ?_, fun l hl k k' hk hk' => ?_⟩
  · by_cases heq : slot = link.1
    · subst heq
      obtain ⟨old, hold, rfl⟩ := hself h'
      obtain ⟨hlt', q, r, hq, hr, hqr⟩ := h.within _ _ hold
      rcases Nat.le_total stop old with hle | hle
      · rw [Nat.max_eq_left hle]
        exact ⟨hlt', q, r, hq, hr, hqr⟩
      · obtain ⟨hlt'', q', r', hq', hr', hqr'⟩ := h.within _ _ hstop
        rw [hslot] at hq'
        obtain rfl := Option.some.inj hq'
        rw [Nat.max_eq_right hle]
        exact ⟨by omega, _, r', hparent, hr', (List.dropLast_prefix p).trans hqr'⟩
    · exact h.within _ _ (hother heq ▸ h')
  · rcases List.mem_cons.1 hl with rfl | hl
    · obtain ⟨old, -, rfl⟩ := hself hk'
      rw [hother (by omega), hstop] at hk
      obtain rfl := Option.some.inj hk
      exact Nat.le_max_right _ _
    · have hlink := hpassed l hl
      rw [hother (by omega)] at hk
      by_cases heq : l.1 = link.1
      · rw [heq] at hk'
        obtain ⟨old, hold, rfl⟩ := hself hk'
        exact (h.covers l hl _ _ hk (heq ▸ hold)).trans (Nat.le_max_left _ _)
      · exact h.covers l hl _ _ hk (hother heq ▸ hk')

/-- The stops of single slots, with that of the document behind the last slot. -/
theorem single (h : places[0]? = some []) :
    Settled places [] ((Array.range' 1 places.length).modify 0 fun _ => places.length) := by
  have hpos : 0 < places.length := (List.getElem?_eq_some_iff.1 h).1
  refine ⟨by simp, fun slot stop hstop => ?_, by simp⟩
  rw [Array.getElem?_modify] at hstop
  split at hstop
  · next hzero =>
    subst hzero
    obtain ⟨old, -, rfl⟩ := Option.map_eq_some_iff.1 hstop
    exact ⟨hpos, [], _, h, List.getElem?_eq_getElem (by omega), List.nil_prefix⟩
  · obtain ⟨hlt, rfl⟩ := Array.getElem?_eq_some_iff.1 hstop
    rw [Array.size_range'] at hlt
    have hp := List.getElem?_eq_getElem hlt
    simp only [Array.getElem_range', Nat.one_mul]
    exact ⟨by omega, _, _, hp, by rwa [Nat.add_sub_cancel_left], List.prefix_rfl⟩

/-- The whole pass settles the stops. -/
theorem foldr (h : Settled places [] stops) {ls : List (Nat × Nat)}
    (hls : ∀ l ∈ ls, l.1 < l.2 ∧ ∃ p, places[l.2]? = some p ∧ places[l.1]? = some p.dropLast)
    (hsorted : ls.Pairwise fun l l' => l.2 < l'.2) :
    Settled places ls
      (ls.foldr (fun link stops => stops.modify link.1 (max · (stops.getD link.2 0))) stops) := by
  induction ls with
  | nil => exact h
  | cons link ls ih =>
    obtain ⟨⟨hlt, p, hslot, hparent⟩, hls⟩ := List.forall_mem_cons.1 hls
    obtain ⟨hlink, hsorted⟩ := List.pairwise_cons.1 hsorted
    exact (ih hls hsorted).cons hslot hparent hlt hlink

end Settled

/-! ## The index of a tree -/

variable {root : Node} {slot c : Nat} {p : Place}

/-- A slot holds the node at its place. -/
theorem node?_eq (root : Node) (slot : Nat) :
    (ofNode root).node? slot = root.documentPlaces[slot]?.bind (Place.node? [root]) := by
  cases slot with
  | zero => rfl
  | succ slot => exact (laysOut_ofNode root).node slot

/-- The slots of the parents in the index of a tree. -/
def parentsOf (root : Node) : Array Nat := (visit #[] #[0] [(root, 0)]).2

theorem size_parentsOf (root : Node) : (parentsOf root).size = root.documentPlaces.length :=
  (laysOut_ofNode root).size_parents

theorem slot_pos_iff (h : root.documentPlaces[slot]? = some p) : 0 < slot ↔ p ≠ [] := by
  rw [Place.lt_iff_of_pairwise root.pairwise_documentPlaces rfl h]
  cases p with
  | nil => simp
  | cons i p => simp

/-- Below the document, the slot of a place is linked to that of the place above. -/
theorem exists_link {i : Nat} (h : root.documentPlaces[c]? = some (p ++ [i])) :
    ∃ slot, root.documentPlaces[slot]? = some p ∧ (slot, c) ∈ links (parentsOf root) := by
  have hpos := (slot_pos_iff h).2 (by simp)
  obtain ⟨c, rfl⟩ := Nat.exists_eq_succ_of_ne_zero (Nat.pos_iff_ne_zero.1 hpos)
  obtain ⟨slot, hparent, hplace⟩ := (laysOut_ofNode root).parent c _ h
  rw [List.dropLast_concat] at hplace
  exact ⟨slot, hplace, mem_links.2 ⟨hpos, hparent⟩⟩

/-- A link leads from a place to one a step below. -/
theorem places_of_mem_links (h : (slot, c) ∈ links (parentsOf root)) :
    ∃ p i, root.documentPlaces[slot]? = some p ∧ root.documentPlaces[c]? = some (p ++ [i]) := by
  obtain ⟨hpos, hparent⟩ := mem_links.1 h
  obtain ⟨hlt, -⟩ := Array.getElem?_eq_some_iff.1 hparent
  rw [size_parentsOf] at hlt
  have hc := List.getElem?_eq_getElem hlt
  have hne := (slot_pos_iff hc).1 hpos
  obtain ⟨slot', hplace, hlink⟩ := exists_link
    (hc.trans (congrArg some (List.dropLast_concat_getLast hne).symm))
  obtain rfl := Option.some.inj (hparent.symm.trans (mem_links.1 hlink).2)
  exact ⟨_, _, hplace, hc.trans (congrArg some (List.dropLast_concat_getLast hne).symm)⟩

/-- The child slots of a slot are those of the places one step below. -/
theorem exists_children (h : root.documentPlaces[slot]? = some p) :
    ∃ slots, (ofNode root).children[slot]? = some slots ∧
      ∀ c, c ∈ slots ↔ ∃ i, root.documentPlaces[c]? = some (p ++ [i]) := by
  obtain ⟨hlt, -⟩ := List.getElem?_eq_some_iff.1 h
  obtain ⟨slots, hslots, hmem⟩ := getElem?_childSlots (size_parentsOf root ▸ hlt)
  refine ⟨slots, hslots, fun c => (hmem c).trans ⟨fun hc => ?_, fun ⟨i, hc⟩ => ?_⟩⟩
  · obtain ⟨p', i, hp', hc'⟩ := places_of_mem_links hc
    obtain rfl := Option.some.inj (h.symm.trans hp')
    exact ⟨i, hc'⟩
  · obtain ⟨slot', hslot', hlink⟩ := exists_link hc
    obtain rfl := Place.eq_of_pairwise root.pairwise_documentPlaces h hslot'
    exact hlink

/-- The pass over the links of a tree settles its stops. -/
theorem settled_stops (root : Node) :
    Settled root.documentPlaces (links (parentsOf root)) (ofNode root).stops := by
  have hstart : Settled root.documentPlaces []
      ((Array.range' 1 (parentsOf root).size).modify 0 fun _ => (parentsOf root).size) := by
    rw [size_parentsOf]
    exact .single rfl
  refine hstart.foldr (fun l hl => ?_) (pairwise_links _)
  obtain ⟨p, i, hp, hc⟩ := places_of_mem_links hl
  refine ⟨?_, p ++ [i], hc, by rwa [List.dropLast_concat]⟩
  exact (Place.lt_iff_of_pairwise root.pairwise_documentPlaces hp hc).2 (Place.lt_append (by simp))

/-- The stop of a slot covers those of all slots below. -/
theorem stop_le_of_append {stop stop' : Nat} (path : Place)
    (hs : root.documentPlaces[slot]? = some p) (hc : root.documentPlaces[c]? = some (p ++ path))
    (hstop : (ofNode root).stops[slot]? = some stop)
    (hstop' : (ofNode root).stops[c]? = some stop') : stop' ≤ stop := by
  induction path using List.reverseRecOn generalizing c stop' with
  | nil =>
    rw [List.append_nil] at hc
    obtain rfl := Place.eq_of_pairwise root.pairwise_documentPlaces hs hc
    exact (Option.some.inj (hstop.symm.trans hstop')).ge
  | append_singleton path i ih =>
    rw [← List.append_assoc] at hc
    obtain ⟨parent, hplace, hlink⟩ := exists_link hc
    obtain ⟨hlt, -⟩ := List.getElem?_eq_some_iff.1 hplace
    have hmid := Array.getElem?_eq_getElem ((settled_stops root).size ▸ hlt)
    exact ((settled_stops root).covers _ hlink _ _ hstop' hmid).trans (ih hplace hmid)

/-- The slots between a slot and its stop are those of the places below. -/
theorem exists_stop (h : root.documentPlaces[slot]? = some p) :
    ∃ stop, (ofNode root).stops[slot]? = some stop ∧ ∀ c, slot < c ∧ c < stop ↔
      ∃ path, path ≠ [] ∧ root.documentPlaces[c]? = some (p ++ path) := by
  have hset := settled_stops root
  have hsorted := root.pairwise_documentPlaces
  obtain ⟨hlt, -⟩ := List.getElem?_eq_some_iff.1 h
  have hstop := Array.getElem?_eq_getElem (hset.size ▸ hlt)
  refine ⟨_, hstop, fun c => ⟨fun ⟨hc, hcstop⟩ => ?_, fun ⟨path, hpath, hc⟩ => ?_⟩⟩
  · obtain ⟨-, p', q, hp', hq, hpq⟩ := hset.within _ _ hstop
    obtain rfl := Option.some.inj (h.symm.trans hp')
    obtain ⟨path, rfl⟩ := hpq
    obtain ⟨hlast, -⟩ := List.getElem?_eq_some_iff.1 hq
    have hr := List.getElem?_eq_getElem (show c < root.documentPlaces.length by omega)
    have hpr := (Place.lt_iff_of_pairwise hsorted h hr).1 hc
    have hbelow : p <+: root.documentPlaces[c] := by
      rcases Nat.lt_or_eq_of_le (Nat.le_sub_one_of_lt hcstop) with hclt | rfl
      · exact Place.isPrefix_of_lt_append hpr ((Place.lt_iff_of_pairwise hsorted hr hq).1 hclt)
      · rw [Option.some.inj (hr.symm.trans hq)]
        exact List.prefix_append _ _
    obtain ⟨path', hpath'⟩ := hbelow
    refine ⟨path', ?_, hr.trans (congrArg some hpath'.symm)⟩
    rintro rfl
    rw [List.append_nil] at hpath'
    exact lt_irrefl p (hpath' ▸ hpr)
  · obtain ⟨hclt, -⟩ := List.getElem?_eq_some_iff.1 hc
    have hcstop := Array.getElem?_eq_getElem (hset.size ▸ hclt)
    have hle := stop_le_of_append path h hc hstop hcstop
    obtain ⟨hlt', -⟩ := hset.within _ _ hcstop
    exact ⟨(Place.lt_iff_of_pairwise hsorted h hc).2 (Place.lt_append hpath), by omega⟩

end SyntaxGateway.Query.Index
