import Mathlib.Data.List.Lex
import SyntaxGateway.Tree.Basic

/-!
# Places in a tree

A place says where a node stands: the list of child numbers on the way down to it. Trees that stand
side by side are numbered from 0, so a document is the list of its one root, its own place is `[]`,
and the root stands at `[0]`. Equal nodes at different places are told apart by them.

Document order is the lexicographic order of places: a node stands before its children, and these in
order.

* `Node.mem_placesFrom`: the list of places holds exactly the places where a node stands.
* `Node.pairwise_placesFrom`: it is in document order, with no place twice.
* `Place.isPrefix_of_lt_append`: between a place and one below it there are only places below it.
-/

namespace SyntaxGateway

/-- The child numbers on the way down to a node. -/
abbrev Place := List Nat

namespace Place

/-- The node at a place below trees that stand side by side. There is none at `[]`, which is where
the document stands. -/
def node? (trees : List Node) : Place → Option Node
  | [] => none
  | i :: path => trees[i]?.bind fun n => if path = [] then some n else node? n.children path

@[simp] theorem node?_nil (trees : List Node) : node? trees [] = none := rfl

theorem node?_cons (trees : List Node) (i : Nat) (path : Place) :
    node? trees (i :: path) =
      trees[i]?.bind fun n => if path = [] then some n else node? n.children path := rfl

@[simp] theorem node?_singleton (trees : List Node) (i : Nat) : node? trees [i] = trees[i]? := by
  simp [node?_cons]

/-- Below a node stand its children. -/
theorem node?_append {trees : List Node} {p path : Place} {n : Node} (h : node? trees p = some n)
    (hpath : path ≠ []) : node? trees (p ++ path) = node? n.children path := by
  induction p generalizing trees with
  | nil => simp at h
  | cons i p ih =>
    rw [node?_cons] at h
    obtain ⟨m, hm, h⟩ := Option.bind_eq_some_iff.1 h
    rw [List.cons_append, node?_cons, hm, Option.bind_some, if_neg (by simp [hpath])]
    split at h
    · next hp =>
      obtain rfl := Option.some.inj h
      rw [hp, List.nil_append]
    · exact ih h

/-- Above a node stand nodes. -/
theorem exists_node?_of_append {trees : List Node} {p path : Place} {n : Node} (hp : p ≠ [])
    (h : node? trees (p ++ path) = some n) : ∃ m, node? trees p = some m := by
  induction p generalizing trees with
  | nil => exact absurd rfl hp
  | cons i p ih =>
    rw [List.cons_append, node?_cons] at h
    obtain ⟨m, hm, h⟩ := Option.bind_eq_some_iff.1 h
    rw [node?_cons, hm, Option.bind_some]
    by_cases hnil : p = []
    · exact ⟨m, if_pos hnil⟩
    · rw [if_neg (by simp [hnil])] at h
      rw [if_neg hnil]
      exact ih hnil h

/-! ## Document order -/

theorem lt_append {p path : Place} (hpath : path ≠ []) : p < p ++ path := by
  induction p with
  | nil =>
    cases path with
    | nil => exact absurd rfl hpath
    | cons i path => exact List.nil_lt_cons i path
  | cons i p ih => exact List.cons_lt_cons_iff.2 (.inr ⟨rfl, ih⟩)

/-- In a list in document order, the positions are ordered as the places in them. -/
theorem lt_iff_of_pairwise {places : List Place} (h : places.Pairwise (· < ·)) {i j : Nat}
    {p q : Place} (hi : places[i]? = some p) (hj : places[j]? = some q) : i < j ↔ p < q := by
  have hlt {i j : Nat} {p q : Place} (hi : places[i]? = some p) (hj : places[j]? = some q)
      (hij : i < j) : p < q := by
    obtain ⟨hi', rfl⟩ := List.getElem?_eq_some_iff.1 hi
    obtain ⟨hj', rfl⟩ := List.getElem?_eq_some_iff.1 hj
    exact List.pairwise_iff_getElem.1 h i j hi' hj' hij
  refine ⟨hlt hi hj, fun hpq => ?_⟩
  by_contra hle
  rcases Nat.lt_or_eq_of_le (Nat.le_of_not_lt hle) with hji | rfl
  · exact lt_asymm hpq (hlt hj hi hji)
  · rw [hi] at hj
    exact lt_irrefl q (Option.some.inj hj ▸ hpq)

theorem eq_of_pairwise {places : List Place} (h : places.Pairwise (· < ·)) {i j : Nat} {p : Place}
    (hi : places[i]? = some p) (hj : places[j]? = some p) : i = j := by
  rcases Nat.lt_trichotomy i j with hij | hij | hij
  · exact absurd ((lt_iff_of_pairwise h hi hj).1 hij) (lt_irrefl p)
  · exact hij
  · exact absurd ((lt_iff_of_pairwise h hj hi).1 hij) (lt_irrefl p)

/-- Between a place and one below it there are only places below it. -/
theorem isPrefix_of_lt_append {p q path : Place} (hp : p < q) (hq : q < p ++ path) : p <+: q := by
  induction p generalizing q with
  | nil => exact List.nil_prefix
  | cons i p ih =>
    cases q with
    | nil => exact absurd hp (List.not_lt_nil _)
    | cons j q =>
      rw [List.cons_append] at hq
      rcases List.cons_lt_cons_iff.1 hp with hij | ⟨rfl, hpq⟩
      · rcases List.cons_lt_cons_iff.1 hq with hji | ⟨rfl, -⟩
        · omega
        · omega
      · rcases List.cons_lt_cons_iff.1 hq with hji | ⟨-, hq⟩
        · omega
        · exact List.cons_prefix_cons.2 ⟨rfl, ih hpq hq⟩

end Place

namespace Node

mutual

/-- The places of a tree's nodes below its root, which stands at `[]` here, in document order. -/
def places : Node → List Place
  | mk _ _ _ cs _ _ _ => [] :: placesFrom 0 cs

/-- The places of the nodes of trees that stand side by side, the first of them under number `i`,
in document order. -/
def placesFrom (i : Nat) : List Node → List Place
  | [] => []
  | c :: cs => (places c).map (i :: ·) ++ placesFrom (i + 1) cs

end

theorem places_eq (n : Node) : n.places = [] :: placesFrom 0 n.children := by
  cases n
  rfl

theorem mem_placesFrom_iff {i : Nat} {trees : List Node} {p : Place} :
    p ∈ placesFrom i trees ↔
      ∃ j path n, p = (i + j) :: path ∧ trees[j]? = some n ∧ path ∈ n.places := by
  induction trees generalizing i with
  | nil => simp [placesFrom]
  | cons c cs ih =>
    rw [placesFrom, List.mem_append, List.mem_map, ih]
    constructor
    · rintro (⟨path, hpath, rfl⟩ | ⟨j, path, n, rfl, hn, hpath⟩)
      · exact ⟨0, path, c, rfl, rfl, hpath⟩
      · exact ⟨j + 1, path, n, by rw [Nat.add_right_comm, Nat.add_assoc], hn, hpath⟩
    · rintro ⟨j, path, n, rfl, hn, hpath⟩
      cases j with
      | zero =>
        obtain rfl := Option.some.inj hn
        exact .inl ⟨path, hpath, rfl⟩
      | succ j => exact .inr ⟨j, path, n, by rw [Nat.add_right_comm, Nat.add_assoc], hn, hpath⟩

/-- The places listed are those where a node stands. -/
theorem mem_placesFrom {trees : List Node} {p : Place} :
    p ∈ placesFrom 0 trees ↔ ∃ n, Place.node? trees p = some n := by
  induction p generalizing trees with
  | nil => simp [mem_placesFrom_iff]
  | cons i path ih =>
    rw [mem_placesFrom_iff]
    constructor
    · rintro ⟨j, path', n, heq, hn, hpath⟩
      obtain ⟨rfl, rfl⟩ := List.cons.inj heq
      rw [Nat.zero_add, Place.node?_cons, hn, Option.bind_some]
      rw [places_eq, List.mem_cons] at hpath
      split
      · exact ⟨n, rfl⟩
      · next hne => exact ih.1 (hpath.resolve_left hne)
    · rintro ⟨m, hm⟩
      obtain ⟨n, hn, h⟩ := Option.bind_eq_some_iff.1 hm
      refine ⟨i, path, n, by rw [Nat.zero_add], hn, ?_⟩
      rw [places_eq, List.mem_cons]
      split at h
      · next hnil => exact .inl hnil
      · exact .inr (ih.2 ⟨m, h⟩)

theorem pairwise_placesFrom {trees : List Node}
    (h : ∀ n ∈ trees, n.places.Pairwise (· < ·)) (i : Nat) :
    (placesFrom i trees).Pairwise (· < ·) := by
  induction trees generalizing i with
  | nil => exact .nil
  | cons c cs ih =>
    obtain ⟨hc, hcs⟩ := List.forall_mem_cons.1 h
    refine List.pairwise_append.2 ⟨?_, ih hcs (i + 1), ?_⟩
    · exact List.pairwise_map.2 (hc.imp fun hlt => List.cons_lt_cons_iff.2 (.inr ⟨rfl, hlt⟩))
    · intro p hp q hq
      obtain ⟨path, -, rfl⟩ := List.mem_map.1 hp
      obtain ⟨j, path', -, rfl, -, -⟩ := mem_placesFrom_iff.1 hq
      exact List.cons_lt_cons_iff.2 (.inl (by omega))

/-- The places are listed in document order, each once. -/
theorem pairwise_places (n : Node) : n.places.Pairwise (· < ·) := by
  induction n using Node.induction with
  | node n ih =>
    rw [places_eq]
    refine List.pairwise_cons.2 ⟨fun p hp => ?_, pairwise_placesFrom ih 0⟩
    obtain ⟨j, path, -, rfl, -, -⟩ := mem_placesFrom_iff.1 hp
    exact List.nil_lt_cons _ _

theorem placesFrom_eq (i : Nat) (trees : List Node) :
    placesFrom i trees = (trees.zipIdx i).flatMap fun e => e.1.places.map (e.2 :: ·) := by
  induction trees generalizing i with
  | nil => rfl
  | cons c cs ih => rw [placesFrom, ih, List.zipIdx_cons, List.flatMap_cons]

/-- The places of the document and of the nodes of the tree below it, in document order. -/
def documentPlaces (root : Node) : List Place := [] :: placesFrom 0 [root]

theorem mem_documentPlaces {root : Node} {p : Place} :
    p ∈ root.documentPlaces ↔ p = [] ∨ ∃ n, Place.node? [root] p = some n := by
  rw [documentPlaces, List.mem_cons, mem_placesFrom]

theorem pairwise_documentPlaces (root : Node) : root.documentPlaces.Pairwise (· < ·) := by
  refine List.pairwise_cons.2 ⟨fun p hp => ?_, pairwise_placesFrom (fun n _ => pairwise_places n) 0⟩
  obtain ⟨j, path, -, rfl, -, -⟩ := mem_placesFrom_iff.1 hp
  exact List.nil_lt_cons _ _

end Node

end SyntaxGateway
