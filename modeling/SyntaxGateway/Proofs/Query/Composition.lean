import SyntaxGateway.Proofs.Query.Occurrences

/-!
# Queries one after the other

**Theorem (`mem_occurrences_append_iff`).** What the steps of two queries in a row match on a tree
is what the second query matches in the children of the matches of the first, each child taken as a
tree of its own. The answer lists these places in document order and each once, also where matches
of the first query lie inside one another.

A place in a subtree is a place of the whole tree behind the place of the subtree. Chains of moves
that start inside a subtree stay there, so they are chains of the subtree as a tree of its own
(`leads_below_iff`). The first move of the second query goes from a match into one of its children,
as it goes from a document into its tree (`moves_into_iff`).
-/

namespace SyntaxGateway.Query

variable {root c : Node} {p p' base path : Place} {axis : Axis}

/-! ## Chains of moves -/

theorem leads_nil_iff : Leads root [] p p' ↔ p = p' := by
  constructor
  · intro h
    cases h
    rfl
  · intro h
    exact h ▸ .stay p

theorem leads_cons_iff {s : Step} {steps : List Step} :
    Leads root (s :: steps) p p' ↔
      ∃ m, s.axis.Moves root p m ∧ s.Keeps root m ∧ Leads root steps m p' := by
  constructor
  · intro h
    cases h with
    | move hmoves hkeeps hrest => exact ⟨_, hmoves, hkeeps, hrest⟩
  · intro ⟨m, hmoves, hkeeps, hrest⟩
    exact .move hmoves hkeeps hrest

/-- A chain through two lists of steps passes a place between them. -/
theorem leads_append_iff {steps steps' : List Step} :
    Leads root (steps ++ steps') p p' ↔
      ∃ m, Leads root steps p m ∧ Leads root steps' m p' := by
  induction steps generalizing p with
  | nil => simp [leads_nil_iff]
  | cons s steps ih =>
    simp only [List.cons_append, leads_cons_iff, ih]
    constructor
    · intro ⟨m, hmoves, hkeeps, m', hrest, hrest'⟩
      exact ⟨m', ⟨m, hmoves, hkeeps, hrest⟩, hrest'⟩
    · intro ⟨m', ⟨m, hmoves, hkeeps, hrest⟩, hrest'⟩
      exact ⟨m, hmoves, hkeeps, m', hrest, hrest'⟩

/-- The ways down that an axis goes. -/
def Axis.Spans : Axis → Place → Prop
  | .child, down => ∃ i, down = [i]
  | .descendant, down => down ≠ []

theorem moves_iff_spans :
    axis.Moves root p p' ↔
      ∃ down, axis.Spans down ∧ p' = p ++ down ∧ ∃ n, Place.node? [root] p' = some n := by
  rw [moves_iff]
  cases axis with
  | child =>
    constructor
    · intro ⟨hn, i, hp⟩
      exact ⟨[i], ⟨i, rfl⟩, hp, hn⟩
    · intro ⟨_, ⟨i, rfl⟩, hp, hn⟩
      exact ⟨hn, i, hp⟩
  | descendant =>
    constructor
    · intro ⟨hn, down, hdown, hp⟩
      exact ⟨down, hdown, hp, hn⟩
    · intro ⟨down, hdown, hp, hn⟩
      exact ⟨hn, down, hdown, hp⟩

theorem Axis.Spans.exists_cons {down : Place} (h : axis.Spans down) :
    ∃ i path, down = i :: path := by
  cases axis with
  | child =>
    obtain ⟨i, rfl⟩ := h
    exact ⟨i, [], rfl⟩
  | descendant => exact List.exists_cons_of_ne_nil h

theorem Axis.spans_cons_iff {i j : Nat} : axis.Spans (i :: path) ↔ axis.Spans (j :: path) := by
  cases axis <;> simp [Axis.Spans]

/-! ## Trees of their own -/

/-- All nodes of a document are in its tree. -/
theorem exists_cons_of_node? {n : Node} (h : Place.node? [c] p = some n) :
    ∃ path, p = 0 :: path := by
  cases p with
  | nil => cases h
  | cons i path =>
    obtain ⟨m, hm, -⟩ := Option.bind_eq_some_iff.1 h
    obtain ⟨hi, -⟩ := List.getElem?_eq_some_iff.1 hm
    obtain rfl := Nat.lt_one_iff.1 hi
    exact ⟨path, rfl⟩

section Subtree

variable (hbase : Place.node? [root] base = some c)
include hbase

/-- What stands at a place of a subtree stands behind the subtree's place in the whole tree. -/
theorem node?_below (path : Place) :
    Place.node? [root] (base ++ path) = Place.node? [c] (0 :: path) := by
  rw [Place.node?_cons, List.getElem?_cons_zero, Option.bind_some]
  by_cases hpath : path = []
  · rw [if_pos hpath, hpath, List.append_nil, hbase]
  · rw [if_neg hpath, Place.node?_append hbase hpath]

theorem keeps_below_iff {s : Step} : s.Keeps root (base ++ path) ↔ s.Keeps c (0 :: path) := by
  rw [Step.Keeps, Step.Keeps, node?_below hbase]

/-- Moves from inside a subtree do not leave it. -/
theorem moves_below_iff :
    axis.Moves root (base ++ path) p ↔
      ∃ path', p = base ++ path' ∧ axis.Moves c (0 :: path) (0 :: path') := by
  simp only [moves_iff_spans]
  constructor
  · intro ⟨down, hdown, hp, hnode⟩
    rw [List.append_assoc] at hp
    rw [hp, node?_below hbase] at hnode
    exact ⟨path ++ down, hp, down, hdown, rfl, hnode⟩
  · intro ⟨path', hp, down, hdown, hpath', hnode⟩
    obtain rfl : path' = path ++ down := (List.cons.inj hpath').2
    rw [← node?_below hbase, ← hp] at hnode
    exact ⟨down, hdown, by rw [hp, List.append_assoc], hnode⟩

/-- Chains of moves from inside a subtree are those of the subtree as a tree of its own. -/
theorem leads_below_iff {steps : List Step} :
    Leads root steps (base ++ path) p ↔
      ∃ path', p = base ++ path' ∧ Leads c steps (0 :: path) (0 :: path') := by
  induction steps generalizing path with
  | nil =>
    simp only [leads_nil_iff]
    constructor
    · intro h
      exact ⟨path, h.symm, rfl⟩
    · intro ⟨path', hp, hpath⟩
      rw [hp, (List.cons.inj hpath).2]
  | cons s steps ih =>
    simp only [leads_cons_iff]
    constructor
    · intro ⟨m, hmoves, hkeeps, hrest⟩
      obtain ⟨mid, rfl, hmoves'⟩ := (moves_below_iff hbase).1 hmoves
      obtain ⟨path', hp, hrest'⟩ := ih.1 hrest
      exact ⟨path', hp, _, hmoves', (keeps_below_iff hbase).1 hkeeps, hrest'⟩
    · intro ⟨path', hp, m, hmoves, hkeeps, hrest⟩
      obtain ⟨down, -, rfl, -⟩ := moves_iff_spans.1 hmoves
      exact ⟨base ++ (path ++ down), (moves_below_iff hbase).2 ⟨_, rfl, hmoves⟩,
        (keeps_below_iff hbase).2 hkeeps, ih.2 ⟨path', hp, hrest⟩⟩

end Subtree

/-- The first move from a place goes into one of the trees below it, as from the document of this
tree. -/
theorem moves_into_iff :
    axis.Moves root p p' ↔
      ∃ i c path, Place.node? [root] (p ++ [i]) = some c ∧ p' = p ++ i :: path ∧
        axis.Moves c [] (0 :: path) := by
  simp only [moves_iff_spans]
  constructor
  · intro ⟨down, hdown, hp, n, hn⟩
    obtain ⟨i, path, rfl⟩ := hdown.exists_cons
    rw [hp, List.append_cons] at hn
    obtain ⟨c, hc⟩ := Place.exists_node?_of_append (by simp) hn
    rw [node?_below hc] at hn
    exact ⟨i, c, path, hc, hp, _, Axis.spans_cons_iff.1 hdown, rfl, n, hn⟩
  · intro ⟨i, c, path, hc, hp, down, hdown, hpath, n, hn⟩
    obtain rfl : 0 :: path = down := hpath
    rw [← node?_below hc, ← List.append_cons, ← hp] at hn
    exact ⟨_, Axis.spans_cons_iff.1 hdown, hp, n, hn⟩

/-- The first move of a chain goes into a tree below the place, and the rest of it stays there. -/
theorem leads_into_iff {steps : List Step} (hsteps : steps ≠ []) :
    Leads root steps p p' ↔
      ∃ i c path, Place.node? [root] (p ++ [i]) = some c ∧ p' = p ++ i :: path ∧
        Leads c steps [] (0 :: path) := by
  obtain ⟨s, steps, rfl⟩ := List.exists_cons_of_ne_nil hsteps
  simp only [leads_cons_iff]
  constructor
  · intro ⟨m, hmoves, hkeeps, hrest⟩
    obtain ⟨i, c, mid, hc, rfl, hmoves'⟩ := moves_into_iff.1 hmoves
    rw [List.append_cons] at hkeeps hrest
    obtain ⟨path, hp, hrest'⟩ := (leads_below_iff hc).1 hrest
    rw [← List.append_cons] at hp
    exact ⟨i, c, path, hc, hp, _, hmoves', (keeps_below_iff hc).1 hkeeps, hrest'⟩
  · intro ⟨i, c, path, hc, hp, m, hmoves, hkeeps, hrest⟩
    have ⟨n, hn, _⟩ := hkeeps
    obtain ⟨mid, rfl⟩ := exists_cons_of_node? hn
    refine ⟨p ++ i :: mid, moves_into_iff.2 ⟨i, c, mid, hc, rfl, hmoves⟩, ?_⟩
    rw [List.append_cons] at hp ⊢
    exact ⟨(keeps_below_iff hc).2 hkeeps, (leads_below_iff hc).2 ⟨path, hp, hrest⟩⟩

/-! ## Queries -/

/-- What steps in a row match is what the later ones match in the children of the matches of the
earlier ones, each child as a tree of its own. It is listed in document order and each once. -/
theorem mem_occurrences_append_iff (q r : List Step) (root : Node) (hq : q ≠ []) (hr : r ≠ []) :
    Answered ⟨q⟩ root ∧ (∀ c, Answered ⟨r⟩ c) ∧ Answered ⟨q ++ r⟩ root ∧
      (occurrences ⟨q ++ r⟩ root).Pairwise (· < ·) ∧
      ∀ p, p ∈ occurrences ⟨q ++ r⟩ root ↔
        ∃ n ∈ occurrences ⟨q⟩ root, ∃ i c path, Place.node? [root] (n ++ [i]) = some c ∧
          0 :: path ∈ occurrences ⟨r⟩ c ∧ p = n ++ i :: path := by
  have hqr : q ++ r ≠ [] := fun h => hq (List.append_eq_nil_iff.1 h).1
  refine ⟨answered hq, fun c => answered hr, answered hqr, pairwise_occurrences hqr, fun p => ?_⟩
  rw [mem_occurrences hqr, leads_append_iff]
  constructor
  · intro ⟨n, hn, hp⟩
    obtain ⟨i, c, path, hc, hp, hpath⟩ := (leads_into_iff hr).1 hp
    exact ⟨n, (mem_occurrences hq).2 hn, i, c, path, hc, (mem_occurrences hr).2 hpath, hp⟩
  · intro ⟨n, hn, i, c, path, hc, hpath, hp⟩
    have hinto := (leads_into_iff hr).2 ⟨i, c, path, hc, hp, (mem_occurrences hr).1 hpath⟩
    exact ⟨n, (mem_occurrences hq).1 hn, hinto⟩

/-- A leaf inside two nested matches is listed once, though children of both hold it. -/
theorem mem_occurrences_append_nested :
    let leaf : Node := .mk "Leaf" "" {} [] none none []
    let inner : Node := .mk "Block" "" {} [leaf] none none []
    let root : Node := .mk "Block" "" {} [inner] none none []
    let q : List Step := [⟨.descendant, .type "Block", []⟩]
    let r : List Step := [⟨.descendant, .type "Leaf", []⟩]
    q ≠ [] ∧ r ≠ [] ∧ (occurrences ⟨q ++ r⟩ root).Pairwise (· < ·) ∧
      [0, 0, 0] ∈ occurrences ⟨q ++ r⟩ root := by
  intro leaf inner root q r
  have hq : q ≠ [] := nofun
  have hr : r ≠ [] := nofun
  obtain ⟨-, -, -, hordered, hmem⟩ := mem_occurrences_append_iff q r root hq hr
  refine ⟨hq, hr, hordered, (hmem _).2 ?_⟩
  have houter : Leads root q [] [0] :=
    .move (.single ⟨⟨0, rfl⟩, root, rfl⟩) ⟨root, rfl, .type root, nofun⟩ (.stay _)
  have hleaf : Leads inner r [] [0, 0] :=
    .move (moves_iff.2 ⟨⟨leaf, rfl⟩, [0, 0], nofun, rfl⟩) ⟨leaf, rfl, .type leaf, nofun⟩ (.stay _)
  exact ⟨[0], (mem_occurrences hq).2 houter, 0, inner, [0], rfl,
    (mem_occurrences hr).2 hleaf, rfl⟩

end SyntaxGateway.Query
