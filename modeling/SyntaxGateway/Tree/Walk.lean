import SyntaxGateway.Tree.Basic

/-!
# Walks

A walk visits the nodes of trees one by one and without recursion. It keeps the trees that are still
to be visited, the next one first; the children of a visited node go in front of the rest. So nodes
come in document order (`toList_eq`).
-/

namespace SyntaxGateway

/-- A walk under way: the trees still to be visited, the next one first. -/
structure Walk where
  pending : List Node

namespace Walk

/-- The next node, and the walk behind it. -/
def next? (w : Walk) : Option (Node × Walk) :=
  match w.pending with
  | [] => none
  | n :: rest => some (n, ⟨n.children ++ rest⟩)

theorem sizeAll_of_next? {w w' : Walk} {n : Node} (h : w.next? = some (n, w')) :
    Node.sizeAll w.pending = Node.sizeAll w'.pending + 1 := by
  obtain ⟨_ | ⟨m, rest⟩⟩ := w
  · simp [next?] at h
  · obtain ⟨rfl, rfl⟩ : m = n ∧ _ = w' := by simpa [next?] using h
    rw [Node.sizeAll, Node.sizeAll_append, m.size_eq]
    omega

/-- The nodes that a walk visits from here on, in its order. -/
def toList (w : Walk) : List Node :=
  match _h : w.next? with
  | none => []
  | some (n, w') => n :: w'.toList
termination_by Node.sizeAll w.pending
decreasing_by
  have := sizeAll_of_next? _h
  omega

end Walk

/-- The walk through a tree. -/
def Node.walk (n : Node) : Walk := ⟨[n]⟩

/-! ## Order -/

namespace Node

theorem preOrder_eq (n : Node) : n.preOrder = n :: preOrderAll n.children := by
  cases n
  rfl

theorem preOrderAll_append (cs ds : List Node) :
    preOrderAll (cs ++ ds) = preOrderAll cs ++ preOrderAll ds := by
  induction cs with
  | nil => rfl
  | cons c cs ih => rw [List.cons_append, preOrderAll, preOrderAll, ih, List.append_assoc]

/-- The trees of a list have the nodes of the first one's root, of its children, and of the rest. -/
theorem preOrderAll_cons (n : Node) (rest : List Node) :
    preOrderAll (n :: rest) = n :: preOrderAll (n.children ++ rest) := by
  rw [preOrderAll, preOrder_eq, preOrderAll_append, List.cons_append]

theorem length_preOrderAll (cs : List Node) (h : ∀ c ∈ cs, c.preOrder.length = c.size) :
    (preOrderAll cs).length = sizeAll cs := by
  induction cs with
  | nil => rfl
  | cons c cs ih =>
    obtain ⟨hc, hcs⟩ := List.forall_mem_cons.1 h
    rw [preOrderAll, List.length_append, hc, ih hcs, sizeAll]

theorem length_preOrder (n : Node) : n.preOrder.length = n.size := by
  induction n using Node.induction with
  | node n ih =>
    rw [preOrder_eq, List.length_cons, length_preOrderAll n.children ih, size_eq, Nat.add_comm]

end Node

/-- A walk visits the nodes of its trees in document order. -/
theorem Walk.toList_eq (w : Walk) : w.toList = Node.preOrderAll w.pending := by
  induction w using Walk.toList.induct with
  | case1 w h =>
    obtain ⟨_ | ⟨n, rest⟩⟩ := w
    · rw [toList, h]
      rfl
    · simp [next?] at h
  | case2 w n w' h ih =>
    obtain ⟨_ | ⟨m, rest⟩⟩ := w
    · simp [next?] at h
    · obtain ⟨rfl, rfl⟩ : m = n ∧ _ = w' := by simpa [next?] using h
      rw [toList, h, Node.preOrderAll_cons]
      exact congrArg _ ih

theorem Node.toList_walk (n : Node) : n.walk.toList = n.preOrder := by
  rw [Walk.toList_eq, walk, preOrderAll, preOrderAll, List.append_nil]

end SyntaxGateway
