import Std.Data.TreeSet
import SyntaxGateway.Query.Basic

/-!
# Evaluating path queries

A tree is laid out in slots: slot 0 is the virtual document, and slot `i` is the `i`-th node in
document order. Every subtree is then a run of slots, so a step to descendants is a range, and a
set of slots in increasing order is in document order.

A look-up of a slot that is not there ends an evaluation without an answer (`evaluate?`).
-/

namespace SyntaxGateway.Query

/-! ## Slots -/

/-- A tree laid out in slots. -/
structure Index where
  /-- The node of each slot from slot 1 on. -/
  nodes : Array Node
  /-- The slots of the children of each slot, in order. -/
  children : Array (Array Nat)
  /-- The slot after the last one of each subtree. -/
  stops : Array Nat

namespace Index

/-- Visits trees from a stack, on which each tree stands with the slot of its parent: the nodes
in document order after `nodes`, and the slots of their parents after `parents`. -/
def visit (nodes : Array Node) (parents : Array Nat) :
    (stack : List (Node × Nat)) → Array Node × Array Nat
  | [] => (nodes, parents)
  | (n, parent) :: stack =>
    visit (nodes.push n) (parents.push parent)
      (n.children.map (fun c => (c, nodes.size + 1)) ++ stack)
termination_by stack => Node.sizeAll (stack.map (·.1))
decreasing_by
  have hsize := n.size_eq
  simp only [List.map_append, List.map_map, Function.comp_def, List.map_id', List.map_cons,
    Node.sizeAll_append, Node.sizeAll]
  omega

/-- The slots below the document, each with the slot of its parent in front. -/
def links (parents : Array Nat) : List (Nat × Nat) := parents.toList.zipIdx.tail

/-- The slots of the children of each slot. -/
def childSlots (parents : Array Nat) : Array (Array Nat) :=
  (links parents).foldl (fun children link => children.modify link.1 (·.push link.2))
    (.replicate parents.size #[])

/-- The ends of the subtrees, from those of single slots. Children stand behind their parents, so
one pass from the last slot to the first is enough. -/
def subtreeStops (parents : Array Nat) : Array Nat :=
  (links parents).foldr (fun link stops => stops.modify link.1 (max · (stops.getD link.2 0)))
    ((Array.range' 1 parents.size).modify 0 fun _ => parents.size)

/-- The slots of the document with a tree below it. -/
def ofNode (root : Node) : Index :=
  let (nodes, parents) := visit #[] #[0] [(root, 0)]
  ⟨nodes, childSlots parents, subtreeStops parents⟩

/-- The node in a slot. There is none in the slot of the document. -/
def node? (x : Index) : (slot : Nat) → Option Node
  | 0 => none
  | slot + 1 => x.nodes[slot]?

/-! ## Steps -/

/-- The slots that an axis reaches from a slot, in increasing order. -/
def reach? (x : Index) (axis : Axis) (slot : Nat) : Option (List Nat) :=
  match axis with
  | .child => x.children[slot]?.map (·.toList)
  | .descendant => x.stops[slot]?.map fun stop => List.range' (slot + 1) (stop - (slot + 1))

/-- The slots among `slots` whose nodes a step accepts. -/
def keep? (x : Index) (s : Step) (slots : List Nat) : Option (List Nat) := do
  let nodes ← slots.mapM x.node?
  return ((slots.zip nodes).filter fun e => s.accepts e.2).map (·.1)

/-- The slots that a step leads to from any of the slots `context`, each once and in increasing
order. -/
def step? (x : Index) (s : Step) (context : List Nat) : Option (List Nat) := do
  let reached ← context.mapM (x.reach? s.axis)
  x.keep? s (Std.TreeSet.ofList reached.flatten).toList

/-- The slots that steps in a row lead to. Nothing is looked up any more once no slot is left. -/
def follow? (x : Index) : List Step → (context : List Nat) → Option (List Nat)
  | [], context => some context
  | s :: steps, context =>
    if context.isEmpty then some context
    else do x.follow? steps (← x.step? s context)

end Index

/-! ## Queries -/

/-- The slots that a query selects, in increasing order. -/
def select? (q : Query) (root : Node) : Option (List Nat) := (Index.ofNode root).follow? q.steps [0]

/-- The nodes that a query selects, in document order. A query without steps stays at the document,
which has no node. -/
def evaluate? (q : Query) (root : Node) : Option (List Node) := do
  let x := Index.ofNode root
  (← x.follow? q.steps [0]).mapM x.node?

/-- The slots that a query selects. Those of a query with a step can always be told. -/
def select (q : Query) (root : Node) : List Nat := (q.select? root).getD []

/-- The nodes that a query selects. Those of a query with a step can always be told. -/
def evaluate (q : Query) (root : Node) : List Node := (q.evaluate? root).getD []

end SyntaxGateway.Query
