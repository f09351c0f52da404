import SyntaxGateway.Entries

/-!
# Syntax trees

A node carries the type tag its driver gave it, the source text it covers when it is a leaf, further
properties by key, roles, and an optional span. Trees come from the syntax service; here they are
decoded, rendered and queried, never edited.

Properties are kept in key order with no key twice (`Properties`), so equal trees have one form.
-/

namespace SyntaxGateway

/-! ## Positions and properties -/

/-- A point in the source text: a byte offset from 0, and a line and a column from 1. -/
structure Position where
  offset : UInt32
  line : UInt32
  col : UInt32
deriving DecidableEq, Repr

/-- Properties by key, in the order of the keys' code points. -/
structure Properties where
  entries : List (String × String) := []
  sorted : entries.Pairwise (·.1 < ·.1) := by exact List.Pairwise.nil

namespace Properties

instance : DecidableEq Properties := fun p q =>
  decidable_of_iff (p.entries = q.entries) (by cases p; cases q; simp)

instance : Inhabited Properties := ⟨{}⟩

/-- The properties that pairs give when set one after the other: of equal keys the last wins. -/
def ofList (pairs : List (String × String)) : Properties :=
  ⟨setEntries pairs, pairwise_setEntries pairs⟩

theorem entries_ofList {pairs : List (String × String)} (h : pairs.Pairwise (·.1 < ·.1)) :
    (ofList pairs).entries = pairs := setEntries_eq_self h

theorem ofList_entries (p : Properties) : ofList p.entries = p := by
  have h := entries_ofList p.sorted
  cases p
  simpa [ofList] using h

/-- The value of a key. -/
def get? (p : Properties) (key : String) : Option String := p.entries.lookup key

end Properties

/-! ## Nodes -/

/-- A node of a syntax tree, with all that hangs below it. -/
inductive Node where
  | mk (internalType token : String) (properties : Properties) (children : List Node)
    (startPosition endPosition : Option Position) (roles : List String)

namespace Node

def internalType : Node → String
  | mk t _ _ _ _ _ _ => t

def token : Node → String
  | mk _ k _ _ _ _ _ => k

def properties : Node → Properties
  | mk _ _ p _ _ _ _ => p

def children : Node → List Node
  | mk _ _ _ cs _ _ _ => cs

def startPosition : Node → Option Position
  | mk _ _ _ _ s _ _ => s

def endPosition : Node → Option Position
  | mk _ _ _ _ _ e _ => e

def roles : Node → List String
  | mk _ _ _ _ _ _ rs => rs

instance : Inhabited Node := ⟨mk "" "" {} [] none none []⟩

/-- Induction over trees: a node may be treated once all its children have been. -/
@[elab_as_elim]
theorem induction {motive : Node → Prop}
    (node : ∀ n : Node, (∀ c ∈ n.children, motive c) → motive n) (n : Node) : motive n :=
  @Node.rec motive (fun cs => ∀ c ∈ cs, motive c)
    (fun t k p cs s e rs ih => node (mk t k p cs s e rs) ih)
    (fun _ h => absurd h List.not_mem_nil)
    (fun _ _ hc hcs => List.forall_mem_cons.2 ⟨hc, hcs⟩) n

/-- The attribute a query predicate names: the two text fields by their own names, anything else a
property. Roles are not reachable here, as a node can have several. -/
def attr? (n : Node) (name : String) : Option String :=
  if name = "internalType" then some n.internalType
  else if name = "token" then some n.token
  else n.properties.get? name

def hasRole (n : Node) (role : String) : Bool := n.roles.contains role

mutual

/-- The number of nodes in the tree. -/
def size : Node → Nat
  | mk _ _ _ cs _ _ _ => 1 + sizeAll cs

/-- The number of nodes in all the trees of a list. -/
def sizeAll : List Node → Nat
  | [] => 0
  | c :: cs => size c + sizeAll cs

end

theorem sizeAll_append (cs ds : List Node) : sizeAll (cs ++ ds) = sizeAll cs + sizeAll ds := by
  induction cs with
  | nil => simp [sizeAll]
  | cons c cs ih => simp [sizeAll, ih, Nat.add_assoc]

theorem size_eq (n : Node) : n.size = 1 + sizeAll n.children := by
  cases n
  rfl

mutual

/-- The number of nodes on a longest path from the root to a leaf. -/
def depth : Node → Nat
  | mk _ _ _ cs _ _ _ => 1 + depthAll cs

/-- The depth of the deepest tree of a list. -/
def depthAll : List Node → Nat
  | [] => 0
  | c :: cs => max (depth c) (depthAll cs)

end

theorem depthAll_le_iff {cs : List Node} {levels : Nat} :
    depthAll cs ≤ levels ↔ ∀ c ∈ cs, c.depth ≤ levels := by
  induction cs with
  | nil => simp [depthAll]
  | cons c cs ih => rw [depthAll, Nat.max_le, ih, List.forall_mem_cons]

theorem depth_le_succ_iff {n : Node} {levels : Nat} :
    n.depth ≤ levels + 1 ↔ ∀ c ∈ n.children, c.depth ≤ levels := by
  cases n
  rw [depth, Nat.add_comm, Nat.add_le_add_iff_right, depthAll_le_iff]
  rfl

theorem depth_pos (n : Node) : 0 < n.depth := by
  cases n
  rw [depth]
  omega

mutual

/-- The nodes of the tree in document order: a node before its children, and these in order. -/
def preOrder : Node → List Node
  | n@(mk _ _ _ cs _ _ _) => n :: preOrderAll cs

/-- The nodes of all the trees of a list, in document order. -/
def preOrderAll : List Node → List Node
  | [] => []
  | c :: cs => preOrder c ++ preOrderAll cs

end

end Node

end SyntaxGateway
