import Mathlib
import SyntaxGateway.Proofs.Json.Nesting
import SyntaxGateway.Proofs.Tree.RoundTrip
import SyntaxGateway.Tree.Reading

/-!
# Nothing of a tree is lost in JSON

**Theorem (`Node.toJson_lossless`).** Trees with the same JSON text are the same tree, however deep
they are. Reading the text of a tree gives the tree back if its depth is at most 63, and is refused
for too much nesting if it is deeper; no other tree is ever read.

The readers of the parts find what was written (`Position.finds_scan`, `Properties.finds_entries`,
`finds_strings`). A node takes two levels for itself, its object and the array of its children, and
nothing else in it nests deeper than that array when it is empty; so the levels that a tree needs
are twice its depth (`Node.finds_scan`, an induction over trees in which the levels go down by two).
The limit of 127 levels then is one of 63 nodes on a path. For two trees with one text there are
levels enough for both, and the text is read as only one of them.
-/

namespace SyntaxGateway

open Json Json.WrittenField

variable {levels : Nat}

/-! ## Positions -/

namespace Position

theorem finds_scanNumber (n : UInt32) :
    Finds scanNumber levels 0 (Utf8.ofString (toString n.toNat)) n := by
  intro rest hrest
  have hread : natural "u32" (Nat.pow 2 32) (Utf8.ofString (toString n.toNat) ++ rest) =
      .ok (n.toNat, rest) := natural_toString n.toNat_lt (by decide) hrest
  have hscan : scanNumber (Utf8.ofString (toString n.toNat) ++ rest) = .ok (n, rest) := by
    rw [scanNumber, hread]
    simp [bind, Except.bind, pure, Except.pure]
  rw [hscan]
  exact needs_ok _

theorem finds_scan (p : Position) : Finds (scan levels) levels 1 (Utf8.ofString p.toJson) p := by
  rw [toJson, ofString_object]
  cases levels with
  | zero => exact finds_record_zero _ _ _ _
  | succ levels =>
    have hfields : List.Forall₂ (IsFor levels) fields [_, _, _] :=
      .cons (isFor_ofScan (finds_scanNumber p.offset)) <|
      .cons (isFor_ofScan (finds_scanNumber p.line)) <|
      .cons (isFor_ofScan (finds_scanNumber p.col)) .nil
    exact finds_record hfields (by simp) "Position" ⟨0, 0, 0⟩

/-- A position that is absent enters nothing. -/
theorem finds_optional (levels : Nat) (p : Option Position) : ∃ need ≤ 1,
    Finds (nullable (scan levels)) levels need (Utf8.ofString (optional (p.map (·.toJson)))) p := by
  cases p with
  | none => exact ⟨0, by omega, finds_null _⟩
  | some p =>
    have hp : Finds (scan levels) levels 1 (Utf8.ofString p.toJson) p := finds_scan p
    refine ⟨1, le_rfl, ?_⟩
    change Finds _ _ _ (Utf8.ofString p.toJson) _
    rw [toJson, ofString_object] at hp ⊢
    exact finds_nullable hp

end Position

/-! ## Lists of strings, and properties -/

theorem finds_strings (ss : List String) :
    Finds (list levels string) levels 1 (Utf8.ofString (array (ss.map quote))) ss := by
  have hlist : Finds (list levels string) levels (deepest (fun _ => 0) ss + 1)
      (0x5B :: (separated true (ss.map fun s => Utf8.ofString (quote s)) ++ [0x5D])) ss :=
    finds_list (fun _ _ s _ => finds_string s) fun s _ => (stringText_quote s).starts
  rw [deepest_const] at hlist
  simp only [ofString_array, List.map_map, Function.comp_def]
  exact hlist

theorem Properties.finds_entries (p : Properties) :
    Finds (dictionary levels string) levels 1 (Utf8.ofString p.toJson) p.entries := by
  have hdictionary : Finds (dictionary levels string) levels (deepest (fun _ => 0) p.entries + 1)
      (0x7B :: (separated true
        (p.entries.map fun e => memberText e.1 (Utf8.ofString (quote e.2))) ++ [0x7D]))
      p.entries :=
    @finds_dictionary _ levels string (fun s => Utf8.ofString (quote s)) (fun _ => 0) p.entries
      fun _ _ e _ => finds_string e.2
  rw [deepest_const] at hdictionary
  simp only [Properties.toJson, ofString_object, List.map_map, Function.comp_def]
  exact hdictionary

/-! ## Nodes -/

namespace Node

theorem toJsonAll_eq (cs : List Node) : toJsonAll cs = cs.map toJson := by
  induction cs with
  | nil => rfl
  | cons c cs ih => rw [toJsonAll, ih, List.map_cons]

theorem deepest_depth (cs : List Node) : deepest (fun c => 2 * c.depth) cs = 2 * depthAll cs := by
  induction cs with
  | nil => rfl
  | cons c cs ih =>
    change max (2 * c.depth) (deepest (fun c => 2 * c.depth) cs) = _
    rw [ih, depthAll]
    omega

theorem starts_toJson (n : Node) : Starts (Utf8.ofString n.toJson) := by
  cases n
  rw [toJson, ofString_object]
  exact starts_opening .object

theorem finds_children {child : Scan Node} {cs : List Node}
    (h : ∀ inner, levels = inner + 1 →
      ∀ c ∈ cs, Finds child inner (2 * c.depth) (Utf8.ofString c.toJson) c) :
    Finds (list levels child) levels (2 * depthAll cs + 1)
      (Utf8.ofString (array (toJsonAll cs))) cs := by
  rw [toJsonAll_eq, ofString_array, List.map_map, ← deepest_depth]
  exact finds_list h fun c _ => c.starts_toJson

/-- A node is found if its children are, with the levels that are left inside their array. -/
theorem finds_fields {child : Scan Node} {n : Node}
    (h : ∀ inner, levels = inner + 1 →
      ∀ c ∈ n.children, Finds child inner (2 * c.depth) (Utf8.ofString c.toJson) c) :
    Finds (record (levels + 1) "Node" (fields levels child) default) (levels + 1) (2 * n.depth)
      (Utf8.ofString n.toJson) n := by
  obtain ⟨t, k, p, cs, s, e, rs⟩ := n
  obtain ⟨needStart, hneedStart, hs⟩ := Position.finds_optional levels s
  obtain ⟨needEnd, hneedEnd, he⟩ := Position.finds_optional levels e
  have hfields : List.Forall₂ (IsFor levels) (fields levels child) [_, _, _, _, _, _, _] :=
    .cons (isFor_ofScan (finds_string t)) <|
    .cons (isFor_ofScan (finds_string k)) <| .cons (isFor_ofScan p.finds_entries) <|
    .cons (isFor_ofScan (finds_children h)) <| .cons (isFor_ofScan hs) <|
    .cons (isFor_ofScan he) <| .cons (isFor_ofScan (finds_strings rs)) .nil
  have hnode : mk t k (.ofList p.entries) cs s e rs = mk t k p cs s e rs := by
    rw [Properties.ofList_entries]
  have hneed : max 0 (max 0 (max 1 (max (2 * depthAll cs + 1)
      (max needStart (max needEnd (max 1 0)))))) + 1 = 2 * (1 + depthAll cs) := by
    omega
  have hrecord := finds_record hfields (by simp) "Node" default
  simp only [List.map_cons, List.map_nil, member] at hrecord
  rw [toJson, ofString_object, depth, ← hnode, ← hneed]
  simp only [List.map_cons, List.map_nil]
  exact hrecord

/-- On its own text, a reader of nodes finds the node if there are two levels for each level of
it. -/
theorem finds_scan (n : Node) (levels : Nat) :
    Finds (scan levels) levels (2 * n.depth) (Utf8.ofString n.toJson) n := by
  induction n using Node.induction generalizing levels with
  | node n ih =>
    match levels with
    | 0 =>
      obtain ⟨t, k, p, cs, s, e, rs⟩ := n
      have hneed : 2 * (1 + depthAll cs) = 2 * depthAll cs + 1 + 1 := by omega
      rw [toJson, ofString_object, depth, hneed]
      exact finds_record_zero _ _ _ _
    | 1 =>
      -- No level is left for the array of the children, so their reader is not asked.
      exact finds_fields fun inner hinner => absurd hinner (by omega)
    | levels + 2 =>
      refine finds_fields fun inner hinner c hc => ?_
      obtain rfl := Nat.succ.inj hinner
      exact ih c hc levels

/-! ## Whole texts -/

theorem ofJson_toJson {n : Node} (h : n.depth ≤ 63) :
    ofJson (Utf8.ofString n.toJson) = .ok n := by
  have hscan : scan maxNesting (Utf8.ofString n.toJson ++ []) = .ok (n, []) :=
    (n.finds_scan maxNesting [] (by simp [Stops])).ok (by unfold maxNesting; omega)
  rw [List.append_nil] at hscan
  rw [ofJson, whole, hscan]
  rfl

theorem ofJson_toJson_tooNested {n : Node} (h : 63 < n.depth) :
    ∃ fault, ofJson (Utf8.ofString n.toJson) = .error fault ∧ fault.problem = .tooNested := by
  obtain ⟨fault, hscan, hproblem⟩ :=
    (n.finds_scan maxNesting [] (by simp [Stops])).fails (by unfold maxNesting; omega)
  rw [List.append_nil] at hscan
  exact ⟨fault, by rw [ofJson, whole, hscan]; rfl, hproblem⟩

/-- With levels enough for both, one text is read as one tree. -/
theorem toJson_injective : Function.Injective toJson := by
  intro m n h
  have hm := (m.finds_scan (2 * max m.depth n.depth) [] (by simp [Stops])).ok (by omega)
  have hn := (n.finds_scan (2 * max m.depth n.depth) [] (by simp [Stops])).ok (by omega)
  rw [h, hn] at hm
  exact (Prod.mk.inj (Except.ok.inj hm)).1.symm

theorem toJson_lossless :
    Function.Injective toJson ∧
      ∀ n : Node,
        (n.depth ≤ 63 → ofJson (Utf8.ofString n.toJson) = .ok n) ∧
        (63 < n.depth →
          ∃ fault, ofJson (Utf8.ofString n.toJson) = .error fault ∧ fault.problem = .tooNested) ∧
        ∀ m, ofJson (Utf8.ofString n.toJson) = .ok m → m = n := by
  refine ⟨toJson_injective, fun n => ⟨ofJson_toJson, ofJson_toJson_tooNested, fun m hm => ?_⟩⟩
  by_cases h : n.depth ≤ 63
  · rw [ofJson_toJson h] at hm
    exact (Except.ok.inj hm).symm
  · obtain ⟨fault, hfault, -⟩ := ofJson_toJson_tooNested (Nat.not_le.1 h)
    rw [hfault] at hm
    cases hm

/-- The limit is met by a path of 63 nodes and missed by one more. -/
theorem toJson_lossless_chain :
    (chain 62).depth ≤ 63 ∧ ofJson (Utf8.ofString (chain 62).toJson) = .ok (chain 62) ∧
      63 < (chain 63).depth ∧ ∃ fault,
        ofJson (Utf8.ofString (chain 63).toJson) = .error fault ∧ fault.problem = .tooNested := by
  have hlow : (chain 62).depth ≤ 63 := by
    rw [depth_chain]
  have hhigh : 63 < (chain 63).depth := by
    rw [depth_chain]
    decide
  exact ⟨hlow, (toJson_lossless.2 (chain 62)).1 hlow, hhigh,
    (toJson_lossless.2 (chain 63)).2.1 hhigh⟩

end Node

end SyntaxGateway
