import SyntaxGateway.Query.Basic

/-!
# What steps ask of a node

The conditions of a step as relations, without the way in which they are checked. An attribute is a
field of the node or one of its properties (`HasAttribute`); the name `role` stands for the roles of
the node and never for an attribute (`Predicate.Met`).

The checks decide these relations: `attr?_eq_some_iff`, `accepts_iff`, `holds_iff`.
-/

namespace SyntaxGateway.Query

/-- The node has an attribute with this name and value. -/
inductive HasAttribute (n : Node) : (name value : String) → Prop
  | internalType : HasAttribute n "internalType" n.internalType
  | token : HasAttribute n "token" n.token
  | property {name value : String} : name ≠ "internalType" → name ≠ "token" →
      (name, value) ∈ n.properties.entries → HasAttribute n name value

/-- The node is of a type that the test accepts. -/
inductive NodeTest.Passed : NodeTest → Node → Prop
  | any (n : Node) : Passed .any n
  | type (n : Node) : Passed (.type n.internalType) n

/-- The node meets the condition. It is not enough to have an attribute that is empty, unless the
empty value is the one that is asked for. -/
inductive Predicate.Met : Predicate → Node → Prop
  | someRole {n : Node} : n.roles ≠ [] → Met (.has "role") n
  | role {n : Node} {role : String} : role ∈ n.roles → Met (.equals "role" role) n
  | present {n : Node} {name value : String} : name ≠ "role" → HasAttribute n name value →
      value ≠ "" → Met (.has name) n
  | value {n : Node} {name value : String} : name ≠ "role" → HasAttribute n name value →
      Met (.equals name value) n

/-! ## The checks -/

/-- A property is found if it is there, as no key comes twice. -/
theorem get?_eq_some_iff {p : Properties} {key value : String} :
    p.get? key = some value ↔ (key, value) ∈ p.entries := by
  rw [Properties.get?, List.lookup_eq_some_iff]
  constructor
  · rintro ⟨before, after, hentries, -⟩
    simp [hentries]
  · intro hmem
    obtain ⟨before, after, hentries⟩ := List.append_of_mem hmem
    refine ⟨before, after, hentries, fun e he => ?_⟩
    have hsorted := hentries ▸ p.sorted
    have hlt : e.1 < key := (List.pairwise_append.1 hsorted).2.2 e he _ List.mem_cons_self
    simpa using (Std.ne_of_lt hlt).symm

theorem attr?_eq_some_iff {n : Node} {name value : String} :
    n.attr? name = some value ↔ HasAttribute n name value := by
  constructor
  · intro h
    rw [Node.attr?] at h
    split at h
    next htype =>
      obtain rfl := Option.some.inj h
      exact htype ▸ .internalType
    next htype =>
      split at h
      next htoken =>
        obtain rfl := Option.some.inj h
        exact htoken ▸ .token
      next htoken => exact .property htype htoken (get?_eq_some_iff.1 h)
  · intro h
    cases h with
    | internalType => rfl
    | token => rfl
    | property htype htoken hmem =>
      rw [Node.attr?, if_neg htype, if_neg htoken]
      exact get?_eq_some_iff.2 hmem

theorem accepts_iff {t : NodeTest} {n : Node} : t.accepts n ↔ t.Passed n := by
  cases t with
  | any => exact ⟨fun _ => .any n, fun _ => rfl⟩
  | type name =>
    rw [NodeTest.accepts, decide_eq_true_eq]
    constructor
    · rintro rfl
      exact .type n
    · intro h
      cases h
      rfl

theorem holds_has_iff {n : Node} {name : String} (h : name ≠ "role") :
    (Predicate.has name).holds n ↔ ∃ value, HasAttribute n name value ∧ value ≠ "" := by
  simp only [← attr?_eq_some_iff, Predicate.holds, if_neg h]
  cases n.attr? name <;> simp

theorem holds_iff {c : Predicate} {n : Node} : c.holds n ↔ c.Met n := by
  constructor
  · intro h
    cases c with
    | has name =>
      by_cases hrole : name = "role"
      · subst hrole
        exact .someRole (by simpa [Predicate.holds] using h)
      · obtain ⟨value, hattribute, hvalue⟩ := (holds_has_iff hrole).1 h
        exact .present hrole hattribute hvalue
    | equals name value =>
      by_cases hrole : name = "role"
      · subst hrole
        exact .role (by simpa [Predicate.holds, Node.hasRole] using h)
      · simp only [Predicate.holds, if_neg hrole, decide_eq_true_eq] at h
        exact .value hrole (attr?_eq_some_iff.1 h)
  · intro h
    cases h with
    | someRole hroles => simpa [Predicate.holds] using hroles
    | role hmem => simpa [Predicate.holds, Node.hasRole] using hmem
    | present hrole hattribute hvalue => exact (holds_has_iff hrole).2 ⟨_, hattribute, hvalue⟩
    | value hrole hattribute =>
      simp only [Predicate.holds, if_neg hrole, decide_eq_true_eq]
      exact attr?_eq_some_iff.2 hattribute

end SyntaxGateway.Query
