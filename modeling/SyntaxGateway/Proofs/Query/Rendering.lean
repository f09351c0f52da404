import SyntaxGateway.Proofs.Query.Parsing

/-!
# Canonical texts

**Theorem (`parse_render_iff`).** Reading the text that a query renders gives the query back exactly
when the query can be written at all. Every query that is read can be written, so rendering picks
one text among all those that are read as the same query.

A query can be written when it has a step, its types and attributes are names, and no value holds
quotes of both kinds (`Writable`). The rendered text then has a derivation without any blanks: no two
tokens merge, as a name stands before a bracket, a slash, an `=` or the end only, and a value between
quotes that it does not contain.
-/

namespace SyntaxGateway.Query

variable {w v : List Char}

/-! ## Queries that can be written -/

/-- The text is a name of the grammar. -/
def IsName (name : String) : Prop :=
  ∃ c cs, name.toList = c :: cs ∧ IsNameStart c ∧ ∀ d ∈ cs, IsNameChar d

/-- The value can stand between quotes of one kind. -/
def IsQuotable (value : String) : Prop := ¬('\'' ∈ value.toList ∧ '"' ∈ value.toList)

def NodeTest.Writable : NodeTest → Prop
  | .any => True
  | .type name => IsName name

def Predicate.Writable : Predicate → Prop
  | .has name => IsName name
  | .equals name value => IsName name ∧ IsQuotable value

structure Step.Writable (s : Step) : Prop where
  test : s.test.Writable
  predicates : ∀ p ∈ s.predicates, p.Writable

/-- Some text is read as the query. -/
structure Writable (q : Query) : Prop where
  nonempty : q.steps ≠ []
  steps : ∀ s ∈ q.steps, s.Writable

/-! ## Tokens -/

theorem derivesName_iff {name : String} : DerivesName w name ↔ w = name.toList ∧ IsName name := by
  constructor
  · rintro ⟨hc, hcs⟩
    exact ⟨by simp, _, _, by simp, hc, hcs⟩
  · rintro ⟨rfl, c, cs, hname, hc, hcs⟩
    have h : DerivesName (c :: cs) (String.ofList (c :: cs)) := .mk hc hcs
    rwa [← hname, String.ofList_toList] at h

/-- The quotes of a value that can be quoted are not in it. -/
theorem derivesLiteral_quote {value : String} (h : IsQuotable value) :
    DerivesLiteral (quote value) value := by
  rw [quote]
  by_cases hsingle : '\'' ∈ value.toList
  · have hdouble : '"' ∉ value.toList := fun hmem => h ⟨hsingle, hmem⟩
    have hl : DerivesLiteral ('"' :: (value.toList ++ ['"'])) (String.ofList value.toList) :=
      .mk (.inr rfl) hdouble
    simpa [hsingle] using hl
  · have hl : DerivesLiteral ('\'' :: (value.toList ++ ['\''])) (String.ofList value.toList) :=
      .mk (.inl rfl) hsingle
    simpa [hsingle] using hl

theorem isQuotable_of_derives {value : String} (h : DerivesLiteral w value) :
    IsQuotable value := by
  obtain ⟨hq, hcs⟩ := h
  rintro ⟨hsingle, hdouble⟩
  rw [String.toList_ofList] at hsingle hdouble
  rcases hq with rfl | rfl
  · exact hcs hsingle
  · exact hcs hdouble

/-! ## Rendering derives -/

theorem NodeTest.Writable.derives {t : NodeTest} (h : t.Writable) : DerivesTest t.text t := by
  cases t with
  | any => exact .any
  | type name => exact .type (derivesName_iff.2 ⟨rfl, h⟩)

theorem Predicate.Writable.derives {p : Predicate} (h : p.Writable) :
    DerivesPredicate p.text p := by
  cases p with
  | has name => exact .has blanks_nil (derivesName_iff.2 ⟨rfl, h⟩) blanks_nil
  | equals name value =>
    obtain ⟨hname, hvalue⟩ := h
    exact .equals blanks_nil (derivesName_iff.2 ⟨rfl, hname⟩) blanks_nil blanks_nil
      (derivesLiteral_quote hvalue) blanks_nil

/-- Phrases one after the other are a row without blanks. -/
theorem derivesRow_flatMap {α : Type} {phrase : List Char → α → Prop} {text : α → List Char}
    {as : List α} (h : ∀ a ∈ as, phrase (text a) a) : DerivesRow phrase (as.flatMap text) as := by
  induction as with
  | nil => exact .nil
  | cons a as ih =>
    obtain ⟨ha, has⟩ := List.forall_mem_cons.1 h
    exact .cons blanks_nil ha (ih has)

theorem derivesAxis_text (a : Axis) : DerivesAxis a.text a := by
  cases a with
  | child => exact .child
  | descendant => exact .descendant

theorem Step.Writable.derives {s : Step} (h : s.Writable) : DerivesStep s.text s :=
  .mk (derivesAxis_text s.axis) blanks_nil h.test.derives
    (derivesRow_flatMap fun p hp => (h.predicates p hp).derives)

theorem Writable.derives {q : Query} (h : q.Writable) : Derives q.render.toList q := by
  obtain ⟨steps⟩ := q
  obtain ⟨hnonempty, hsteps⟩ := h
  cases steps with
  | nil => exact absurd rfl hnonempty
  | cons s steps =>
    obtain ⟨hs, hrest⟩ := List.forall_mem_cons.1 hsteps
    have hd : Derives ([] ++ (s.text ++ (steps.flatMap Step.text ++ []))) ⟨s :: steps⟩ :=
      .mk blanks_nil hs.derives (derivesRow_flatMap fun t ht => (hrest t ht).derives) blanks_nil
    simpa [render] using hd

/-! ## What is read can be written -/

theorem DerivesTest.writable {t : NodeTest} (h : DerivesTest w t) : t.Writable := by
  cases h with
  | any => trivial
  | type hname => exact (derivesName_iff.1 hname).2

theorem DerivesPredicate.writable {p : Predicate} (h : DerivesPredicate w p) : p.Writable := by
  cases h with
  | has _ hname _ => exact (derivesName_iff.1 hname).2
  | equals _ hname _ _ hvalue _ => exact ⟨(derivesName_iff.1 hname).2, isQuotable_of_derives hvalue⟩

theorem DerivesRow.forall {α : Type} {phrase : List Char → α → Prop} {good : α → Prop} {as : List α}
    (hgood : ∀ u a, phrase u a → good a) (h : DerivesRow phrase v as) : ∀ a ∈ as, good a := by
  induction h with
  | nil => simp
  | cons _ ha _ ih => exact List.forall_mem_cons.2 ⟨hgood _ _ ha, ih⟩

theorem DerivesStep.writable {s : Step} (h : DerivesStep w s) : s.Writable := by
  obtain ⟨-, -, htest, hrow⟩ := h
  exact ⟨htest.writable, hrow.forall fun _ _ => DerivesPredicate.writable⟩

theorem Derives.writable {q : Query} (h : Derives w q) : q.Writable := by
  obtain ⟨-, hs, hrow, -⟩ := h
  exact ⟨by simp, List.forall_mem_cons.2 ⟨hs.writable, hrow.forall fun _ _ => DerivesStep.writable⟩⟩

/-! ## Canonical texts -/

theorem Writable.parse_render {q : Query} (h : q.Writable) : parse q.render = .ok q :=
  parse_eq_ok_iff_derives.2 h.derives

theorem writable_of_parse {text : String} {q : Query} (h : parse text = .ok q) : q.Writable :=
  (parse_eq_ok_iff_derives.1 h).writable

/-- The rendered text of a query is read as the query if and only if the query can be written. This
is so for every query that is read from some text, and two texts are read as one query if and only if
the queries that they are read as have one rendered text. -/
theorem parse_render_iff :
    (∀ q : Query, parse q.render = .ok q ↔ q.Writable) ∧
      (∀ (s : String) (q : Query), parse s = .ok q → q.Writable ∧ parse q.render = .ok q) ∧
      ∀ (s t : String) (q r : Query), parse s = .ok q → parse t = .ok r →
        (q = r ↔ q.render = r.render) := by
  refine ⟨fun q => ⟨writable_of_parse, Writable.parse_render⟩, fun s q h => ?_,
    fun s t q r hq hr => ⟨congrArg render, fun htext => ?_⟩⟩
  · have hq := writable_of_parse h
    exact ⟨hq, hq.parse_render⟩
  · have hq' := (writable_of_parse hq).parse_render
    rw [htext, (writable_of_parse hr).parse_render] at hq'
    exact (Except.ok.inj hq').symm

/-- Blanks and the choice of quotes are lost, unless a quote inside the value decides. -/
theorem parse_render_iff_quoted :
    ∃ q r, parse " // a [ @k = \"it's\" ] [@l=\"m\"]" = .ok q ∧ parse "/a" = .ok r ∧
      q.Writable ∧ q.render = "//a[@k=\"it's\"][@l='m']" ∧ parse q.render = .ok q ∧
      q.render ≠ r.render := by
  let q : Query := ⟨[⟨.descendant, .type "a", [.equals "k" "it's", .equals "l" "m"]⟩]⟩
  let r : Query := ⟨[⟨.child, .type "a", []⟩]⟩
  have hq : parse " // a [ @k = \"it's\" ] [@l=\"m\"]" = .ok q := rfl
  have hr : parse "/a" = .ok r := rfl
  obtain ⟨-, hwritable, hsame⟩ := parse_render_iff
  obtain ⟨hw, hparse⟩ := hwritable _ q hq
  have hne : q ≠ r := by decide
  exact ⟨q, r, hq, hr, hw, rfl, hparse, fun h => hne ((hsame _ _ q r hq hr).2 h)⟩

end SyntaxGateway.Query
