import SyntaxGateway.Query.Basic
import SyntaxGateway.Text.Blank

/-!
# The language of queries

The grammar of path queries as derivations: each relation says which characters are a phrase of one
kind and what the phrase means. Blanks may stand between tokens and are no part of them, so that two
slashes are one token and `@` belongs to its name.

    query     = W step (W step)* W
    step      = ('//' | '/') W test (W predicate)*
    test      = '*' | name
    predicate = '[' W '@' name W ('=' W literal W)? ']'
    name      = [A-Za-z_][A-Za-z0-9_.:-]*
    literal   = a run between single or double quotes, without that quote

Apart from the class of blanks, nothing here refers to how queries are read.
-/

namespace SyntaxGateway.Query

/-! ## Tokens -/

/-- A run of blanks, possibly empty. -/
def Blanks (w : List Char) : Prop := ∀ c ∈ w, Text.isBlank c

/-- A letter from A to Z, large or small, or an underscore. -/
def IsNameStart (c : Char) : Prop := 'A' ≤ c ∧ c ≤ 'Z' ∨ 'a' ≤ c ∧ c ≤ 'z' ∨ c = '_'

/-- Behind the first character of a name, digits, dots, colons and dashes may stand, too. -/
def IsNameChar (c : Char) : Prop :=
  IsNameStart c ∨ '0' ≤ c ∧ c ≤ '9' ∨ c = '.' ∨ c = ':' ∨ c = '-'

inductive DerivesName : List Char → String → Prop
  | mk {c : Char} {cs : List Char} : IsNameStart c → (∀ d ∈ cs, IsNameChar d) →
      DerivesName (c :: cs) (String.ofList (c :: cs))

/-- A run between two quotes `q` that does not contain `q`. -/
inductive DerivesLiteral : List Char → String → Prop
  | mk {q : Char} {cs : List Char} : q = '\'' ∨ q = '"' → q ∉ cs →
      DerivesLiteral (q :: (cs ++ [q])) (String.ofList cs)

/-- The token of an axis. -/
inductive DerivesAxis : List Char → Axis → Prop
  | child : DerivesAxis ['/'] .child
  | descendant : DerivesAxis ['/', '/'] .descendant

/-! ## Phrases -/

inductive DerivesTest : List Char → NodeTest → Prop
  | any : DerivesTest ['*'] .any
  | type {w : List Char} {name : String} : DerivesName w name → DerivesTest w (.type name)

inductive DerivesPredicate : List Char → Predicate → Prop
  | has {w₁ w₂ n : List Char} {name : String} : Blanks w₁ → DerivesName n name → Blanks w₂ →
      DerivesPredicate ('[' :: (w₁ ++ '@' :: (n ++ (w₂ ++ [']'])))) (.has name)
  | equals {w₁ w₂ w₃ w₄ n l : List Char} {name value : String} : Blanks w₁ → DerivesName n name →
      Blanks w₂ → Blanks w₃ → DerivesLiteral l value → Blanks w₄ →
      DerivesPredicate
        ('[' :: (w₁ ++ '@' :: (n ++ (w₂ ++ '=' :: (w₃ ++ (l ++ (w₄ ++ [']'])))))))
        (.equals name value)

/-- Phrases of one kind in a row, each with blanks in front. -/
inductive DerivesRow {α : Type} (phrase : List Char → α → Prop) : List Char → List α → Prop
  | nil : DerivesRow phrase [] []
  | cons {w u v : List Char} {a : α} {as : List α} : Blanks w → phrase u a →
      DerivesRow phrase v as → DerivesRow phrase (w ++ (u ++ v)) (a :: as)

inductive DerivesStep : List Char → Step → Prop
  | mk {u w v r : List Char} {axis : Axis} {test : NodeTest} {predicates : List Predicate} :
      DerivesAxis u axis → Blanks w → DerivesTest v test →
      DerivesRow DerivesPredicate r predicates →
      DerivesStep (u ++ (w ++ (v ++ r))) ⟨axis, test, predicates⟩

/-- The characters are a query, and this one. -/
inductive Derives : List Char → Query → Prop
  | mk {w₁ w₂ u v : List Char} {s : Step} {steps : List Step} : Blanks w₁ → DerivesStep u s →
      DerivesRow DerivesStep v steps → Blanks w₂ →
      Derives (w₁ ++ (u ++ (v ++ w₂))) ⟨s :: steps⟩

end SyntaxGateway.Query
