import SyntaxGateway.Gateway.Router
import SyntaxGateway.Proofs.Json.Objects
import SyntaxGateway.Proofs.Tree.Rendering

/-!
# The texts of data

What the routes send as data (`Data`), and which texts spell it, said by the grammar of JSON
(`DataText`). An object has exactly the members that are named, in the order in which they are
named; the texts of trees nest (`NodeText`).

**Theorem (`dataText_toJson`).** What is written for data spells that data.

For trees this is an induction: what is written for a node is an object of texts, and among them is
the array of what is written for the children (`nodeText_toJson`).
-/

namespace SyntaxGateway

open Json

/-! ## Trees -/

/-- A number in base ten. -/
inductive DecimalText : Bytes → Nat → Prop
  | mk (n : Nat) : DecimalText (Utf8.ofString (toString n)) n

def PositionText (t : Bytes) (p : Position) : Prop :=
  ObjectText DecimalText t
    [("offset", p.offset.toNat), ("line", p.line.toNat), ("col", p.col.toNat)]

inductive NodeText : Bytes → Node → Prop
  | mk {t a b c d e f g : Bytes} {n : Node} :
      ObjectText RawText t
        [("internalType", a), ("token", b), ("properties", c), ("children", d),
          ("startPosition", e), ("endPosition", f), ("roles", g)] →
      StringText a n.internalType → StringText b n.token →
      ObjectText StringText c n.properties.entries → Enclosed .array NodeText d n.children →
      NullableText PositionText e n.startPosition → NullableText PositionText f n.endPosition →
      Enclosed .array StringText g n.roles → NodeText t n

/-! ## Data -/

def LanguageText (t : Bytes) (l : Language) : Prop :=
  ObjectText StringText t [("name", l.name), ("type", l.category.text)]

/-- What a route sends as data. -/
inductive Data where
  | languages
  | detected (response : DetectResponse)
  | nodes (list : List Node)

/-- A text spells data: the names and types of all known languages, those of the detected one, or
trees. -/
inductive DataText : Bytes → Data → Prop
  | languages {t : Bytes} : Enclosed .array LanguageText t Language.known → DataText t .languages
  | detected {t : Bytes} {r : DetectResponse} :
      ObjectText StringText t [("language", r.language), ("type", r.category.text)] →
      DataText t (.detected r)
  | nodes {t : Bytes} {list : List Node} : Enclosed .array NodeText t list →
      DataText t (.nodes list)

def Data.toJson : Data → String
  | .languages => array (Language.known.map (·.toJson))
  | .detected r => r.toJson
  | .nodes list => Gateway.writeNodes list

/-! ## What is written for trees -/

theorem DecimalText.phraseText {t : Bytes} {n : Nat} (h : DecimalText t n) :
    PhraseText .value t := by
  cases h
  exact phraseText_toString n

theorem PositionText.phraseText {t : Bytes} {p : Position} (h : PositionText t p) :
    PhraseText .value t :=
  ObjectText.phraseText DecimalText.phraseText h

theorem NodeText.phraseText {t : Bytes} {n : Node} (h : NodeText t n) : PhraseText .value t := by
  cases h with
  | mk h => exact h.phraseText RawText.phraseText

theorem positionText_optional (p : Option Position) :
    NullableText PositionText (Utf8.ofString (optional (p.map (·.toJson)))) p := by
  cases p with
  | none => exact .null
  | some p =>
    refine .some (objectText_object ?_)
    exact .cons ⟨rfl, .mk _⟩ (.cons ⟨rfl, .mk _⟩ (.cons ⟨rfl, .mk _⟩ .nil))

theorem objectText_properties (p : Properties) :
    ObjectText StringText (Utf8.ofString p.toJson) p.entries :=
  objectText_object <| List.forall₂_map_left_iff.2 <|
    List.forall₂_same.2 fun e _ => ⟨rfl, stringText_quote e.2⟩

/-- What is written for a node spells it. -/
theorem nodeText_toJson (n : Node) : NodeText (Utf8.ofString n.toJson) n := by
  induction n using Node.induction with
  | node n ih =>
    obtain ⟨t, k, p, cs, s, e, rs⟩ := n
    have hchildren : Enclosed .array NodeText (Utf8.ofString (array (Node.toJsonAll cs))) cs := by
      rw [Node.toJsonAll_eq]
      exact enclosed_array ih
    have ht := stringText_quote t
    have hk := stringText_quote k
    have hp := objectText_properties p
    have hs := positionText_optional s
    have he := positionText_optional e
    have hrs : Enclosed .array StringText (Utf8.ofString (array (rs.map quote))) rs :=
      enclosed_array fun role _ => stringText_quote role
    refine .mk (objectText_of_values ?_) ht hk hp hchildren hs he hrs
    simp only [List.forall_mem_cons]
    exact ⟨ht.phraseText, hk.phraseText, hp.phraseText StringText.phraseText,
      phraseText_of_array NodeText.phraseText hchildren,
      hs.phraseText PositionText.phraseText, he.phraseText PositionText.phraseText,
      phraseText_of_array StringText.phraseText hrs, List.forall_mem_nil _⟩

/-! ## What is written for data -/

theorem DataText.phraseText {t : Bytes} {d : Data} (h : DataText t d) : PhraseText .value t := by
  cases h with
  | languages h =>
    exact phraseText_of_array (fun hl => ObjectText.phraseText StringText.phraseText hl) h
  | detected h => exact h.phraseText StringText.phraseText
  | nodes h => exact phraseText_of_array NodeText.phraseText h

/-- An object of two strings. -/
theorem objectText_pair (name name' value value' : String) :
    ObjectText StringText (Utf8.ofString (object [(name, quote value), (name', quote value')]))
      [(name, value), (name', value')] := by
  refine objectText_object ?_
  exact .cons ⟨rfl, stringText_quote value⟩ (.cons ⟨rfl, stringText_quote value'⟩ .nil)

theorem dataText_toJson (d : Data) : DataText (Utf8.ofString d.toJson) d := by
  cases d with
  | languages =>
    have hlanguage (l : Language) : LanguageText (Utf8.ofString l.toJson) l :=
      objectText_pair "name" "type" l.name l.category.text
    exact .languages (enclosed_array fun l _ => hlanguage l)
  | detected r => exact .detected (objectText_pair "language" "type" r.language r.category.text)
  | nodes list => exact .nodes (enclosed_array fun n _ => nodeText_toJson n)

end SyntaxGateway
