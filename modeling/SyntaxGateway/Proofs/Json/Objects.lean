import Mathlib
import SyntaxGateway.Proofs.Json.Records
import SyntaxGateway.Proofs.Json.Writer

/-!
# Objects and their members

**Theorem (`ObjectText.iff_eq`).** The text of an object determines its members: their names, the
texts of their values, and their order.

What the writer puts together from texts of the grammar is a text of the grammar again. An array has
its items (`enclosed_array`) and an object its members (`objectText_object`), and with values in
them both are values (`Enclosed.phraseText`). At the bottom there are strings
(`StringText.phraseText`) and natural numbers (`phraseText_toString`).
-/

namespace SyntaxGateway.Json

variable {α : Type} {t t' u rest rest' : Bytes} {first : Bool} {frame : Frame}

/-! ## Members are determined -/

/-- A member in front of what stops a number is found with its name, the text of its value, and what
is behind it. -/
theorem PairText.found {m : String × Bytes} (hu : Lead first u) (h : PairText RawText t m)
    (hrest : Stops rest) :
    ∃ behind value, nextKey first (u ++ (t ++ rest)) = .ok (some m.1, behind) ∧
      colon behind = .ok value ∧ skipBlanks value = m.2 ++ rest ∧ skipValue value = .ok rest := by
  cases h with
  | @mk k v w x name _ hk hv hw hx =>
    obtain ⟨hx⟩ := hx
    refine ⟨v ++ 0x3A :: (w ++ (x ++ rest)), w ++ (x ++ rest), ?_, ?_, ?_, ?_⟩
    · have hkey := @nextKey_lead (v ++ 0x3A :: (w ++ (x ++ rest))) _ _ _ _ hu hk
      simpa using hkey
    · exact colon_eq_ok_iff.2 ⟨v, hv, rfl⟩
    · exact skipBlanks_append_starts hw hx.starts
    · exact skipValue_append hw hx hrest

/-- The members up to the closing brace are the same whatever they are read as. -/
theorem Items.members_unique {ms ms' : List (String × Bytes)}
    (h : Items (PairText RawText) first t ms) (h' : Items (PairText RawText) first t' ms')
    (heq : t ++ 0x7D :: rest = t' ++ 0x7D :: rest') : ms = ms' := by
  induction h generalizing t' ms' with
  | @nil first w hw =>
    have hkey := @nextKey_close rest w first hw
    cases h' with
    | nil => rfl
    | @cons _ u' x' more' m' ms' hu' hm' hmore' =>
      have hstops' : Stops (more' ++ 0x7D :: rest') := hmore'.stops .object
      obtain ⟨_, _, hkey', -⟩ := hm'.found hu' hstops'
      simp only [List.append_assoc] at heq
      rw [heq, hkey'] at hkey
      cases hkey
  | @cons first u x more m ms hu hm hmore ih =>
    have hstops : Stops (more ++ 0x7D :: rest) := hmore.stops .object
    obtain ⟨behind, value, hkey, hcolon, hvalue, hskip⟩ := hm.found hu hstops
    simp only [List.append_assoc] at heq
    cases h' with
    | nil hw' =>
      rw [heq, @nextKey_close rest' t' first hw'] at hkey
      cases hkey
    | @cons _ u' x' more' m' ms' hu' hm' hmore' =>
      -- Both members are found in the same text, and so is what follows them.
      have hstops' : Stops (more' ++ 0x7D :: rest') := hmore'.stops .object
      obtain ⟨behind', value', hkey', hcolon', hvalue', hskip'⟩ := hm'.found hu' hstops'
      simp only [List.append_assoc] at heq
      rw [← heq, hkey] at hkey'
      obtain ⟨hname, rfl⟩ := Prod.mk.inj (Except.ok.inj hkey')
      obtain rfl := Except.ok.inj (hcolon.symm.trans hcolon')
      have hrest := Except.ok.inj (hskip.symm.trans hskip')
      have htext := hvalue.symm.trans hvalue'
      rw [hrest] at htext
      obtain rfl : m = m' := Prod.ext (Option.some.inj hname) (List.append_cancel_right htext)
      rw [ih hmore' hrest]

/-- The text of an object determines its members. -/
theorem ObjectText.iff_eq {ms ms' : List (String × Bytes)} (h : ObjectText RawText t ms) :
    ObjectText RawText t ms' ↔ ms' = ms := by
  refine ⟨fun h' => ?_, fun heq => heq ▸ h⟩
  generalize ht : t = text at h
  obtain ⟨hms'⟩ := h'
  obtain ⟨hms⟩ := h
  exact hms'.members_unique hms (List.cons.inj ht).2

/-! ## Values -/

theorem RawText.phraseText {a : Bytes} (h : RawText t a) : PhraseText .value t := by
  cases h with
  | mk ht => exact ht

theorem Characters.looseText {m : Bytes} (h : Characters t m) : LooseText t := by
  induction h with
  | nil => exact .nil
  | plain hb _ ih => exact .plain hb ih
  | escape he _ ih =>
    cases he with
    | short hb => exact .short (by rw [hb]; rfl) ih
    | unit hh => exact .unit hh ih
    | pair hh _ hk =>
      have hsecond := LooseText.unit hk ih
      have hboth := LooseText.unit hh hsecond
      simpa using hboth

theorem StringText.phraseText {s : String} (h : StringText t s) : PhraseText .value t := by
  obtain ⟨ht⟩ := h
  exact .scalar (.string ht.looseText)

theorem NullableText.phraseText {value : Bytes → α → Prop} {a : Option α}
    (hvalue : ∀ {t a}, value t a → PhraseText .value t) (h : NullableText value t a) :
    PhraseText .value t := by
  cases h with
  | null => exact .scalar .null
  | some ha => exact hvalue ha

theorem phraseText_toString (n : Nat) : PhraseText .value (Utf8.ofString (toString n)) := by
  have hnumber : NumberText ([] ++ (Utf8.ofString (toString n) ++ ([] ++ []))) :=
    .mk (by simp) (integerText_toString n) .none .none
  rw [List.nil_append, List.append_nil, List.append_nil] at hnumber
  exact .scalar (.number hnumber)

/-- A value with what may stand in front of it in an array or an object. -/
def IsEntry (frame : Frame) (t : Bytes) : Prop :=
  ∃ l v x, Label frame l ∧ Blanks v ∧ PhraseText .value x ∧ t = l ++ (v ++ x)

theorem PairText.isEntry {value : Bytes → α → Prop} {m : String × α}
    (hvalue : ∀ {t a}, value t a → PhraseText .value t) (h : PairText value t m) :
    IsEntry .object t := by
  obtain ⟨⟨hk⟩, hu, hv, hx⟩ := h
  exact ⟨_, _, _, .object hk.looseText hu, hv, hvalue hx, by simp⟩

/-- Items in a row are blanks alone, or entries behind what leads to the first of them. -/
theorem Items.phraseText {item : Bytes → α → Prop} {as : List α}
    (hitem : ∀ {t a}, item t a → IsEntry frame t) (h : Items item first t as) :
    Blanks t ∨ ∃ u s, Lead first u ∧ PhraseText (.entries frame) s ∧ t = u ++ s := by
  induction h with
  | nil hw => exact .inl hw
  | @cons first u t more a as hu ha hmore ih =>
    obtain ⟨l, v, x, hl, hv, hx, rfl⟩ := hitem ha
    refine .inr ⟨u, l ++ (v ++ x) ++ more, hu, ?_, rfl⟩
    rcases ih with hblanks | ⟨_, s, hlead, hs, rfl⟩
    · have hlast := PhraseText.last blanks_nil hl hv hx hblanks
      simpa using hlast
    · cases hlead with
      | later hw hw' =>
        have hnext := PhraseText.more blanks_nil hl hv hx hw (hs.blanks_append hw')
        simpa using hnext

/-- With entries in it, an array or an object is a value. -/
theorem Enclosed.phraseText {item : Bytes → α → Prop} {as : List α}
    (hitem : ∀ {t a}, item t a → IsEntry frame t) (h : Enclosed frame item t as) :
    PhraseText .value t := by
  obtain ⟨ht⟩ := h
  rcases ht.phraseText hitem with hblanks | ⟨u, s, ⟨hu⟩, hs, rfl⟩
  · exact .empty hblanks
  · exact .nested (hs.blanks_append hu)

theorem phraseText_of_array {item : Bytes → α → Prop} {as : List α}
    (hitem : ∀ {t a}, item t a → PhraseText .value t) (h : Enclosed .array item t as) :
    PhraseText .value t :=
  h.phraseText fun {t _} ha => ⟨[], [], t, .array, blanks_nil, hitem ha, rfl⟩

theorem ObjectText.phraseText {value : Bytes → α → Prop} {ms : List (String × α)}
    (hvalue : ∀ {t a}, value t a → PhraseText .value t) (h : ObjectText value t ms) :
    PhraseText .value t :=
  Enclosed.phraseText (PairText.isEntry hvalue) h

/-! ## What is written -/

theorem items_separated {item : Bytes → α → Prop} {texts : List Bytes} {as : List α}
    (h : List.Forall₂ item texts as) (first : Bool) :
    Items item first (separated first texts) as := by
  induction h generalizing first with
  | nil => exact .nil blanks_nil
  | cons ht _ ih => exact .cons (lead_comma first) ht (ih false)

theorem enclosed_array {item : Bytes → α → Prop} {write : α → String} {as : List α}
    (h : ∀ a ∈ as, item (Utf8.ofString (write a)) a) :
    Enclosed .array item (Utf8.ofString (array (as.map write))) as := by
  have hitems : List.Forall₂ item ((as.map write).map Utf8.ofString) as := by
    rw [List.forall₂_map_left_iff, List.forall₂_map_left_iff]
    exact List.forall₂_same.2 h
  rw [ofString_array]
  exact .mk (items_separated hitems true)

theorem pairText_memberText {value : Bytes → α → Prop} {a : α} (name : String) (h : value t a) :
    PairText value (memberText name t) (name, a) := by
  have hpair := PairText.mk (stringText_quote name) blanks_nil blanks_nil h
  exact hpair

theorem objectText_object {value : Bytes → α → Prop} {members : List (String × String)}
    {ms : List (String × α)}
    (h : List.Forall₂ (fun m a => m.1 = a.1 ∧ value (Utf8.ofString m.2) a.2) members ms) :
    ObjectText value (Utf8.ofString (object members)) ms := by
  have hmembers : List.Forall₂ (PairText value)
      (members.map fun m => memberText m.1 (Utf8.ofString m.2)) ms := by
    refine List.forall₂_map_left_iff.2 (h.imp fun m a hma => ?_)
    obtain ⟨hname, hvalue⟩ := hma
    have hpair := pairText_memberText m.1 hvalue
    rwa [hname] at hpair ⊢
  rw [ofString_object]
  exact .mk (items_separated hmembers true)

/-- An object of values has these members. -/
theorem objectText_of_values {members : List (String × String)}
    (h : ∀ m ∈ members, PhraseText .value (Utf8.ofString m.2)) :
    ObjectText RawText (Utf8.ofString (object members))
      (members.map fun m => (m.1, Utf8.ofString m.2)) := by
  refine objectText_object (List.forall₂_map_right_iff.2 (List.forall₂_same.2 fun m hm => ?_))
  exact ⟨rfl, .mk (h m hm)⟩

end SyntaxGateway.Json
