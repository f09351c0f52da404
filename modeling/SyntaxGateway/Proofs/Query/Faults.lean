import SyntaxGateway.Proofs.Query.Lookahead

/-!
# Where a text stops being a query

**Theorem (`parse_eq_error_splits`).** A fault points at the first place where the text stops being
the beginning of a query. What stands in front of the place can be continued to a query. With the
character that stands there it cannot, unless nothing is wrong with the text but that it ends: when
it is empty, when it ends where more is expected, and when a literal in it is not closed.

One half is about derivations: a reader that gets stuck has read the beginning of a phrase
(`OnWay`), which a few characters complete. The other half is about lookahead: with another rest
behind the offending character, reading gets stuck at the same place (`stepsOf_eq_missing`), so no
rest makes it a query.
-/

namespace SyntaxGateway.Query

variable {α β : Type} {input front rest w : List Char} {s : Stuck}

/-! ## Beginnings of phrases -/

/-- The characters can be continued to a phrase. -/
def Begins (phrase : List Char → α → Prop) (cs : List Char) : Prop :=
  ∃ more a, phrase (cs ++ more) a

/-- What has been read of the input begins a phrase, and where a literal is not closed, so does all
of the input. -/
def OnWay (phrase : List Char → α → Prop) (input : List Char) (s : Stuck) : Prop :=
  ∃ front, input = front ++ s.rest ∧ Begins phrase front ∧
    (s.problem = .openLiteral → Begins phrase input)

section Phrases

variable {phrase : List Char → α → Prop} {phrase' : List Char → β → Prop} {cs whole : List Char}

theorem Begins.of_phrase {a : α} (h : phrase cs a) : Begins phrase cs :=
  ⟨[], a, by rwa [List.append_nil]⟩

/-- What begins a part of a phrase begins the phrase, if each such part does. -/
theorem Begins.embed (h : Begins phrase cs)
    (hpart : ∀ u a, phrase u a → Begins phrase' (front ++ u)) : Begins phrase' (front ++ cs) := by
  obtain ⟨more, a, h⟩ := h
  obtain ⟨more', b, h'⟩ := hpart _ a h
  exact ⟨more ++ more', b, by simpa using h'⟩

theorem OnWay.embed (h : OnWay phrase input s) (hwhole : whole = front ++ input)
    (hpart : ∀ u a, phrase u a → Begins phrase' (front ++ u)) : OnWay phrase' whole s := by
  obtain ⟨taken, hinput, htaken, hopen⟩ := h
  rw [hwhole]
  refine ⟨front ++ taken, by rw [hinput, List.append_assoc], htaken.embed hpart, fun hs => ?_⟩
  exact (hopen hs).embed hpart

/-- Where something is missing, nothing is wrong with what is in front. -/
theorem OnWay.missing {what : Expected} {found : Option Char} (h : Begins phrase front)
    (hinput : input = front ++ rest) : OnWay phrase input ⟨.expected what found, rest⟩ :=
  ⟨front, hinput, h, nofun⟩

end Phrases

/-! ## Tokens -/

theorem derivesName_a : DerivesName ['a'] "a" :=
  .mk (.inr (.inl (by decide))) nofun

theorem derivesLiteral_empty : DerivesLiteral ['\'', '\''] "" :=
  .mk (.inl rfl) List.not_mem_nil

theorem onWay_literal (h : literal input = .error s) : OnWay DerivesLiteral input s := by
  have hstart : Begins DerivesLiteral [] := ⟨_, _, derivesLiteral_empty⟩
  rcases literal_cases input with ⟨l, rest, value, -, -, hread⟩ | ⟨q, cs, rfl, hq, hcs, hread⟩ |
    ⟨-, hread⟩
  · rw [hread] at h
    cases h
  · rw [hread] at h
    cases h
    exact ⟨[], rfl, hstart, fun _ => ⟨[q], _, .mk hq hcs⟩⟩
  · rw [hread] at h
    cases h
    exact .missing hstart rfl

theorem error_of_axis (h : axis input = .error s) : s = ⟨.expected .slash input.head?, input⟩ := by
  rw [axis.eq_def] at h
  split at h
  · cases h
  · cases h
  · cases h
    rfl

theorem error_of_nodeTest (h : nodeTest input = .error s) :
    s = ⟨.expected .test input.head?, input⟩ := by
  rw [nodeTest.eq_def] at h
  split at h
  · cases h
  · split at h
    · cases h
    · cases h
      rfl

/-! ## Predicates -/

/-- The end of a predicate that starts with `front`. -/
theorem onWay_closing {p q : Predicate} {whole : List Char} (h : closing p input = .error s)
    (hwhole : whole = front ++ input)
    (hq : ∀ w, Blanks w → DerivesPredicate (front ++ (w ++ [']'])) q) :
    OnWay DerivesPredicate whole s := by
  rw [closing] at h
  split at h
  · cases h
  · cases h
    obtain ⟨w, hw, hinput⟩ := exists_blanks input
    have hfront : Begins DerivesPredicate (front ++ w) := ⟨[']'], q, by simpa using hq w hw⟩
    exact .missing hfront (by rw [hwhole, List.append_assoc, ← hinput])

theorem onWay_predicate (h : predicate input = .error s) :
    OnWay DerivesPredicate ('[' :: input) s := by
  rw [predicate] at h
  split at h
  · next r₁ hat =>
    obtain ⟨w₁, hw₁, rfl⟩ := (trimStart_eq_cons_iff (by decide)).1 hat
    split at h
    · cases h
      have hfront : Begins DerivesPredicate ('[' :: (w₁ ++ ['@'])) :=
        ⟨['a', ']'], _, by simpa using DerivesPredicate.has hw₁ derivesName_a blanks_nil⟩
      exact .missing hfront (by simp)
    · next name r₂ hread =>
      obtain ⟨n, rfl, hn, -⟩ := name?_eq_some_iff.1 hread
      split at h
      · next r₃ heq =>
        obtain ⟨w₂, hw₂, rfl⟩ := (trimStart_eq_cons_iff (by decide)).1 heq
        obtain ⟨w₃, hw₃, hr₃⟩ := exists_blanks r₃
        cases hvalue : literal (Text.trimStart r₃) with
        | error s' =>
          rw [hvalue] at h
          cases h
          have hpart (l : List Char) (value : String) (hl : DerivesLiteral l value) :
              Begins DerivesPredicate ('[' :: (w₁ ++ '@' :: (n ++ (w₂ ++ '=' :: w₃))) ++ l) :=
            ⟨[']'], _, by simpa using DerivesPredicate.equals hw₁ hn hw₂ hw₃ hl blanks_nil⟩
          refine (onWay_literal hvalue).embed ?_ hpart
          rw [List.cons_append, List.append_assoc, List.cons_append, List.append_assoc,
            List.append_assoc, List.cons_append, ← hr₃]
        | ok e =>
          rw [hvalue] at h
          obtain ⟨l, hl, hderives⟩ := literal_eq_ok_iff.1 hvalue
          have hq (w₄ : List Char) (hw₄ : Blanks w₄) :
              DerivesPredicate
                ('[' :: (w₁ ++ '@' :: (n ++ (w₂ ++ '=' :: (w₃ ++ l)))) ++ (w₄ ++ [']']))
                (.equals name e.1) := by
            simpa using DerivesPredicate.equals hw₁ hn hw₂ hw₃ hderives hw₄
          exact onWay_closing h (by rw [hr₃, hl]; simp) hq
      · rw [closing_trimStart] at h
        have hq (w₂ : List Char) (hw₂ : Blanks w₂) :
            DerivesPredicate ('[' :: (w₁ ++ '@' :: n) ++ (w₂ ++ [']'])) (.has name) := by
          simpa using DerivesPredicate.has hw₁ hn hw₂
        exact onWay_closing h (by simp) hq
  · cases h
    obtain ⟨w, hw, hinput⟩ := exists_blanks input
    have hfront : Begins DerivesPredicate ('[' :: w) :=
      ⟨['@', 'a', ']'], _, by simpa using DerivesPredicate.has hw derivesName_a blanks_nil⟩
    exact .missing hfront (by rw [List.cons_append, ← hinput])

theorem onWay_predicatesFrom {before : List Predicate} {fuel : Nat}
    (h : predicatesFrom before fuel input = .error s) :
    OnWay (DerivesRow DerivesPredicate) input s := by
  induction fuel generalizing input before with
  | zero => cases h
  | succ fuel ih =>
    rw [predicatesFrom] at h
    split at h
    · next r hbracket =>
      obtain ⟨w, hw, rfl⟩ := (trimStart_eq_cons_iff (by decide)).1 hbracket
      cases hread : predicate r with
      | error s' =>
        rw [hread] at h
        cases h
        exact (onWay_predicate hread).embed rfl fun u p hu =>
          .of_phrase (a := [p]) (by simpa using DerivesRow.cons hw hu .nil)
      | ok e =>
        rw [hread] at h
        obtain ⟨u, hu, hderives⟩ := predicate_eq_ok_iff.1 hread
        have hpart (v : List Char) (ps : List Predicate)
            (hrow : DerivesRow DerivesPredicate v ps) :
            Begins (DerivesRow DerivesPredicate) (w ++ u ++ v) :=
          .of_phrase (a := e.1 :: ps) (by simpa using DerivesRow.cons hw hderives hrow)
        exact (ih h).embed (by rw [hu, List.append_assoc]) hpart
    · cases h

/-! ## Steps -/

theorem onWay_step (h : step input = .error s) : OnWay DerivesStep input s := by
  rw [step] at h
  cases haxis : axis input with
  | error s' =>
    rw [haxis] at h
    cases h
    rw [error_of_axis haxis]
    have hstart : Begins DerivesStep [] := ⟨['/', '*'], _, .mk .child blanks_nil .any .nil⟩
    exact .missing hstart rfl
  | ok e =>
    rw [haxis] at h
    obtain ⟨u, hu, haxis'⟩ := derivesAxis_of_axis haxis
    obtain ⟨w, hw, hrest⟩ := exists_blanks e.2
    dsimp only [bind, Except.bind] at h
    cases htest : nodeTest (Text.trimStart e.2) with
    | error s' =>
      rw [htest] at h
      cases h
      rw [error_of_nodeTest htest]
      have hfront : Begins DerivesStep (u ++ w) :=
        ⟨['*'], _, by simpa using DerivesStep.mk haxis' hw .any .nil⟩
      exact .missing hfront (by rw [List.append_assoc, ← hrest, ← hu])
    | ok t =>
      rw [htest] at h
      obtain ⟨v, hv, htest'⟩ := derivesTest_of_nodeTest htest
      dsimp only at h
      cases hpredicates : predicates t.2 with
      | error s' =>
        rw [hpredicates] at h
        cases h
        have hpart (r : List Char) (ps : List Predicate)
            (hrow : DerivesRow DerivesPredicate r ps) : Begins DerivesStep (u ++ (w ++ v) ++ r) :=
          .of_phrase (a := ⟨e.1, t.1, ps⟩) (by simpa using DerivesStep.mk haxis' hw htest' hrow)
        refine (onWay_predicatesFrom hpredicates).embed ?_ hpart
        rw [List.append_assoc, List.append_assoc, ← hv, ← hrest, ← hu]
      | ok ps =>
        rw [hpredicates] at h
        cases h

/-- Steps in a row, at least one of them. -/
def DerivesSteps (cs : List Char) (steps : List Step) : Prop :=
  steps ≠ [] ∧ DerivesRow DerivesStep cs steps

theorem DerivesSteps.blanks_append {steps : List Step} (h : DerivesSteps input steps)
    (hw : Blanks w) : DerivesSteps (w ++ input) steps := by
  obtain ⟨hsteps, hrow⟩ := h
  cases hrow with
  | nil => exact absurd rfl hsteps
  | @cons w' u v s steps hw' hs hrow =>
    have hblanks : Blanks (w ++ w') := fun c hc => (List.mem_append.1 hc).elim (hw c) (hw' c)
    rw [← List.append_assoc]
    exact ⟨hsteps, .cons hblanks hs hrow⟩

theorem DerivesSteps.derives {steps : List Step} (h : DerivesSteps input steps) :
    Derives input ⟨steps⟩ := by
  obtain ⟨hsteps, hrow⟩ := h
  cases hrow with
  | nil => exact absurd rfl hsteps
  | cons hw hs hrow => simpa using Derives.mk hw hs hrow blanks_nil

theorem onWay_stepsFrom {before : List Step} {fuel : Nat}
    (h : stepsFrom before fuel input = .error s) : OnWay DerivesSteps input s := by
  induction fuel generalizing input before with
  | zero => cases h
  | succ fuel ih =>
    by_cases hnil : input = []
    · rw [hnil] at h
      cases h
    · rw [stepsFrom_cons hnil] at h
      cases hread : step input with
      | error s' =>
        rw [hread] at h
        cases h
        exact (onWay_step hread).embed (List.nil_append _).symm fun u t hu =>
          ⟨[], [t], nofun, .cons blanks_nil hu .nil⟩
      | ok e =>
        rw [hread] at h
        obtain ⟨u, tail, hu, hderives, htail⟩ := derivesStep_of_step hread
        obtain ⟨w, hw, hrest⟩ := exists_blanks tail
        have hpart (v : List Char) (steps : List Step) (hsteps : DerivesSteps v steps) :
            Begins DerivesSteps (u ++ w ++ v) := by
          have hrow := DerivesRow.cons blanks_nil hderives (hsteps.blanks_append hw).2
          exact .of_phrase (a := e.1 :: steps) ⟨nofun, by simpa using hrow⟩
        refine (ih h).embed ?_ hpart
        rw [htail, List.append_assoc, ← hrest, ← hu]

/-! ## Queries -/

/-- What is read of a text that is no query begins one. -/
theorem onWay_stepsOf {cs : List Char} (h : stepsOf (Text.trimStart cs) = .error s)
    (hne : Text.trimStart cs ≠ []) : OnWay Derives cs s := by
  obtain ⟨w, hw, hcs⟩ := exists_blanks cs
  rw [stepsOf_of_ne_nil hne] at h
  exact (onWay_stepsFrom h).embed hcs fun u steps hsteps =>
    .of_phrase (hsteps.blanks_append hw).derives

theorem begins_of_blanks (hw : Blanks w) : Begins Derives w := by
  have hs : DerivesStep ['/', '*'] ⟨.child, .any, []⟩ := .mk .child blanks_nil .any .nil
  have hsteps : DerivesSteps ['/', '*'] [⟨.child, .any, []⟩] :=
    ⟨nofun, .cons blanks_nil hs .nil⟩
  exact ⟨['/', '*'], _, (hsteps.blanks_append hw).derives⟩

/-- No query begins with the character found where something is missing. -/
theorem not_begins_of_missing {what : Expected} {c : Char}
    (h : stepsOf (Text.trimStart (front ++ c :: rest)) = missing what (c :: rest)) :
    ¬Begins Derives (front ++ [c]) := by
  intro ⟨more, q, hq⟩
  have hread : stepsOf (Text.trimStart (front ++ c :: more)) = .ok q.steps :=
    stepsOf_eq_ok_iff.2 (by simpa using hq)
  have hhead : (c :: rest).head? = (c :: more).head? := rfl
  rw [stepsOf_eq_missing hhead h] at hread
  cases hread

/-- Some continuation of the text is a query. -/
def CanBegin (text : String) : Prop := ∃ (more : String) (q : Query), parse (text ++ more) = .ok q

theorem canBegin_iff {text : String} : CanBegin text ↔ Begins Derives text.toList := by
  constructor
  · intro ⟨more, q, h⟩
    exact ⟨more.toList, q, by simpa using parse_eq_ok_iff_derives.1 h⟩
  · intro ⟨more, q, h⟩
    exact ⟨String.ofList more, q, parse_eq_ok_iff_derives.2 (by simpa using h)⟩

/-! ## Places in a text -/

variable {text : String}

/-- The place in a text in front of `rest`, in bytes from the start. -/
def offset (text : String) (rest : List Char) : String.Pos.Raw :=
  ⟨byteCount text.toList - byteCount rest⟩

theorem byteCount_eq_utf8Len (cs : List Char) : byteCount cs = String.utf8Len cs := by
  induction cs with
  | nil => rfl
  | cons c cs ih =>
    have hsingle : byteCount [c] = c.utf8Size := Nat.zero_add _
    rw [← List.singleton_append, byteCount_append, hsingle, ih, List.singleton_append,
      String.utf8Len_cons, Nat.add_comm]

theorem offset_append (h : text.toList = front ++ rest) :
    offset text rest = ⟨(String.ofList front).utf8ByteSize⟩ := by
  rw [offset, h, byteCount_append, Nat.add_sub_cancel, byteCount_eq_utf8Len,
    String.utf8ByteSize_ofList]

theorem eq_append_of_toList (h : text.toList = front ++ rest) :
    text = String.ofList front ++ String.ofList rest := by
  rw [← String.ofList_append, ← h, String.ofList_toList]

/-- What is left of a text begins at a character. -/
theorem isValid_offset (h : rest <:+ text.toList) : (offset text rest).IsValid text := by
  obtain ⟨front, h⟩ := h
  rw [offset_append h.symm, String.Pos.Raw.isValid_iff_exists_append]
  exact ⟨_, _, eq_append_of_toList h.symm, rfl⟩

/-- The readers that queries are read with. -/
inductive IsReader : {α : Type} → Reader α → Prop
  | literal : IsReader literal
  | closing (p : Predicate) : IsReader (closing p)
  | predicate : IsReader predicate
  | predicatesFrom (before : List Predicate) (fuel : Nat) : IsReader (predicatesFrom before fuel)
  | predicates : IsReader predicates
  | nodeTest : IsReader nodeTest
  | axis : IsReader axis
  | step : IsReader step

theorem IsReader.peeks {read : Reader α} (h : IsReader read) : Peeks read := by
  cases h with
  | literal => exact peeks_literal
  | closing p => exact peeks_closing p
  | predicate => exact peeks_predicate
  | predicatesFrom before fuel => exact peeks_predicatesFrom before fuel
  | predicates => exact peeks_predicates
  | nodeTest => exact peeks_nodeTest
  | axis => exact peeks_axis
  | step => exact peeks_step

/-- What is left of a text at the places that reading gets to: behind characters, blanks and names,
and where readers end or get stuck. On the way a place is nothing but the characters that are left
from there on; only a fault counts bytes. -/
inductive Reached (text : String) : List Char → Prop
  | start : Reached text text.toList
  | char {c : Char} {rest : List Char} : Reached text (c :: rest) → Reached text rest
  | blanks {input : List Char} : Reached text input → Reached text (Text.trimStart input)
  | name {input rest : List Char} {name : String} : Reached text input →
      name? input = some (name, rest) → Reached text rest
  | read {α : Type} {read : Reader α} {input rest : List Char} {a : α} : IsReader read →
      Reached text input → read input = .ok (a, rest) → Reached text rest
  | stuck {α : Type} {read : Reader α} {input : List Char} {s : Stuck} : IsReader read →
      Reached text input → read input = .error s → Reached text s.rest

theorem Reached.isSuffix (h : Reached text rest) : rest <:+ text.toList := by
  induction h with
  | start => exact List.suffix_refl _
  | char _ ih => exact isSuffix_of_cons ih
  | blanks _ ih => exact (trimStart_isSuffix _).trans ih
  | name _ hname ih => exact (isSuffix_of_name? hname).trans ih
  | read hreader _ hread ih => exact (hreader.peeks.isSuffix hread).trans ih
  | stuck hreader _ hread ih => exact (hreader.peeks.placed hread).isSuffix.trans ih

/-! ## Faults -/

/-- The fault splits its text at its place into `front` and `rest`, where the text stops being the
beginning of a query. -/
structure Fault.Splits (f : Fault) (front rest : String) : Prop where
  position_eq : f.position = front.utf8ByteSize
  /-- Up to the place nothing is wrong. -/
  canBegin_front : CanBegin front
  /-- What a message says was found is the character at the place. -/
  found_eq : ∀ {what found}, f.problem = .expected what found → found = rest.toList.head?
  /-- With the character at the place the text begins no query. -/
  not_canBegin : f.problem ≠ .empty → f.problem ≠ .openLiteral →
    f.position < (front ++ rest).utf8ByteSize →
    ∃ c tail, rest = String.singleton c ++ tail ∧ ¬CanBegin (front.push c)
  /-- When nothing or too little is written, all of it begins a query. -/
  canBegin : f.problem = .empty ∨ f.problem = .openLiteral ∨
    f.position = (front ++ rest).utf8ByteSize → CanBegin (front ++ rest)

theorem splits_empty (h : Blanks text.toList) : (Fault.mk 0 .empty).Splits "" text := by
  refine ⟨rfl, canBegin_iff.2 (begins_of_blanks blanks_nil), nofun, nofun, fun _ => ?_⟩
  rw [String.empty_append]
  exact canBegin_iff.2 (begins_of_blanks h)

theorem splits_openLiteral (hfront : Begins Derives front) (hall : Begins Derives (front ++ rest)) :
    (Fault.mk (String.ofList front).utf8ByteSize .openLiteral).Splits
      (String.ofList front) (String.ofList rest) := by
  refine ⟨rfl, canBegin_iff.2 (by simpa using hfront), nofun, fun _ hopen => absurd rfl hopen,
    fun _ => ?_⟩
  rw [← String.ofList_append]
  exact canBegin_iff.2 (by simpa using hall)

theorem splits_missing {what : Expected} (hfront : Begins Derives front)
    (h : stepsOf (Text.trimStart (front ++ rest)) = missing what rest) :
    (Fault.mk (String.ofList front).utf8ByteSize (.expected what rest.head?)).Splits
      (String.ofList front) (String.ofList rest) := by
  have hbegin : CanBegin (String.ofList front) := canBegin_iff.2 (by simpa using hfront)
  cases rest with
  | nil =>
    -- The place is the end of the text.
    rw [String.ofList_nil]
    refine ⟨rfl, hbegin, fun hproblem => by cases hproblem; rfl, fun _ _ hlt => ?_, fun _ => ?_⟩
    · rw [String.append_empty] at hlt
      exact absurd hlt (Nat.lt_irrefl _)
    · rwa [String.append_empty]
  | cons c tail =>
    refine ⟨rfl, hbegin, fun hproblem => by cases hproblem; simp, fun _ _ _ => ?_, fun hall => ?_⟩
    · refine ⟨c, String.ofList tail, by simp, fun hpush => not_begins_of_missing h ?_⟩
      simpa using canBegin_iff.1 hpush
    · -- A character stands at the place, so the place is not the end of the text.
      have hpos := c.utf8Size_pos
      rcases hall with hempty | hopen | hend
      · cases hempty
      · cases hopen
      · rw [String.utf8ByteSize_append, String.utf8ByteSize_ofList (c :: tail),
          String.utf8Len_cons] at hend
        dsimp only at hend
        omega

theorem fault_of_append (h : text.toList = front ++ s.rest) (hne : s.problem ≠ .empty) :
    s.fault text.toList = ⟨(String.ofList front).utf8ByteSize, s.problem⟩ := by
  have hposition := congrArg String.Pos.Raw.byteIdx (offset_append h)
  obtain ⟨problem, rest⟩ := s
  cases problem with
  | empty => exact absurd rfl hne
  | _ => exact congrArg (Fault.mk · _) hposition

theorem splits_of_stuck (h : stepsOf (Text.trimStart text.toList) = .error s)
    (hne : Text.trimStart text.toList ≠ []) :
    ∃ front rest, text = front ++ rest ∧ (s.fault text.toList).Splits front rest := by
  obtain ⟨front, htext, hfront, hopen⟩ := onWay_stepsOf h hne
  refine ⟨String.ofList front, String.ofList s.rest, eq_append_of_toList htext, ?_⟩
  have hsteps := h
  rw [stepsOf_of_ne_nil hne] at hsteps
  cases placed_of_stepsFrom hsteps with
  | openLiteral =>
    rw [fault_of_append htext nofun]
    exact splits_openLiteral hfront (htext ▸ hopen rfl)
  | missing =>
    rw [fault_of_append htext nofun]
    rw [htext] at h
    exact splits_missing hfront h

theorem exists_splits {f : Fault} (h : parse text = .error f) :
    ∃ front rest, text = front ++ rest ∧ f.Splits front rest := by
  rw [parse_eq_stepsOf] at h
  cases hread : stepsOf (Text.trimStart text.toList) with
  | ok steps =>
    rw [hread] at h
    cases h
  | error s =>
    rw [hread] at h
    cases h
    by_cases hnil : Text.trimStart text.toList = []
    · rw [hnil] at hread
      cases hread
      obtain ⟨w, hw, htext⟩ := exists_blanks text.toList
      rw [hnil, List.append_nil] at htext
      exact ⟨"", text, String.empty_append.symm, splits_empty (htext ▸ hw)⟩
    · exact splits_of_stuck hread hnil

/-- A fault is at the first place where the text stops being the beginning of a query. The places
that reading gets to on the way are given by the characters left there (`Reached`), and the byte
offset worked out from these is between characters, too. -/
theorem parse_eq_error_splits :
    (∀ text rest, Reached text rest → (offset text rest).IsValid text) ∧
      ∀ text f, parse text = .error f →
        f.position ≤ text.utf8ByteSize ∧ String.Pos.Raw.IsValid text ⟨f.position⟩ ∧
          ∃ front rest, text = front ++ rest ∧ f.Splits front rest := by
  refine ⟨fun text rest h => isValid_offset h.isSuffix, fun text f h => ?_⟩
  obtain ⟨front, rest, rfl, hsplits⟩ := exists_splits h
  have hvalid : String.Pos.Raw.IsValid (front ++ rest) ⟨f.position⟩ := by
    rw [String.Pos.Raw.isValid_iff_exists_append, hsplits.position_eq]
    exact ⟨front, rest, rfl, rfl⟩
  exact ⟨hvalid.le_rawEndPos, hvalid, front, rest, rfl, hsplits⟩

/-- With an accent in front, the place is behind more bytes than characters. -/
theorem parse_eq_error_splits_accented :
    parse "/a[@k='é'] [3" = .error ⟨13, .expected .attribute (some '3')⟩ ∧
      String.Pos.Raw.IsValid "/a[@k='é'] [3" ⟨13⟩ ∧
      ∃ front rest, "/a[@k='é'] [3" = front ++ rest ∧ front.utf8ByteSize = 13 ∧
        CanBegin front ∧ ¬CanBegin (front.push '3') := by
  have hparse : parse "/a[@k='é'] [3" = .error ⟨13, .expected .attribute (some '3')⟩ := rfl
  obtain ⟨-, hvalid, front, rest, htext, hsplits⟩ := parse_eq_error_splits.2 _ _ hparse
  refine ⟨hparse, hvalid, front, rest, htext, hsplits.position_eq.symm, hsplits.canBegin_front, ?_⟩
  have hlt : 13 < "/a[@k='é'] [3".utf8ByteSize := by decide
  rw [htext] at hlt
  obtain ⟨c, tail, rfl, hbegin⟩ := hsplits.not_canBegin nofun nofun hlt
  have hfound := hsplits.found_eq rfl
  simp only [String.toList_append, String.toList_singleton, List.singleton_append, List.head?_cons,
    Option.some.injEq] at hfound
  exact hfound ▸ hbegin

end SyntaxGateway.Query
