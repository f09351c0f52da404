import Mathlib
import SyntaxGateway.Proofs.Outcome
import SyntaxGateway.Proofs.Query.Grammar
import SyntaxGateway.Query.Parser

/-!
# Reading is deriving

**Theorem (`parse_eq_ok_iff`).** Reading a text gives a query exactly when the grammar derives that
query from the text, and no text derives two queries.

Each reader is compared with the phrases of its kind. What it accepts is a phrase and the characters
after it; a phrase is accepted whole where what follows cannot prolong it. Names end before anything
but a character of a name, rows of predicates before anything but `[`, and a step before the next
slash or the end, blanks set aside.
-/

namespace SyntaxGateway.Query

variable {w u v input rest tail : List Char} {c : Char}

/-! ## Blanks -/

theorem blanks_nil : Blanks [] := fun _ h => absurd h List.not_mem_nil

theorem exists_blanks (input : List Char) : ∃ w, Blanks w ∧ input = w ++ Text.trimStart input :=
  ⟨input.takeWhile Text.isBlank, fun _ hc => List.mem_takeWhile_imp hc,
    List.takeWhile_append_dropWhile.symm⟩

theorem trimStart_append (hw : Blanks w) : Text.trimStart (w ++ rest) = Text.trimStart rest :=
  List.dropWhile_append_of_pos hw

theorem trimStart_cons (hc : Text.isBlank c = false) : Text.trimStart (c :: rest) = c :: rest :=
  List.dropWhile_cons_of_neg (by simp [hc])

theorem trimStart_of_blanks (hw : Blanks w) : Text.trimStart w = [] := by
  have h : Text.trimStart (w ++ []) = [] := trimStart_append hw
  rwa [List.append_nil] at h

theorem length_trimStart_le (cs : List Char) : (Text.trimStart cs).length ≤ cs.length :=
  (List.dropWhile_suffix _).length_le

theorem trimStart_append_cons (hw : Blanks w) (hc : Text.isBlank c = false) :
    Text.trimStart (w ++ c :: rest) = c :: rest := by
  rw [trimStart_append hw, trimStart_cons hc]

theorem trimStart_eq_cons_iff (hc : Text.isBlank c = false) :
    Text.trimStart input = c :: rest ↔ ∃ w, Blanks w ∧ input = w ++ c :: rest := by
  constructor
  · intro h
    obtain ⟨w, hw, hinput⟩ := exists_blanks input
    exact ⟨w, hw, h ▸ hinput⟩
  · rintro ⟨w, hw, rfl⟩
    exact trimStart_append_cons hw hc

/-! ## Names and literals -/

/-- No character of a name is in front. -/
def EndsName (rest : List Char) : Prop := ∀ c ∈ rest.head?, isNameChar c = false

theorem isNameStart_iff : isNameStart c ↔ IsNameStart c := by
  simp [isNameStart, IsNameStart, Char.isAlpha, Char.isUpper, Char.isLower, Char.le_def, or_assoc]

theorem isNameChar_iff : isNameChar c ↔ IsNameChar c := by
  rw [IsNameChar, ← isNameStart_iff]
  simp only [isNameChar, isNameStart, Char.isAlphanum, Char.isDigit, Char.le_def, Bool.or_eq_true,
    Bool.and_eq_true, decide_eq_true_eq]
  tauto

theorem isNameChar_of_isNameStart (h : isNameStart c) : isNameChar c := by
  simp only [isNameStart, Bool.or_eq_true] at h
  rcases h with h | h <;> simp [isNameChar, Char.isAlphanum, h]

theorem toNat_of_isNameChar (h : isNameChar c) : 45 ≤ c.toNat ∧ c.toNat ≤ 122 := by
  simp only [isNameChar, Bool.or_eq_true, decide_eq_true_eq] at h
  rcases h with (((h | rfl) | rfl) | rfl) | rfl
  · simp only [Char.isAlphanum, Char.isAlpha, Char.isUpper, Char.isLower, Char.isDigit,
      Bool.or_eq_true, Bool.and_eq_true, decide_eq_true_eq, UInt32.le_iff_toNat_le, ge_iff_le] at h
    change ((65 ≤ c.toNat ∧ c.toNat ≤ 90) ∨ 97 ≤ c.toNat ∧ c.toNat ≤ 122) ∨
      48 ≤ c.toNat ∧ c.toNat ≤ 57 at h
    omega
  all_goals decide

theorem not_isNameChar_of_isBlank (h : Text.isBlank c) : isNameChar c = false := by
  by_contra hc
  have hname := toNat_of_isNameChar (by simpa using hc)
  simp only [Text.isBlank, Bool.or_eq_true, Bool.and_eq_true, decide_eq_true_eq, beq_iff_eq] at h
  omega

theorem endsName_append (hw : Blanks w) (hrest : EndsName rest) : EndsName (w ++ rest) := by
  cases w with
  | nil => exact hrest
  | cons d w =>
    intro c hc
    obtain rfl : d = c := by simpa using hc
    exact not_isNameChar_of_isBlank (hw d List.mem_cons_self)

theorem endsName_cons (hc : isNameChar c = false) : EndsName (c :: rest) := by
  intro d hd
  obtain rfl : c = d := by simpa using hd
  exact hc

/-- A name is read to its end. -/
theorem name?_eq_some_iff {name : String} :
    name? input = some (name, rest) ↔
      ∃ n, input = n ++ rest ∧ DerivesName n name ∧ EndsName rest := by
  constructor
  · intro h
    cases input with
    | nil => cases h
    | cons c input =>
      by_cases hc : isNameStart c
      · rw [name?, if_pos hc] at h
        cases h
        refine ⟨c :: input.takeWhile isNameChar, by simp, .mk (isNameStart_iff.1 hc) ?_,
          fun d hd => ?_⟩
        · exact fun d hd => isNameChar_iff.1 (List.mem_takeWhile_imp hd)
        · have := List.head?_dropWhile_not isNameChar input
          simp_all
      · rw [name?, if_neg hc] at h
        cases h
  · rintro ⟨n, rfl, ⟨hc, hcs⟩, hrest⟩
    rename_i c cs
    have hstart : isNameStart c := isNameStart_iff.2 hc
    have hchars : ∀ d ∈ cs, isNameChar d := fun d hd => isNameChar_iff.2 (hcs d hd)
    have htake : rest.takeWhile isNameChar = [] := by
      cases rest with
      | nil => rfl
      | cons d rest => exact List.takeWhile_cons_of_neg (by simp [hrest d rfl])
    have hdrop : rest.dropWhile isNameChar = rest := by
      cases rest with
      | nil => rfl
      | cons d rest => exact List.dropWhile_cons_of_neg (by simp [hrest d rfl])
    rw [List.cons_append, name?, if_pos hstart, List.takeWhile_append_of_pos hchars, htake,
      List.dropWhile_append_of_pos hchars, hdrop, List.append_nil]

theorem literal_eq_ok_iff {value : String} :
    literal input = .ok (value, rest) ↔ ∃ l, input = l ++ rest ∧ DerivesLiteral l value := by
  constructor
  · intro h
    cases input with
    | nil => cases h
    | cons q input =>
      rw [literal] at h
      split at h
      · rename_i hq
        have hsplit := List.takeWhile_append_dropWhile (p := (· ≠ q)) (l := input)
        have hhead := List.head?_dropWhile_not (· ≠ q) input
        split at h
        · cases h
        · rename_i d after hdrop
          cases h
          rw [hdrop] at hsplit hhead
          obtain rfl : d = q := by simpa using hhead
          refine ⟨d :: (input.takeWhile (· ≠ d) ++ [d]), by simpa using hsplit.symm, .mk ?_ ?_⟩
          · simpa using hq
          · intro hmem
            simpa using List.mem_takeWhile_imp hmem
      · cases h
  · rintro ⟨l, rfl, ⟨hq, hcs⟩⟩
    rename_i q cs
    have hall : ∀ d ∈ cs, decide (d ≠ q) = true := by
      intro d hd
      rw [decide_eq_true_eq]
      rintro rfl
      exact hcs hd
    have hdrop : (cs ++ q :: rest).dropWhile (· ≠ q) = q :: rest := by
      rw [List.dropWhile_append_of_pos hall, List.dropWhile_cons_of_neg (by simp)]
    have htake : (cs ++ q :: rest).takeWhile (· ≠ q) = cs := by
      rw [List.takeWhile_append_of_pos hall, List.takeWhile_cons_of_neg (by simp),
        List.append_nil]
    have hquote : (decide (q = '\'') || decide (q = '"')) = true := by simpa using hq
    rw [List.cons_append, List.append_assoc, List.singleton_append, literal, if_pos hquote, hdrop,
      htake]

/-! ## Predicates -/

theorem closing_eq_ok_iff {p q : Predicate} :
    closing p input = .ok (q, rest) ↔ p = q ∧ ∃ w, Blanks w ∧ input = w ++ ']' :: rest := by
  rw [← trimStart_eq_cons_iff (by decide), closing]
  constructor
  · intro h
    split at h
    · rename_i after htrim
      cases h
      exact ⟨rfl, htrim⟩
    · cases h
  · rintro ⟨rfl, htrim⟩
    simp only [htrim]

theorem closing_trimStart {p : Predicate} :
    closing p (Text.trimStart input) = closing p input := by
  rw [closing, closing, Text.trimStart, Text.trimStart, List.dropWhile_idempotent]

/-- A predicate ends with its bracket, whatever follows. -/
theorem predicate_eq_ok_iff {p : Predicate} :
    predicate input = .ok (p, rest) ↔
      ∃ w, '[' :: input = w ++ rest ∧ DerivesPredicate w p := by
  constructor
  · intro h
    rw [predicate] at h
    split at h
    · rename_i r₁ hat
      obtain ⟨w₁, hw₁, rfl⟩ := (trimStart_eq_cons_iff (by decide)).1 hat
      split at h
      · cases h
      · rename_i name r₂ hname
        obtain ⟨n, rfl, hn, -⟩ := name?_eq_some_iff.1 hname
        split at h
        · rename_i r₃ heq
          obtain ⟨w₂, hw₂, rfl⟩ := (trimStart_eq_cons_iff (by decide)).1 heq
          obtain ⟨⟨value, r₄⟩, hvalue, hclose⟩ := bind_eq_ok_iff.1 h
          obtain ⟨w₃, hw₃, hr₃⟩ := exists_blanks r₃
          obtain ⟨l, hl, hderives⟩ := literal_eq_ok_iff.1 hvalue
          obtain ⟨rfl, w₄, hw₄, rfl⟩ := closing_eq_ok_iff.1 hclose
          rw [hl] at hr₃
          subst hr₃
          exact ⟨_, by simp, .equals hw₁ hn hw₂ hw₃ hderives hw₄⟩
        · rw [closing_trimStart] at h
          obtain ⟨rfl, w₂, hw₂, rfl⟩ := closing_eq_ok_iff.1 h
          exact ⟨_, by simp, .has hw₁ hn hw₂⟩
    · cases h
  · rintro ⟨w, hinput, hp⟩
    cases hp with
    | @has w₁ w₂ n name hw₁ hn hw₂ =>
      have hname : name? (n ++ (w₂ ++ ']' :: rest)) = some (name, w₂ ++ ']' :: rest) :=
        name?_eq_some_iff.2 ⟨n, rfl, hn, endsName_append hw₂ (endsName_cons (by decide))⟩
      obtain rfl : input = w₁ ++ '@' :: (n ++ (w₂ ++ ']' :: rest)) := by simpa using hinput
      rw [predicate, trimStart_append_cons hw₁ (by decide)]
      simp only [hname]
      rw [trimStart_append_cons hw₂ (by decide)]
      exact closing_eq_ok_iff.2 ⟨rfl, [], by simp [Blanks], rfl⟩
    | @equals w₁ w₂ w₃ w₄ n l name value hw₁ hn hw₂ hw₃ hl hw₄ =>
      have hname (rest : List Char) : name? (n ++ (w₂ ++ '=' :: rest)) =
          some (name, w₂ ++ '=' :: rest) :=
        name?_eq_some_iff.2 ⟨n, rfl, hn, endsName_append hw₂ (endsName_cons (by decide))⟩
      obtain rfl : input = w₁ ++ '@' :: (n ++ (w₂ ++ '=' :: (w₃ ++ (l ++ (w₄ ++ ']' :: rest))))) := by
        simpa using hinput
      have htrim : Text.trimStart (w₃ ++ (l ++ (w₄ ++ ']' :: rest))) = l ++ (w₄ ++ ']' :: rest) := by
        obtain ⟨hq, -⟩ := hl
        rcases hq with rfl | rfl <;> exact trimStart_append_cons hw₃ (by decide)
      rw [predicate, trimStart_append_cons hw₁ (by decide)]
      simp only [hname]
      rw [trimStart_append_cons hw₂ (by decide)]
      refine bind_eq_ok_iff.2 ⟨_, literal_eq_ok_iff.2 ⟨l, htrim, hl⟩, ?_⟩
      exact closing_eq_ok_iff.2 ⟨rfl, w₄, hw₄, rfl⟩

/-- A predicate starts with its bracket. -/
theorem DerivesPredicate.exists_cons {p : Predicate} (h : DerivesPredicate w p) :
    ∃ rest, w = '[' :: rest := by
  cases h <;> exact ⟨_, rfl⟩

theorem row_of_predicatesFrom {before ps : List Predicate} {fuel : Nat}
    (hfuel : input.length < fuel) (h : predicatesFrom before fuel input = .ok (ps, rest)) :
    ∃ as v tail, ps = before.reverse ++ as ∧ input = v ++ tail ∧
      DerivesRow DerivesPredicate v as ∧ rest = Text.trimStart tail := by
  induction fuel generalizing input before with
  | zero => exact absurd hfuel (Nat.not_lt_zero _)
  | succ fuel ih =>
    rw [predicatesFrom] at h
    split at h
    · rename_i r hbracket
      obtain ⟨w, hw, rfl⟩ := (trimStart_eq_cons_iff (by decide)).1 hbracket
      obtain ⟨⟨p, r'⟩, hp, hrest⟩ := bind_eq_ok_iff.1 h
      obtain ⟨u, hu, hderives⟩ := predicate_eq_ok_iff.1 hp
      have hshort : r'.length < fuel := by
        obtain ⟨u', rfl⟩ := hderives.exists_cons
        have := congrArg List.length hu
        simp only [List.length_append, List.length_cons] at hfuel this
        omega
      obtain ⟨as, v, tail, rfl, rfl, hrow, rfl⟩ := ih hshort hrest
      exact ⟨p :: as, w ++ (u ++ v), tail, by simp, by simp [hu], .cons hw hderives hrow, rfl⟩
    · cases h
      exact ⟨[], [], input, by simp, rfl, .nil, rfl⟩

theorem predicatesFrom_of_row {before as : List Predicate} {fuel : Nat}
    (hrow : DerivesRow DerivesPredicate v as) (hfuel : (v ++ tail).length < fuel)
    (htail : (Text.trimStart tail).head? ≠ some '[') :
    predicatesFrom before fuel (v ++ tail) =
      .ok (before.reverse ++ as, Text.trimStart tail) := by
  induction hrow generalizing before fuel with
  | nil =>
    cases fuel with
    | zero => exact absurd hfuel (Nat.not_lt_zero _)
    | succ fuel =>
      rw [predicatesFrom, List.nil_append]
      split
      · rename_i hbracket
        simp [hbracket] at htail
      · simp
  | @cons w u v p as hw hp _ ih =>
    cases fuel with
    | zero => exact absurd hfuel (Nat.not_lt_zero _)
    | succ fuel =>
      obtain ⟨u, rfl⟩ := hp.exists_cons
      have hshort : (v ++ tail).length < fuel := by
        simp only [List.length_append, List.length_cons] at hfuel ⊢
        omega
      have hread : predicate (u ++ (v ++ tail)) = .ok (p, v ++ tail) :=
        predicate_eq_ok_iff.2 ⟨_, rfl, hp⟩
      simp only [List.append_assoc, List.cons_append]
      rw [predicatesFrom, trimStart_append_cons hw (by decide)]
      refine bind_eq_ok_iff.2 ⟨_, hread, ?_⟩
      show predicatesFrom (p :: before) fuel (v ++ tail) = _
      rw [ih hshort, List.reverse_cons, List.append_assoc, List.singleton_append]

/-! ## Steps -/

theorem DerivesName.exists_cons {name : String} (h : DerivesName w name) :
    ∃ c cs, w = c :: cs ∧ isNameStart c := by
  cases h with | mk hc hcs => exact ⟨_, _, rfl, isNameStart_iff.2 hc⟩

theorem derivesTest_of_nodeTest {t : NodeTest} (h : nodeTest input = .ok (t, rest)) :
    ∃ w, input = w ++ rest ∧ DerivesTest w t := by
  rw [nodeTest.eq_def] at h
  split at h
  · cases h
    exact ⟨['*'], rfl, .any⟩
  · split at h
    · rename_i hname
      cases h
      obtain ⟨n, rfl, hn, -⟩ := name?_eq_some_iff.1 hname
      exact ⟨n, rfl, .type hn⟩
    · cases h

theorem nodeTest_of_derivesTest {t : NodeTest} (h : DerivesTest w t) (hrest : EndsName rest) :
    nodeTest (w ++ rest) = .ok (t, rest) := by
  cases h with
  | any => rfl
  | type hn =>
    have hname := name?_eq_some_iff.2 ⟨w, rfl, hn, hrest⟩
    obtain ⟨c, cs, rfl, hc⟩ := hn.exists_cons
    rw [nodeTest.eq_def]
    split
    · rename_i hstar
      cases hstar
      cases hc
    · rw [hname]

theorem derivesAxis_of_axis {a : Axis} (h : axis input = .ok (a, rest)) :
    ∃ w, input = w ++ rest ∧ DerivesAxis w a := by
  rw [axis.eq_def] at h
  split at h
  · cases h
    exact ⟨['/', '/'], rfl, .descendant⟩
  · cases h
    exact ⟨['/'], rfl, .child⟩
  · cases h

theorem axis_of_derivesAxis {a : Axis} (h : DerivesAxis w a) (hrest : rest.head? ≠ some '/') :
    axis (w ++ rest) = .ok (a, rest) := by
  cases h with
  | descendant => rfl
  | child =>
    rw [axis.eq_def]
    split
    · rename_i hslash
      cases hslash
      simp at hrest
    · rename_i hslash
      cases hslash
      rfl
    · rename_i hslash
      exact absurd rfl (hslash rest)

/-- Behind the blanks in front, a step starts or the query ends. -/
def EndsStep (tail : List Char) : Prop := ∀ c ∈ (Text.trimStart tail).head?, c = '/'

theorem EndsStep.endsName (h : EndsStep tail) : EndsName tail := by
  obtain ⟨w, hw, htail⟩ := exists_blanks tail
  rw [htail]
  refine endsName_append hw fun c hc => ?_
  rw [h c hc]
  decide

theorem EndsStep.head?_ne (h : EndsStep tail) : (Text.trimStart tail).head? ≠ some '[' := by
  intro hbracket
  exact absurd (h '[' hbracket) (by decide)

/-- Neither a row of predicates nor what ends a step prolongs a name. -/
theorem endsName_row {as : List Predicate} (hrow : DerivesRow DerivesPredicate v as)
    (htail : EndsName tail) : EndsName (v ++ tail) := by
  cases hrow with
  | nil => exact htail
  | cons hw hp _ =>
    obtain ⟨u, rfl⟩ := hp.exists_cons
    simp only [List.append_assoc, List.cons_append]
    exact endsName_append hw (endsName_cons (by decide))

theorem DerivesTest.exists_cons {t : NodeTest} (h : DerivesTest w t) :
    ∃ c cs, w = c :: cs ∧ Text.isBlank c = false ∧ c ≠ '/' := by
  cases h with
  | any => exact ⟨'*', [], rfl, by decide, by decide⟩
  | type hn =>
    obtain ⟨c, cs, rfl, hc⟩ := hn.exists_cons
    refine ⟨c, cs, rfl, ?_, ?_⟩
    · by_contra hblank
      have hname := not_isNameChar_of_isBlank (by simpa using hblank)
      rw [isNameChar_of_isNameStart hc] at hname
      cases hname
    · rintro rfl
      cases hc

theorem derivesStep_of_step {s : Step} (h : step input = .ok (s, rest)) :
    ∃ u tail, input = u ++ tail ∧ DerivesStep u s ∧ rest = Text.trimStart tail := by
  obtain ⟨⟨a, r₁⟩, haxis, h⟩ := bind_eq_ok_iff.1 h
  obtain ⟨⟨t, r₂⟩, htest, h⟩ := bind_eq_ok_iff.1 h
  obtain ⟨⟨ps, r₃⟩, hpredicates, h⟩ := bind_eq_ok_iff.1 h
  cases h
  obtain ⟨u, rfl, hu⟩ := derivesAxis_of_axis haxis
  obtain ⟨w, hw, hr₁⟩ := exists_blanks r₁
  obtain ⟨v, hv, hderives⟩ := derivesTest_of_nodeTest htest
  obtain ⟨as, r, tail, rfl, rfl, hrow, rfl⟩ :=
    row_of_predicatesFrom (Nat.lt_succ_self _) hpredicates
  rw [hv] at hr₁
  subst hr₁
  exact ⟨_, tail, by simp, .mk hu hw hderives hrow, rfl⟩

theorem step_of_derivesStep {s : Step} (h : DerivesStep u s) (htail : EndsStep tail) :
    step (u ++ tail) = .ok (s, Text.trimStart tail) := by
  cases h with | @mk u w v r a t ps hu hw hv hrow =>
  obtain ⟨c, cs, rfl, hblank, hslash⟩ := hv.exists_cons
  have haxis : axis (u ++ (w ++ (c :: cs ++ (r ++ tail)))) =
      .ok (a, w ++ (c :: cs ++ (r ++ tail))) := by
    refine axis_of_derivesAxis hu ?_
    cases w with
    | nil => simpa using hslash
    | cons d w =>
      have := hw d List.mem_cons_self
      rintro ⟨⟩
      cases this
  have htrim : Text.trimStart (w ++ (c :: cs ++ (r ++ tail))) = c :: cs ++ (r ++ tail) :=
    trimStart_append_cons hw hblank
  have htest : nodeTest (c :: cs ++ (r ++ tail)) = .ok (t, r ++ tail) :=
    nodeTest_of_derivesTest hv (endsName_row hrow htail.endsName)
  have hpredicates : predicates (r ++ tail) = .ok (ps, Text.trimStart tail) :=
    predicatesFrom_of_row hrow (Nat.lt_succ_self _) htail.head?_ne
  simp only [List.append_assoc]
  refine bind_eq_ok_iff.2 ⟨_, haxis, ?_⟩
  refine bind_eq_ok_iff.2 ⟨_, (congrArg nodeTest htrim).trans htest, ?_⟩
  exact bind_eq_ok_iff.2 ⟨_, hpredicates, rfl⟩

theorem DerivesStep.exists_cons {s : Step} (h : DerivesStep u s) : ∃ rest, u = '/' :: rest := by
  cases h with | mk hu hw hv hrow =>
  cases hu <;> exact ⟨_, rfl⟩

theorem endsStep_row {as : List Step} (hrow : DerivesRow DerivesStep v as) (hw : Blanks w) :
    EndsStep (v ++ w) := by
  cases hrow with
  | nil => simp [EndsStep, trimStart_of_blanks hw]
  | cons hw' hs _ =>
    obtain ⟨u, rfl⟩ := hs.exists_cons
    intro c hc
    simp only [List.append_assoc, List.cons_append, trimStart_append_cons hw' (c := '/') (by decide),
      List.head?_cons, Option.mem_some] at hc
    exact hc.symm

theorem row_of_stepsFrom {before steps : List Step} {fuel : Nat}
    (hfuel : (Text.trimStart input).length < fuel)
    (h : stepsFrom before fuel (Text.trimStart input) = .ok steps) :
    ∃ as v w, steps = before.reverse ++ as ∧ input = v ++ w ∧
      DerivesRow DerivesStep v as ∧ Blanks w := by
  induction fuel generalizing input before with
  | zero => exact absurd hfuel (Nat.not_lt_zero _)
  | succ fuel ih =>
    obtain ⟨w, hw, hinput⟩ := exists_blanks input
    by_cases hnil : Text.trimStart input = []
    · rw [hnil, stepsFrom] at h
      cases h
      rw [hnil, List.append_nil] at hinput
      exact ⟨[], [], input, by simp, rfl, .nil, hinput ▸ hw⟩
    · rw [stepsFrom] at h
      · obtain ⟨⟨s, r⟩, hs, hrest⟩ := bind_eq_ok_iff.1 h
        obtain ⟨u, tail, hu, hderives, rfl⟩ := derivesStep_of_step hs
        have hshort : (Text.trimStart tail).length < fuel := by
          obtain ⟨u', rfl⟩ := hderives.exists_cons
          have hle := length_trimStart_le tail
          rw [hu] at hfuel
          simp only [List.length_append, List.length_cons] at hfuel
          omega
        rw [hu] at hinput
        subst hinput
        obtain ⟨as, v, w', rfl, rfl, hrow, hw'⟩ := ih hshort hrest
        exact ⟨s :: as, w ++ (u ++ v), w', by simp, by simp, .cons hw hderives hrow, hw'⟩
      · exact hnil

theorem stepsFrom_of_row {before as : List Step} {fuel : Nat}
    (hrow : DerivesRow DerivesStep v as) (hw : Blanks w)
    (hfuel : (Text.trimStart (v ++ w)).length < fuel) :
    stepsFrom before fuel (Text.trimStart (v ++ w)) = .ok (before.reverse ++ as) := by
  induction hrow generalizing before fuel with
  | nil =>
    cases fuel with
    | zero => exact absurd hfuel (Nat.not_lt_zero _)
    | succ fuel => simp [stepsFrom, trimStart_of_blanks hw]
  | @cons w' u v s as hw' hs hrow ih =>
    cases fuel with
    | zero => exact absurd hfuel (Nat.not_lt_zero _)
    | succ fuel =>
      have hread := step_of_derivesStep hs (endsStep_row hrow hw)
      obtain ⟨u, rfl⟩ := hs.exists_cons
      simp only [List.append_assoc, List.cons_append] at hread hfuel ⊢
      rw [trimStart_append_cons hw' (by decide)] at hfuel ⊢
      have hshort : (Text.trimStart (v ++ w)).length < fuel := by
        have hle := length_trimStart_le (v ++ w)
        simp only [List.length_append, List.length_cons] at hfuel hle
        omega
      rw [stepsFrom]
      · refine bind_eq_ok_iff.2 ⟨_, hread, ?_⟩
        show stepsFrom (s :: before) fuel (Text.trimStart (v ++ w)) = _
        rw [ih hshort, List.reverse_cons, List.append_assoc, List.singleton_append]
      · simp

/-! ## Queries -/

theorem stepsOf_eq_ok_iff {cs : List Char} {steps : List Step} :
    stepsOf (Text.trimStart cs) = .ok steps ↔ Derives cs ⟨steps⟩ := by
  constructor
  · intro h
    rw [stepsOf.eq_def] at h
    split at h
    · cases h
    · rename_i hne
      obtain ⟨as, v, w, rfl, rfl, hrow, hw⟩ := row_of_stepsFrom (Nat.lt_succ_self _) h
      cases hrow with
      | nil => exact absurd (trimStart_of_blanks hw) hne
      | @cons w' u v s as hw' hs hrow =>
        simp only [List.append_assoc]
        exact .mk hw' hs hrow hw
  · rintro ⟨hw₁, hs, hrow, hw₂⟩
    rename_i w₁ w₂ u v s steps
    have hread : stepsFrom [] _ (Text.trimStart (w₁ ++ (u ++ v) ++ w₂)) = .ok (s :: steps) :=
      stepsFrom_of_row (.cons hw₁ hs hrow) hw₂ (Nat.lt_succ_self _)
    simp only [List.append_assoc] at hread
    rw [stepsOf.eq_def]
    split
    · rename_i hnil
      rw [hnil] at hread
      cases hread
    · exact hread

/-- The fault that is reported for the place where the reading of `whole` got stuck. -/
def Stuck.fault (whole : List Char) (s : Stuck) : Fault :=
  match s.problem with
  | .empty => ⟨0, .empty⟩
  | problem => ⟨byteCount whole - byteCount s.rest, problem⟩

theorem parse_eq_stepsOf (text : String) :
    parse text = ((stepsOf (Text.trimStart text.toList)).map Query.mk).mapError
      (Stuck.fault text.toList) := by
  rw [parse]
  split
  · next h => rw [h]; rfl
  · next h => rw [h]; rfl
  · next problem rest hne h =>
    rw [h]
    cases problem
    · exact absurd rfl hne
    · rfl
    · rfl

theorem parse_eq_ok_iff_derives {text : String} {q : Query} :
    parse text = .ok q ↔ Derives text.toList q := by
  have hsteps : _ ↔ Derives text.toList ⟨q.steps⟩ := stepsOf_eq_ok_iff
  rw [← hsteps, parse_eq_stepsOf]
  cases stepsOf (Text.trimStart text.toList) with
  | error s => simp [Except.map, Except.mapError]
  | ok steps =>
    cases q
    simp [Except.map, Except.mapError]

/-- A text is read as a query exactly when the grammar derives the query from it, and no text
derives two queries. -/
theorem parse_eq_ok_iff :
    (∀ (s : String) (q : Query), parse s = .ok q ↔ Derives s.toList q) ∧
      ∀ (cs : List Char) (q q' : Query), Derives cs q → Derives cs q' → q = q' := by
  constructor
  · intro s q
    rw [← stepsOf_eq_ok_iff, parse]
    split
    · rename_i steps hsteps
      rw [hsteps]
      cases q
      simp
    · rename_i hsteps
      simp [hsteps]
    · rename_i hsteps
      simp [hsteps]
  · intro cs q q' h h'
    have hsteps := stepsOf_eq_ok_iff.2 h
    rw [stepsOf_eq_ok_iff.2 h'] at hsteps
    cases q
    cases q'
    simpa using hsteps.symm

/-- With blanks wherever they may stand, the query is still the only one. -/
theorem parse_eq_ok_iff_spaced :
    ∃ q : Query, parse " // a [ @k = '\"' ]/* " = .ok q ∧
      Derives " // a [ @k = '\"' ]/* ".toList q ∧
      ∀ q', Derives " // a [ @k = '\"' ]/* ".toList q' → q' = q := by
  let q : Query := ⟨[⟨.descendant, .type "a", [.equals "k" "\""]⟩, ⟨.child, .any, []⟩]⟩
  have hparse : parse " // a [ @k = '\"' ]/* " = .ok q := rfl
  obtain ⟨hderives, hunique⟩ := parse_eq_ok_iff
  have h := (hderives _ q).1 hparse
  exact ⟨q, hparse, h, fun q' h' => hunique _ q' q h' h⟩

end SyntaxGateway.Query
