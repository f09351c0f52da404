import SyntaxGateway.Proofs.Query.Parsing

/-!
# Blanks around a query

**Theorem (`parse_eq_parse_trim`).** A text that is more than blanks is read like the text without the
blanks at its ends. The query is the same. A fault has the same problem and stands as much further on
as there are bytes in front, except where the shorter text ends too early: then the fault stands behind
the blanks at the end as well, or names the first of them, where none may stand.

Blanks at the end are followed through every reader. Read with blanks behind its input, a reader finds
the same phrase and leaves the blanks, or gets stuck at the same place (`Stays`, `Shifts`). The one
reader that does not skip blanks before it looks is that of an attribute's name.
-/

namespace SyntaxGateway.Query

variable {α β : Type} {w input input' rest rest' : List Char}

/-! ## Blanks at the end -/

/-- There is no blank at the end. -/
def Solid (cs : List Char) : Prop := ∀ c ∈ cs.getLast?, Text.isBlank c = false

theorem Solid.of_suffix (h : Solid input) (hrest : rest <:+ input) : Solid rest := by
  obtain ⟨front, rfl⟩ := hrest
  intro c hc
  refine h c ?_
  rw [List.getLast?_append]
  simp [Option.mem_def.1 hc]

theorem Solid.trimStart_ne_nil (h : Solid rest) (hrest : rest ≠ []) : Text.trimStart rest ≠ [] := by
  intro hnil
  have hblank := List.dropWhile_eq_nil_iff.1 hnil _ (List.getLast_mem hrest)
  rw [h _ (List.getLast?_eq_some_getLast hrest)] at hblank
  cases hblank

/-- The blanks `w` behind `cs`, dropped where nothing else is left. -/
def pad (w cs : List Char) : List Char := if cs = [] then [] else cs ++ w

@[simp]
theorem pad_nil : pad w [] = [] := rfl

@[simp]
theorem pad_cons (c : Char) (cs : List Char) : pad w (c :: cs) = c :: (cs ++ w) := rfl

theorem pad_ne_cons {c : Char} {cs : List Char} (h : ∀ tail, cs ≠ c :: tail) (tail : List Char) :
    pad w cs ≠ c :: tail := by
  cases cs with
  | nil => simp
  | cons d cs =>
    rintro ⟨⟩
    exact h cs rfl

/-- What is left with the blanks `w` at the end, beside what is left without them. -/
def Behind (w rest rest' : List Char) : Prop := rest' = rest ++ w ∨ rest' = pad w rest

theorem trimStart_of_behind (hw : Blanks w) (h : Solid rest) (hbehind : Behind w rest rest') :
    Text.trimStart rest' = pad w (Text.trimStart rest) := by
  by_cases hrest : rest = []
  · subst hrest
    rcases hbehind with rfl | rfl
    · exact trimStart_of_blanks hw
    · rfl
  · have happend : rest' = rest ++ w := by
      rcases hbehind with rfl | rfl
      · rfl
      · rw [pad, if_neg hrest]
    have hne := h.trimStart_ne_nil hrest
    have hdrop : ((rest.dropWhile Text.isBlank).isEmpty = true) = False := by
      rw [List.isEmpty_iff]
      exact eq_false hne
    rw [happend, pad, if_neg hne, Text.trimStart, List.dropWhile_append, if_neg (of_eq_false hdrop)]
    rfl

theorem trimStart_isSuffix (cs : List Char) : Text.trimStart cs <:+ cs := List.dropWhile_suffix _

/-! ## Readers beside themselves -/

/-- A reader gets stuck at the same place with the blanks `w` at the end. -/
inductive Shifts (w input : List Char) : Stuck → Stuck → Prop
  | missing {what : Expected} {rest : List Char} : what ≠ .attributeName → rest <:+ input →
      Shifts w input ⟨.expected what rest.head?, rest⟩ ⟨.expected what (pad w rest).head?, pad w rest⟩
  | attributeName {rest : List Char} : rest <:+ input →
      Shifts w input ⟨.expected .attributeName rest.head?, rest⟩
        ⟨.expected .attributeName (rest ++ w).head?, rest ++ w⟩
  | openLiteral {rest : List Char} : rest <:+ input →
      Shifts w input ⟨.openLiteral, rest⟩ ⟨.openLiteral, rest ++ w⟩

/-- A reader of `input` gives the same with the blanks `w` at the end. -/
inductive Stays (w input : List Char) :
    Except Stuck (α × List Char) → Except Stuck (α × List Char) → Prop
  | ok {a : α} {rest rest' : List Char} : rest <:+ input → Behind w rest rest' →
      Stays w input (.ok (a, rest)) (.ok (a, rest'))
  | stuck {s s' : Stuck} : Shifts w input s s' → Stays w input (.error s) (.error s')

theorem Shifts.mono {s s' : Stuck} (h : Shifts w rest s s') (hrest : rest <:+ input) :
    Shifts w input s s' := by
  cases h with
  | missing hwhat h => exact .missing hwhat (h.trans hrest)
  | attributeName h => exact .attributeName (h.trans hrest)
  | openLiteral h => exact .openLiteral (h.trans hrest)

theorem Stays.mono {x y : Except Stuck (α × List Char)} (h : Stays w rest x y)
    (hrest : rest <:+ input) : Stays w input x y := by
  cases h with
  | ok h hbehind => exact .ok (h.trans hrest) hbehind
  | stuck h => exact .stuck (h.mono hrest)

theorem Stays.bind {x y : Except Stuck (α × List Char)}
    {f g : α × List Char → Except Stuck (β × List Char)} (h : Stays w input x y)
    (hfg : ∀ a rest rest', rest <:+ input → Behind w rest rest' →
      Stays w rest (f (a, rest)) (g (a, rest'))) :
    Stays w input (x >>= f) (y >>= g) := by
  cases h with
  | ok hrest hbehind => exact (hfg _ _ _ hrest hbehind).mono hrest
  | stuck h => exact .stuck h

/-! ## Tokens -/

theorem isSuffix_of_cons {c : Char} (h : c :: rest <:+ input) : rest <:+ input :=
  (List.suffix_cons c rest).trans h

theorem endsName_append_blanks (hw : Blanks w) (h : EndsName rest) : EndsName (rest ++ w) := by
  cases rest with
  | nil =>
    have hnil : EndsName ([] : List Char) := fun _ hc => nomatch hc
    simpa using endsName_append hw hnil
  | cons c rest => exact fun d hd => h d hd

theorem name?_append_of_some {name : String} (hw : Blanks w) (h : name? input = some (name, rest)) :
    name? (input ++ w) = some (name, rest ++ w) := by
  obtain ⟨n, rfl, hn, hrest⟩ := name?_eq_some_iff.1 h
  exact name?_eq_some_iff.2 ⟨n, by simp, hn, endsName_append_blanks hw hrest⟩

theorem name?_append_of_none (hw : Blanks w) (h : name? input = none) :
    name? (input ++ w) = none := by
  have hblank (c : Char) (hc : c ∈ w) : isNameStart c = false := by
    by_contra hstart
    have hname := isNameChar_of_isNameStart (by simpa using hstart)
    rw [not_isNameChar_of_isBlank (hw c hc)] at hname
    cases hname
  cases input with
  | nil =>
    cases w with
    | nil => rfl
    | cons c w => simp [name?, hblank c List.mem_cons_self]
  | cons c input =>
    simp only [name?, List.cons_append] at h ⊢
    split at h
    · cases h
    · next hc => rw [if_neg hc]

theorem isSuffix_of_name? {name : String} (h : name? input = some (name, rest)) :
    rest <:+ input := by
  obtain ⟨n, rfl, -⟩ := name?_eq_some_iff.1 h
  exact List.suffix_append n rest

/-- Blanks behind a literal without its closing quote do not close it. -/
theorem literal_append_of_error {q : Char} {s : Stuck} (hw : Blanks w)
    (h : literal (q :: input) = .error s) :
    ∃ s', literal (q :: (input ++ w)) = .error s' ∧ Shifts w (q :: input) s s' := by
  rw [literal] at h ⊢
  split at h
  · next hq =>
    split at h
    · next hdrop =>
      cases h
      have hquote : ∀ c ∈ w, decide (c ≠ q) = true := by
        intro c hc
        rw [decide_eq_true_eq]
        rintro rfl
        have hblank := hw c hc
        simp only [Bool.or_eq_true, decide_eq_true_eq] at hq
        rcases hq with rfl | rfl <;> cases hblank
      have hopen : (input ++ w).dropWhile (· ≠ q) = [] := by
        rw [List.dropWhile_append, hdrop]
        exact List.dropWhile_eq_nil_iff.2 hquote
      rw [if_pos hq, hopen]
      exact ⟨_, rfl, .openLiteral (List.suffix_refl _)⟩
    · cases h
  · next hq =>
    cases h
    rw [if_neg hq]
    exact ⟨_, rfl, .missing (by decide) (List.suffix_refl _)⟩

theorem stays_literal (hw : Blanks w) : Stays w input (literal input) (literal (pad w input)) := by
  cases input with
  | nil => exact .stuck (.missing (by decide) (List.suffix_refl _))
  | cons q input =>
    rw [pad_cons]
    cases hread : literal (q :: input) with
    | error s =>
      obtain ⟨s', hread', hshifts⟩ := literal_append_of_error hw hread
      rw [hread']
      exact .stuck hshifts
    | ok e =>
      obtain ⟨l, hl, hderives⟩ := literal_eq_ok_iff.1 hread
      have hread' : literal (q :: (input ++ w)) = .ok (e.1, e.2 ++ w) :=
        literal_eq_ok_iff.2 ⟨l, by rw [← List.cons_append, hl, List.append_assoc], hderives⟩
      rw [hread']
      exact .ok ⟨l, hl.symm⟩ (.inl rfl)

/-! ## Predicates -/

theorem stays_closing {p : Predicate} (hw : Blanks w) (h : Solid input)
    (hbehind : Behind w input input') : Stays w input (closing p input) (closing p input') := by
  rw [closing, closing, trimStart_of_behind hw h hbehind]
  have hsuffix := trimStart_isSuffix input
  split
  · next r ht =>
    rw [ht] at hsuffix ⊢
    exact .ok (isSuffix_of_cons hsuffix) (.inl rfl)
  · next hne =>
    split
    · next ht => exact absurd ht (pad_ne_cons hne _)
    · exact .stuck (.missing (by decide) hsuffix)

/-- The value of a predicate and its bracket, after the `=`. -/
theorem stays_value {name : String} (hw : Blanks w) (h : Solid input) :
    Stays w input
      (literal (Text.trimStart input) >>= fun (value, rest) => closing (.equals name value) rest)
      (literal (Text.trimStart (input ++ w)) >>= fun (value, rest) =>
        closing (.equals name value) rest) := by
  rw [trimStart_of_behind hw h (.inl rfl)]
  have hvalue := trimStart_isSuffix input
  exact ((stays_literal hw).bind fun _ _ _ hrest hbehind =>
    stays_closing hw (h.of_suffix (hrest.trans hvalue)) hbehind).mono hvalue

theorem stays_predicate (hw : Blanks w) (h : Solid input) (hbehind : Behind w input input') :
    Stays w input (predicate input) (predicate input') := by
  rw [predicate, predicate, trimStart_of_behind hw h hbehind]
  have hsuffix := trimStart_isSuffix input
  split
  · next r hat =>
    rw [hat] at hsuffix ⊢
    simp only [pad_cons]
    have hr := isSuffix_of_cons hsuffix
    cases hname : name? r with
    | none =>
      -- No blanks are skipped behind the `@`, so those at the end are not dropped here.
      rw [name?_append_of_none hw hname]
      exact .stuck (.attributeName hr)
    | some e =>
      obtain ⟨name, r₂⟩ := e
      rw [name?_append_of_some hw hname]
      have hr₂ := (isSuffix_of_name? hname).trans hr
      have hsolid := h.of_suffix hr₂
      simp only
      rw [trimStart_of_behind hw hsolid (.inl rfl)]
      have hsuffix₂ := (trimStart_isSuffix r₂).trans hr₂
      split
      · next r₃ heq =>
        rw [heq] at hsuffix₂ ⊢
        have hr₃ := isSuffix_of_cons hsuffix₂
        simp only [pad_cons]
        exact (stays_value hw (h.of_suffix hr₃)).mono hr₃
      · next hne =>
        split
        · next ht => exact absurd ht (pad_ne_cons hne _)
        · exact (stays_closing hw (h.of_suffix hsuffix₂) (.inr rfl)).mono hsuffix₂
  · next hne =>
    split
    · next ht => exact absurd ht (pad_ne_cons hne _)
    · exact .stuck (.missing (by decide) hsuffix)

theorem stays_predicatesFrom {before : List Predicate} {fuel fuel' : Nat} (hw : Blanks w)
    (h : Solid input) (hbehind : Behind w input input') (hfuel : input.length < fuel)
    (hfuel' : input.length < fuel') :
    Stays w input (predicatesFrom before fuel input) (predicatesFrom before fuel' input') := by
  induction fuel generalizing input input' before fuel' with
  | zero => exact absurd hfuel (Nat.not_lt_zero _)
  | succ fuel ih =>
    cases fuel' with
    | zero => exact absurd hfuel' (Nat.not_lt_zero _)
    | succ fuel' =>
      rw [predicatesFrom, predicatesFrom, trimStart_of_behind hw h hbehind]
      have hsuffix := trimStart_isSuffix input
      split
      · next r ht =>
        rw [ht] at hsuffix ⊢
        simp only [pad_cons]
        have hr := isSuffix_of_cons hsuffix
        have hlength := hsuffix.length_le
        rw [List.length_cons] at hlength
        refine ((stays_predicate hw (h.of_suffix hr) (.inl rfl)).bind
          fun p rest rest' hrest hbehind => ?_).mono hr
        have hle := hrest.length_le
        exact ih (h.of_suffix (hrest.trans hr)) hbehind (by omega) (by omega)
      · next hne =>
        split
        · next ht => exact absurd ht (pad_ne_cons hne _)
        · exact .ok hsuffix (.inr rfl)

theorem stays_predicates (hw : Blanks w) (h : Solid input) (hbehind : Behind w input input') :
    Stays w input (predicates input) (predicates input') := by
  refine stays_predicatesFrom hw h hbehind (Nat.lt_succ_self _) (Nat.lt_succ_of_le ?_)
  rcases hbehind with rfl | rfl
  · simp
  · cases input <;> simp

/-! ## Steps -/

theorem axis_eq_missing (h : input.head? ≠ some '/') : axis input = missing .slash input := by
  rw [axis.eq_def]
  split
  · exact absurd rfl h
  · exact absurd rfl h
  · rfl

theorem stays_axis (hw : Blanks w) : Stays w input (axis input) (axis (pad w input)) := by
  cases input with
  | nil => exact .stuck (.missing (by decide) (List.suffix_refl _))
  | cons c r =>
    rw [pad_cons]
    by_cases hc : c = '/'
    · subst hc
      by_cases hr : r.head? = some '/'
      · obtain ⟨r, rfl⟩ := List.head?_eq_some_iff.1 hr
        exact .ok (isSuffix_of_cons (List.suffix_cons _ _)) (.inl rfl)
      · -- The second slash is none of the blanks either.
        have hslash : (r ++ w).head? ≠ some '/' := by
          intro hhead
          rw [List.head?_append, Option.or_eq_some_iff] at hhead
          rcases hhead with hhead | ⟨-, hhead⟩
          · exact hr hhead
          · cases hw _ (List.mem_of_head? hhead)
        have hread := axis_of_derivesAxis .child hr
        have hread' := axis_of_derivesAxis .child hslash
        rw [List.singleton_append] at hread hread'
        rw [hread, hread']
        exact .ok (List.suffix_cons _ _) (.inl rfl)
    · have hslash (cs : List Char) : (c :: cs).head? ≠ some '/' := by simpa using hc
      rw [axis_eq_missing (hslash _), axis_eq_missing (hslash _)]
      exact .stuck (.missing (by decide) (List.suffix_refl _))

theorem nodeTest_of_ne (h : input.head? ≠ some '*') :
    nodeTest input = match name? input with
      | some (name, rest) => .ok (.type name, rest)
      | none => missing .test input := by
  rw [nodeTest.eq_def]
  split
  · exact absurd rfl h
  · rfl

theorem stays_nodeTest (hw : Blanks w) :
    Stays w input (nodeTest input) (nodeTest (pad w input)) := by
  cases input with
  | nil => exact .stuck (.missing (by decide) (List.suffix_refl _))
  | cons c r =>
    by_cases hc : c = '*'
    · subst hc
      exact .ok (List.suffix_cons _ _) (.inl rfl)
    · have hstar (cs : List Char) : (c :: cs).head? ≠ some '*' := by simpa using hc
      rw [nodeTest_of_ne (hstar _), pad_cons, nodeTest_of_ne (hstar _), ← List.cons_append]
      cases hname : name? (c :: r) with
      | none =>
        rw [name?_append_of_none hw hname]
        exact .stuck (.missing (by decide) (List.suffix_refl _))
      | some e =>
        rw [name?_append_of_some hw hname]
        exact .ok (isSuffix_of_name? hname) (.inl rfl)

theorem stays_step (hw : Blanks w) (h : Solid input) :
    Stays w input (step input) (step (pad w input)) := by
  refine (stays_axis hw).bind fun a r r' hr hbehind => ?_
  have hsolid := h.of_suffix hr
  have htest : Stays w (Text.trimStart r) (nodeTest (Text.trimStart r))
      (nodeTest (pad w (Text.trimStart r))) := stays_nodeTest hw
  rw [← trimStart_of_behind hw hsolid hbehind] at htest
  have ht := trimStart_isSuffix r
  refine Stays.mono (htest.bind fun t s s' hs hbehind => ?_) ht
  have hsolid' := hsolid.of_suffix (hs.trans ht)
  refine (stays_predicates hw hsolid' hbehind).bind fun ps u u' hu hbehind => ?_
  exact .ok (List.suffix_refl _) hbehind

theorem length_lt_of_step {s : Step} (h : step input = .ok (s, rest)) :
    rest.length < input.length := by
  obtain ⟨u, tail, rfl, hderives, rfl⟩ := derivesStep_of_step h
  obtain ⟨u, rfl⟩ := hderives.exists_cons
  have hle := length_trimStart_le tail
  simp only [List.length_append, List.length_cons]
  omega

theorem trimStart_of_step {s : Step} (h : step input = .ok (s, rest)) :
    Text.trimStart rest = rest := by
  obtain ⟨-, tail, -, -, rfl⟩ := derivesStep_of_step h
  exact List.dropWhile_idempotent Text.isBlank tail

/-- The whole input is read to the same result with the blanks `w` at the end, or reading gets stuck
at the same place. -/
inductive Agrees (w input : List Char) : Except Stuck α → Except Stuck α → Prop
  | ok (a : α) : Agrees w input (.ok a) (.ok a)
  | stuck {s s' : Stuck} : Shifts w input s s' → Agrees w input (.error s) (.error s')

theorem Agrees.mono {x y : Except Stuck α} (h : Agrees w rest x y) (hrest : rest <:+ input) :
    Agrees w input x y := by
  cases h with
  | ok a => exact .ok a
  | stuck h => exact .stuck (h.mono hrest)

theorem agrees_stepsFrom {before : List Step} {fuel fuel' : Nat} (hw : Blanks w) (h : Solid input)
    (hfuel : input.length < fuel) (hfuel' : input.length < fuel') :
    Agrees w input (stepsFrom before fuel input) (stepsFrom before fuel' (pad w input)) := by
  induction fuel generalizing input before fuel' with
  | zero => exact absurd hfuel (Nat.not_lt_zero _)
  | succ fuel ih =>
    cases fuel' with
    | zero => exact absurd hfuel' (Nat.not_lt_zero _)
    | succ fuel' =>
      cases input with
      | nil => exact .ok _
      | cons c input =>
        have hne (cs : List Char) : c :: cs ≠ [] := List.cons_ne_nil _ _
        have hstep : Stays w (c :: input) (step (c :: input)) (step (pad w (c :: input))) :=
          stays_step hw h
        rw [pad_cons] at hstep ⊢
        rw [stepsFrom.eq_3 _ _ _ (hne _), stepsFrom.eq_3 _ _ _ (hne _)]
        generalize hread : step (c :: input) = x at hstep
        generalize hread' : step (c :: (input ++ w)) = y at hstep
        cases hstep with
        | stuck hshifts => exact .stuck hshifts
        | @ok s rest rest' hrest hbehind =>
          have hlt := length_lt_of_step hread
          have hsolid := h.of_suffix hrest
          have hrest' := trimStart_of_behind hw hsolid hbehind
          -- Both steps leave trimmed rests, so the same invariant holds for the next one.
          rw [trimStart_of_step hread, trimStart_of_step hread'] at hrest'
          subst hrest'
          rw [List.length_cons] at hlt hfuel hfuel'
          exact (ih hsolid (by omega) (by omega)).mono hrest

theorem agrees_stepsOf (hw : Blanks w) (h : Solid input) (hne : input ≠ []) :
    Agrees w input (stepsOf input) (stepsOf (pad w input)) := by
  cases input with
  | nil => exact absurd rfl hne
  | cons c input =>
    refine agrees_stepsFrom hw h (Nat.lt_succ_self _) ?_
    simp only [pad_cons, List.length_cons, List.length_append]
    omega

/-! ## Bytes -/

@[simp]
theorem byteCount_nil : byteCount [] = 0 := rfl

theorem byteCount_append (as bs : List Char) :
    byteCount (as ++ bs) = byteCount as + byteCount bs := by
  have h (cs : List Char) : byteCount cs = (cs.map Char.utf8Size).sum := by
    rw [byteCount, List.sum_eq_foldl, List.foldl_map]
  simp only [h, List.map_append, List.sum_append]

theorem byteCount_eq_zero_iff {cs : List Char} : byteCount cs = 0 ↔ cs = [] := by
  cases cs with
  | nil => simp
  | cons c cs =>
    have hpos := c.utf8Size_pos
    have happend := byteCount_append [c] cs
    have hsingle : byteCount [c] = c.utf8Size := Nat.zero_add _
    rw [List.singleton_append, hsingle] at happend
    simp only [reduceCtorEq, iff_false]
    omega

theorem byteCount_le (h : rest <:+ input) : byteCount rest ≤ byteCount input := by
  obtain ⟨front, rfl⟩ := h
  rw [byteCount_append]
  exact Nat.le_add_left _ _

/-- The fault for the text with `lead` in front of it and the blanks `trail` behind it. -/
def Fault.padded (lead trail : List Char) (f : Fault) : Fault :=
  match f.problem with
  | .expected .attributeName none =>
    ⟨byteCount lead + f.position, .expected .attributeName trail.head?⟩
  | .expected what none => ⟨byteCount lead + f.position + byteCount trail, .expected what none⟩
  | problem => ⟨byteCount lead + f.position, problem⟩

theorem Fault.padded_found {lead trail : List Char} {n : Nat} {what : Expected} {c : Char} :
    (Fault.mk n (.expected what (some c))).padded lead trail =
      ⟨byteCount lead + n, .expected what (some c)⟩ := by
  cases what <;> rfl

theorem Fault.padded_end {lead trail : List Char} {n : Nat} {what : Expected}
    (hwhat : what ≠ .attributeName) :
    (Fault.mk n (.expected what none)).padded lead trail =
      ⟨byteCount lead + n + byteCount trail, .expected what none⟩ := by
  cases what with
  | attributeName => exact absurd rfl hwhat
  | _ => rfl

theorem fault_of_shifts {s s' : Stuck} (lead : List Char) (h : Shifts w input s s') :
    s'.fault (lead ++ (input ++ w)) = (s.fault input).padded lead w := by
  have hplace (rest : List Char) (hrest : rest <:+ input) :
      byteCount (lead ++ (input ++ w)) - byteCount (rest ++ w) =
        byteCount lead + (byteCount input - byteCount rest) := by
    have hle := byteCount_le hrest
    simp only [byteCount_append]
    omega
  cases h with
  | @missing what rest hwhat hrest =>
    cases rest with
    | nil =>
      simp only [Stuck.fault, pad_nil, List.head?_nil, Fault.padded_end hwhat, byteCount_append,
        byteCount_nil, Nat.sub_zero, Nat.add_assoc]
    | cons c rest =>
      have hplace := hplace _ hrest
      rw [List.cons_append] at hplace
      simp only [Stuck.fault, pad_cons, List.head?_cons, Fault.padded_found, hplace]
  | @attributeName rest hrest =>
    simp only [Stuck.fault, hplace _ hrest]
    cases rest <;> rfl
  | @openLiteral rest hrest =>
    simp only [Stuck.fault, hplace _ hrest]
    rfl

/-! ## The ends of a text -/

/-- The blanks a text starts with. -/
def leading (text : String) : List Char := text.toList.takeWhile Text.isBlank

/-- The blanks a text ends with, apart from those it starts with. -/
def trailing (text : String) : List Char :=
  ((Text.trimStart text.toList).reverse.takeWhile Text.isBlank).reverse

theorem trimStart_toList (text : String) :
    Text.trimStart text.toList = (Text.trim text).toList ++ trailing text := by
  rw [Text.trim, String.toList_ofList, Text.trimEnd, trailing, ← List.reverse_append,
    List.takeWhile_append_dropWhile, List.reverse_reverse]

theorem toList_eq (text : String) :
    text.toList = leading text ++ ((Text.trim text).toList ++ trailing text) := by
  rw [← trimStart_toList]
  exact List.takeWhile_append_dropWhile.symm

theorem blanks_leading (text : String) : Blanks (leading text) :=
  fun _ hc => List.mem_takeWhile_imp hc

theorem blanks_trailing (text : String) : Blanks (trailing text) :=
  fun _ hc => List.mem_takeWhile_imp (List.mem_reverse.1 hc)

theorem trim_ne_empty {text : String} (h : ∃ c ∈ text.toList, Text.isBlank c = false) :
    Text.trim text ≠ "" := by
  obtain ⟨c, hc, hsolid⟩ := h
  intro hempty
  rw [toList_eq, hempty, String.toList_empty, List.nil_append, List.mem_append] at hc
  have hblank : Text.isBlank c := hc.elim (blanks_leading text c) (blanks_trailing text c)
  rw [hsolid] at hblank
  cases hblank

theorem solid_trim (text : String) : Solid (Text.trim text).toList := by
  intro c hc
  rw [Text.trim, String.toList_ofList, Text.trimEnd, List.getLast?_reverse] at hc
  have hhead := List.head?_dropWhile_not Text.isBlank (Text.trimStart text.toList).reverse
  rw [Option.mem_def.1 hc] at hhead
  simpa using hhead

theorem trimStart_toList_trim (text : String) :
    Text.trimStart (Text.trim text).toList = (Text.trim text).toList := by
  have happend := trimStart_toList text
  cases hcore : (Text.trim text).toList with
  | nil => rfl
  | cons c core =>
    have hhead := List.head?_dropWhile_not Text.isBlank text.toList
    rw [← Text.trimStart, happend, hcore, List.cons_append, List.head?_cons] at hhead
    exact trimStart_cons (by simpa using hhead)

/-- Trimming a text changes what is reported of it in the place and in what is found at the end. -/
theorem parse_eq_parse_trim {text : String} (h : Text.trim text ≠ "") :
    parse text =
      (parse (Text.trim text)).mapError (Fault.padded (leading text) (trailing text)) := by
  have hne : (Text.trim text).toList ≠ [] := by simpa using h
  have hagrees := agrees_stepsOf (blanks_trailing text) (solid_trim text) hne
  have hpad : Text.trimStart text.toList = pad (trailing text) (Text.trim text).toList := by
    rw [trimStart_toList, pad, if_neg hne]
  rw [parse_eq_stepsOf, parse_eq_stepsOf, trimStart_toList_trim, hpad]
  generalize stepsOf (Text.trim text).toList = x at hagrees ⊢
  generalize stepsOf (pad (trailing text) (Text.trim text).toList) = y at hagrees ⊢
  cases hagrees with
  | ok steps => rfl
  | stuck hshifts =>
    have hfault := fault_of_shifts (leading text) hshifts
    rw [← toList_eq] at hfault
    exact congrArg Except.error hfault

-- Blanks are not skipped in front of an attribute's name, so the first of them is what is found there.
example : parse "/a[@" = .error ⟨4, .expected .attributeName none⟩ ∧
    parse " /a[@ " = .error ⟨5, .expected .attributeName (some ' ')⟩ := ⟨rfl, rfl⟩

end SyntaxGateway.Query
