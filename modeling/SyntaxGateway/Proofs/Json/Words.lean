import Mathlib
import SyntaxGateway.Proofs.Json.Grammar
import SyntaxGateway.Proofs.Outcome
import SyntaxGateway.Proofs.Text.Utf8

/-!
# The words of JSON are read as they are spelt

Each reader of a word succeeds exactly in front of a text of that word, and leaves what stands
behind it. Words with an end of their own (`ident_eq_ok_iff`, `stringBody_eq_ok_iff`,
`skipString_eq_ok_iff`) are read whatever follows. A number is read as far as it goes, so that what
follows must not continue it (`skipNumber_append`).
-/

namespace SyntaxGateway.Json

variable {input rest w : Bytes}

/-! ## Blanks -/

theorem Blanks.append {v : Bytes} (hv : Blanks v) (hw : Blanks w) : Blanks (v ++ w) := by
  intro b hb
  rcases List.mem_append.mp hb with hb | hb
  · exact hv b hb
  · exact hw b hb

theorem blanks_nil : Blanks [] := by
  intro b hb
  cases hb

theorem exists_blanks (input : Bytes) : ∃ w, Blanks w ∧ input = w ++ skipBlanks input :=
  ⟨input.takeWhile isBlank, fun _ => List.mem_takeWhile_imp, List.takeWhile_append_dropWhile.symm⟩

theorem skipBlanks_append (hw : Blanks w) : skipBlanks (w ++ rest) = skipBlanks rest :=
  List.dropWhile_append_of_pos hw

theorem skipBlanks_cons {b : UInt8} (hb : isBlank b = false) : skipBlanks (b :: rest) = b :: rest :=
  List.dropWhile_cons_of_neg (by simp [hb])

theorem skipBlanks_append_cons {b : UInt8} (hw : Blanks w) (hb : isBlank b = false) :
    skipBlanks (w ++ b :: rest) = b :: rest := by
  rw [skipBlanks_append hw, skipBlanks_cons hb]

theorem skipBlanks_of_cons {b : UInt8} (h : skipBlanks input = b :: rest) :
    ∃ w, Blanks w ∧ input = w ++ b :: rest := by
  obtain ⟨w, hw, h'⟩ := exists_blanks input
  exact ⟨w, hw, h ▸ h'⟩

theorem skipBlanks_eq_nil_iff : skipBlanks input = [] ↔ Blanks input :=
  List.dropWhile_eq_nil_iff

/-! ## Fixed words -/

theorem ident_eq_ok_iff {word : Bytes} : ident word input = .ok rest ↔ input = word ++ rest := by
  induction word generalizing input with
  | nil => simp [ident]
  | cons b word ih =>
    cases input with
    | nil => simp [ident, fail]
    | cons c input =>
      by_cases h : b = c
      · subst h
        simp [ident, ih]
      · simp [ident, fail, h, Ne.symm h]

/-! ## Escapes -/

theorem HexText.length_eq {h : Bytes} {n : Nat} (hh : HexText h n) : h.length = 4 := by
  cases hh
  rfl

theorem hexUnit_eq_ok_iff {n : Nat} :
    hexUnit input = .ok n ↔ ∃ h rest, HexText h n ∧ input = h ++ rest := by
  constructor
  · intro h
    unfold hexUnit at h
    split at h
    next a b c d rest =>
      split at h
      next p q r s hp hq hr hs =>
        obtain rfl := Except.ok.inj h
        exact ⟨[a, b, c, d], rest, .mk hp hq hr hs, rfl⟩
      next => cases h
    next => cases h
  · rintro ⟨_, rest, ⟨hp, hq, hr, hs⟩, rfl⟩
    simp [hexUnit, hp, hq, hr, hs]

theorem shortEscape?_u : shortEscape? 0x75 = none := by
  decide

theorem escapeText_of_escaped {c : Bytes} {k : Nat} (h : escaped input = .ok (c, k)) :
    ∃ e rest, EscapeText e c ∧ k = e.length ∧ input = e ++ rest := by
  unfold escaped at h
  split at h
  next => cases h
  next e input =>
    split at h
    next b hb =>
      obtain ⟨rfl, rfl⟩ := Prod.mk.inj (Except.ok.inj h)
      exact ⟨[e], input, .short hb, rfl, rfl⟩
    next hb =>
      split_ifs at h with he
      · cases h
      obtain rfl : e = 0x75 := not_not.mp he
      obtain ⟨n, hn, h⟩ := bind_eq_ok_iff.mp h
      obtain ⟨t, rest, ht, rfl⟩ := hexUnit_eq_ok_iff.mp hn
      rw [← ht.length_eq, List.drop_left] at h
      split_ifs at h with htrail hlead
      · cases h
      · split at h
        any_goals cases h
        next more =>
          obtain ⟨m, hm, h⟩ := bind_eq_ok_iff.mp h
          obtain ⟨t', rest', ht', rfl⟩ := hexUnit_eq_ok_iff.mp hm
          split_ifs at h with htrail'
          · obtain ⟨rfl, rfl⟩ := Prod.mk.inj (Except.ok.inj h)
            refine ⟨_, rest', .pair ht hlead ht' htrail', ?_, ?_⟩
            · simp [ht.length_eq, ht'.length_eq]
            · simp
          · cases h
      · obtain ⟨rfl, rfl⟩ := Prod.mk.inj (Except.ok.inj h)
        refine ⟨_, rest, .unit ht ?_ ?_, ?_, ?_⟩
        · simpa using hlead
        · simpa using htrail
        · simp [ht.length_eq]
        · simp

theorem escaped_append {e c : Bytes} (he : EscapeText e c) :
    escaped (e ++ rest) = .ok (c, e.length) := by
  cases he with
  | short hb => simp [escaped, hb]
  | @unit h n hh hlead htrail =>
    have hn : hexUnit (h ++ rest) = .ok n := hexUnit_eq_ok_iff.mpr ⟨h, rest, hh, rfl⟩
    simp [escaped, shortEscape?_u, hn, hlead, htrail, hh.length_eq, bind, Except.bind, pure,
      Except.pure]
  | @pair h k n m hh hlead hk htrail =>
    have hn : hexUnit (h ++ (0x5C :: 0x75 :: (k ++ rest))) = .ok n :=
      hexUnit_eq_ok_iff.mpr ⟨h, _, hh, rfl⟩
    have hm : hexUnit (k ++ rest) = .ok m := hexUnit_eq_ok_iff.mpr ⟨k, rest, hk, rfl⟩
    -- No number is both halves of a pair.
    have hn' : isTrailing n = false := by
      simp only [isLeading, isTrailing, Bool.and_eq_true, decide_eq_true_eq] at hlead ⊢
      simp
      omega
    have hdrop : (h ++ (0x5C :: 0x75 :: (k ++ rest))).drop 4 = 0x5C :: 0x75 :: (k ++ rest) := by
      rw [← hh.length_eq, List.drop_left]
    simp [escaped, shortEscape?_u, hn, hm, hn', hlead, htrail, hdrop, hh.length_eq, hk.length_eq,
      bind, Except.bind, pure, Except.pure]

/-! ## Strings -/

theorem beq_quote_of_isPlain {b : UInt8} (hb : IsPlain b) : (b == 0x22) = false :=
  beq_eq_false_iff_ne.mpr hb.1

theorem beq_backslash_of_isPlain {b : UInt8} (hb : IsPlain b) : (b == 0x5C) = false :=
  beq_eq_false_iff_ne.mpr hb.2.1

/-- What is read up to the closing quote are characters, and the quote is left. -/
theorem characters_of_stringFrom {read m : Bytes} (h : stringFrom read input = .ok (m, rest)) :
    ∃ t c, Characters t c ∧ m = read.reverse ++ c ∧ input = t ++ rest ∧
      ∃ behind, rest = 0x22 :: behind := by
  induction read, input using stringFrom.induct with
  | case1 read => simp [stringFrom, fail] at h
  | case2 read b behind hb =>
    obtain rfl : b = 0x22 := by simpa using hb
    simp only [stringFrom, BEq.rfl, if_true, Except.ok.injEq, Prod.mk.injEq] at h
    obtain ⟨rfl, rfl⟩ := h
    exact ⟨[], [], .nil, by simp, rfl, behind, rfl⟩
  | case3 read b behind hb hs bytes count he ih =>
    obtain rfl : b = 0x5C := by simpa using hs
    rw [stringFrom] at h
    simp only [he] at h
    obtain ⟨t, c, ht, rfl, htail, hrest⟩ := ih h
    obtain ⟨e, rest', he', rfl, rfl⟩ := escapeText_of_escaped he
    rw [List.drop_left] at htail
    subst htail
    exact ⟨_, _, .escape he' ht, by simp, by simp, hrest⟩
  | case4 read b behind hb hs fault he =>
    rw [stringFrom] at h
    simp [hb, hs, he] at h
  | case5 read b behind hb hs hc =>
    rw [stringFrom] at h
    simp [hb, hs, hc, fail] at h
  | case6 read b behind hb hs hc ih =>
    rw [stringFrom] at h
    simp only [hb, hs, hc] at h
    obtain ⟨t, c, ht, rfl, rfl, hrest⟩ := ih h
    refine ⟨b :: t, b :: c, .plain ⟨?_, ?_, hc⟩ ht, by simp, rfl, hrest⟩
    · simpa using hb
    · simpa using hs

theorem stringFrom_append {read t c : Bytes} (ht : Characters t c) :
    stringFrom read (t ++ 0x22 :: rest) = .ok (read.reverse ++ c, 0x22 :: rest) := by
  induction ht generalizing read with
  | nil => simp [stringFrom]
  | @plain b t c hb _ ih =>
    rw [List.cons_append, stringFrom]
    simp [beq_quote_of_isPlain hb, beq_backslash_of_isPlain hb, hb.2.2, ih]
  | @escape e c' t c he _ ih =>
    rw [List.cons_append, stringFrom]
    simp [escaped_append he, ih]

theorem stringBody_eq_ok_iff {s : String} :
    stringBody input = .ok (s, rest) ↔
      ∃ t, Characters t (Utf8.ofString s) ∧ input = t ++ 0x22 :: rest := by
  unfold stringBody
  rw [bind_eq_ok_iff]
  constructor
  · rintro ⟨⟨m, rest'⟩, hm, h⟩
    obtain ⟨t, m, ht, rfl, rfl, behind, rfl⟩ := characters_of_stringFrom hm
    dsimp only at h
    cases hu : Utf8.toString? m with
    | error fault => simp [hu, fail] at h
    | ok s' =>
      simp only [hu, pure, Except.pure, Except.ok.injEq, Prod.mk.injEq, List.drop_succ_cons,
        List.drop_zero] at h
      obtain ⟨rfl, rfl⟩ := h
      rw [Utf8.toString?_eq_ok_iff.mp hu] at ht
      exact ⟨t, ht, rfl⟩
  · rintro ⟨t, ht, rfl⟩
    refine ⟨_, stringFrom_append ht, ?_⟩
    have hu : Utf8.toString? (Utf8.ofString s) = .ok s := Utf8.toString?_eq_ok_iff.mpr rfl
    simp [hu, pure, Except.pure]

/-! ## Strings that nobody reads -/

theorem looseText_of_skipString {fuel : Nat} (h : skipString fuel input = .ok rest) :
    ∃ t, LooseText t ∧ input = t ++ 0x22 :: rest := by
  induction fuel, input using skipString.induct with
  | case1 input => simp [skipString, fail] at h
  | case2 fuel => simp [skipString, fail] at h
  | case3 fuel b behind hb =>
    obtain rfl : b = 0x22 := by simpa using hb
    obtain rfl : behind = rest := by simpa [skipString] using h
    exact ⟨[], .nil, rfl⟩
  | case4 fuel b hb hs =>
    simp [skipString, hb, hs, fail] at h
  | case5 fuel b hb hs e behind he ih =>
    obtain rfl : b = 0x5C := by simpa using hs
    obtain ⟨t, ht, rfl⟩ := ih (by simpa [skipString, he] using h)
    exact ⟨_, .short he ht, rfl⟩
  | case6 fuel b hb hs e behind he hu ih =>
    obtain rfl : b = 0x5C := by simpa using hs
    obtain rfl : e = 0x75 := by simpa using hu
    simp only [skipString, he] at h
    obtain ⟨n, hn, h⟩ := bind_eq_ok_iff.mp h
    obtain ⟨t, ht, htail⟩ := ih h
    obtain ⟨u, rest', hu', rfl⟩ := hexUnit_eq_ok_iff.mp hn
    rw [← hu'.length_eq, List.drop_left] at htail
    exact ⟨_, .unit hu' ht, by simp [htail]⟩
  | case7 fuel b hb hs e behind he hu =>
    simp [skipString, hb, hs, he, hu, fail] at h
  | case8 fuel b behind hb hs hc =>
    simp [skipString, hb, hs, hc, fail] at h
  | case9 fuel b behind hb hs hc ih =>
    obtain ⟨t, ht, rfl⟩ := ih (by simpa [skipString, hb, hs, hc] using h)
    refine ⟨b :: t, .plain ⟨?_, ?_, hc⟩ ht, rfl⟩
    · simpa using hb
    · simpa using hs

theorem skipString_append {fuel : Nat} {t : Bytes} (ht : LooseText t) (hfuel : t.length < fuel) :
    skipString fuel (t ++ 0x22 :: rest) = .ok rest := by
  induction ht generalizing fuel with
  | nil =>
    cases fuel with
    | zero => cases hfuel
    | succ fuel => simp [skipString]
  | @plain b t hb _ ih =>
    cases fuel with
    | zero => cases hfuel
    | succ fuel =>
      have ih := ih (Nat.lt_of_succ_lt_succ hfuel)
      simp [skipString, beq_quote_of_isPlain hb, beq_backslash_of_isPlain hb, hb.2.2, ih]
  | @short e t he _ ih =>
    cases fuel with
    | zero => cases hfuel
    | succ fuel =>
      have ih := ih (Nat.lt_of_succ_lt (Nat.lt_of_succ_lt_succ hfuel))
      simp [skipString, he, ih]
  | @unit h t n hh _ ih =>
    cases fuel with
    | zero => cases hfuel
    | succ fuel =>
      have ih := ih (show t.length < fuel by
        simp only [List.length_cons, List.length_append] at hfuel
        omega)
      have hn : hexUnit (h ++ (t ++ 0x22 :: rest)) = .ok n :=
        hexUnit_eq_ok_iff.mpr ⟨h, _, hh, rfl⟩
      have hdrop : (h ++ (t ++ 0x22 :: rest)).drop 4 = t ++ 0x22 :: rest := by
        rw [← hh.length_eq, List.drop_left]
      simp [skipString, shortEscape?_u, hn, hdrop, bind, Except.bind, ih]

/-- A string is skipped up to and with its closing quote. -/
theorem skipString_eq_ok_iff :
    skipString (input.length + 1) input = .ok rest ↔
      ∃ t, LooseText t ∧ input = t ++ 0x22 :: rest := by
  constructor
  · exact looseText_of_skipString
  · rintro ⟨t, ht, rfl⟩
    exact skipString_append ht (by simp)

/-! ## Numbers -/

/-- Nothing that continues a number stands in front. -/
def Stops (rest : Bytes) : Prop :=
  ∀ b ∈ rest.head?, isDigit b = false ∧ b ≠ 0x2E ∧ b ≠ 0x65 ∧ b ≠ 0x45

theorem stops_cons {b : UInt8} (hb : isDigit b = false ∧ b ≠ 0x2E ∧ b ≠ 0x65 ∧ b ≠ 0x45) :
    Stops (b :: rest) := by
  rintro c hc
  obtain rfl := Option.some.inj hc
  exact hb

theorem Stops.blanks_append (h : Stops rest) (hw : Blanks w) : Stops (w ++ rest) := by
  cases w with
  | nil => exact h
  | cons b w =>
    have hb : isBlank b := hw b (by simp)
    simp only [isBlank, Bool.or_eq_true, beq_iff_eq] at hb
    rcases hb with ((rfl | rfl) | rfl) | rfl <;> exact stops_cons (by decide)

theorem exists_digits (input : Bytes) :
    ∃ t, (∀ b ∈ t, isDigit b) ∧ input = t ++ input.dropWhile isDigit :=
  ⟨input.takeWhile isDigit, fun _ => List.mem_takeWhile_imp, List.takeWhile_append_dropWhile.symm⟩

/-- Digits are dropped up to something that is none. -/
theorem dropWhile_isDigit_append {t : Bytes} (ht : ∀ b ∈ t, isDigit b)
    (hrest : ∀ b ∈ rest.head?, isDigit b = false) : (t ++ rest).dropWhile isDigit = rest := by
  rw [List.dropWhile_append_of_pos ht]
  cases rest with
  | nil => rfl
  | cons b rest => simp [hrest b rfl]

/-- Skips digits, of which there must be one. -/
def skipDigits : Bytes → Except Fault Bytes
  | [] => fail .invalidNumber []
  | b :: rest => if isDigit b then .ok (rest.dropWhile isDigit) else fail .invalidNumber rest

theorem skipDigits_eq_ok_iff :
    skipDigits input = .ok rest ↔
      ∃ b more, isDigit b ∧ input = b :: more ∧ more.dropWhile isDigit = rest := by
  cases input with
  | nil => simp [skipDigits, fail]
  | cons b more =>
    by_cases hb : isDigit b
    · simp [skipDigits, hb]
    · simp [skipDigits, hb, fail]

/-- An exponent is digits behind a sign or none. -/
theorem exists_skipDigits (input : Bytes) : ∃ sign digits, sign ∈ [[], [0x2B], [0x2D]] ∧
    input = sign ++ digits ∧ skipExponent input = skipDigits digits := by
  unfold skipExponent
  split
  next digits => exact ⟨[0x2B], digits, by simp, rfl, by cases digits <;> rfl⟩
  next digits => exact ⟨[0x2D], digits, by simp, rfl, by cases digits <;> rfl⟩
  next => exact ⟨[], input, by simp, rfl, by cases input <;> rfl⟩

theorem skipExponent_append {sign digits : Bytes} {b : UInt8} (hsign : sign ∈ [[], [0x2B], [0x2D]])
    (hb : isDigit b) : skipExponent (sign ++ b :: digits) = skipDigits (b :: digits) := by
  simp only [List.mem_cons, List.not_mem_nil, or_false] at hsign
  rcases hsign with rfl | rfl | rfl
  · show skipExponent (b :: digits) = skipDigits (b :: digits)
    unfold skipExponent
    split
    next h =>
      obtain rfl := (List.cons.inj h).1
      cases hb
    next h =>
      obtain rfl := (List.cons.inj h).1
      cases hb
    next => rfl
  · rfl
  · rfl

theorem exponentText_of_skipAfterDigits (h : skipAfterDigits input = .ok rest) :
    ∃ x, ExponentText x ∧ input = x ++ rest := by
  have of_skipExponent : ∀ {e : UInt8} {behind : Bytes}, e = 0x65 ∨ e = 0x45 →
      skipExponent behind = .ok rest → ∃ x, ExponentText x ∧ e :: behind = x ++ rest := by
    intro e behind he h
    obtain ⟨sign, digits, hsign, rfl, heq⟩ := exists_skipDigits behind
    obtain ⟨b, more, hb, rfl, hmore⟩ := skipDigits_eq_ok_iff.mp (heq ▸ h)
    obtain ⟨t, ht, hbehind⟩ := exists_digits more
    refine ⟨_, .some (t := b :: t) he hsign ⟨by simp, by simpa [hb] using ht⟩, ?_⟩
    rw [hbehind, hmore]
    simp
  unfold skipAfterDigits at h
  split at h
  · exact of_skipExponent (.inl rfl) h
  · exact of_skipExponent (.inr rfl) h
  · exact ⟨[], .none, Except.ok.inj h⟩

theorem skipAfterDigits_append {x : Bytes} (hx : ExponentText x) (hrest : Stops rest) :
    skipAfterDigits (x ++ rest) = .ok rest := by
  cases hx with
  | none =>
    rw [List.nil_append]
    unfold skipAfterDigits
    split
    next => exact absurd rfl (hrest _ rfl).2.2.1
    next => exact absurd rfl (hrest _ rfl).2.2.2
    next => rfl
  | @some e sign t he hsign ht =>
    cases t with
    | nil => exact absurd rfl ht.1
    | cons b t =>
      have hb : isDigit b := ht.2 b (by simp)
      have hskip : skipExponent (sign ++ b :: (t ++ rest)) = .ok rest := by
        rw [skipExponent_append hsign hb, skipDigits_eq_ok_iff]
        refine ⟨b, _, hb, rfl, dropWhile_isDigit_append ?_ fun c hc => (hrest c hc).1⟩
        exact fun c hc => ht.2 c (List.mem_cons_of_mem b hc)
      have hinput : e :: (sign ++ b :: t) ++ rest = e :: (sign ++ b :: (t ++ rest)) := by simp
      rw [hinput]
      rcases he with rfl | rfl
      · exact hskip
      · exact hskip

theorem fractionText_of_skipAfterInteger (h : skipAfterInteger input = .ok rest) :
    ∃ f x, FractionText f ∧ ExponentText x ∧ input = f ++ (x ++ rest) := by
  unfold skipAfterInteger at h
  split at h
  next b behind =>
    split_ifs at h with hb
    · obtain ⟨x, hx, hbehind⟩ := exponentText_of_skipAfterDigits h
      obtain ⟨t, ht, heq⟩ := exists_digits behind
      refine ⟨_, x, .some (t := b :: t) ⟨by simp, by simpa [hb] using ht⟩, hx, ?_⟩
      rw [heq, hbehind]
      simp
    · cases h
  next => cases h
  next =>
    obtain ⟨x, hx, rfl⟩ := exponentText_of_skipAfterDigits h
    exact ⟨[], x, .none, hx, rfl⟩

/-- An exponent, or what follows it, does not begin with a digit or a point. -/
theorem head?_exponent {x : Bytes} (hx : ExponentText x) (hrest : Stops rest) :
    ∀ b ∈ (x ++ rest).head?, isDigit b = false ∧ b ≠ 0x2E := by
  cases hx with
  | none => exact fun b hb => ⟨(hrest b hb).1, (hrest b hb).2.1⟩
  | some he _ _ =>
    intro b hb
    obtain rfl := Option.some.inj hb
    rcases he with rfl | rfl
    · decide
    · decide

/-- A fraction is told from what follows by its point, and its digits end where the exponent
begins. -/
theorem skipAfterInteger_append {f x : Bytes} (hf : FractionText f) (hx : ExponentText x)
    (hrest : Stops rest) : skipAfterInteger (f ++ (x ++ rest)) = .ok rest := by
  cases hf with
  | none =>
    have hx' := skipAfterDigits_append hx hrest
    have hhead := head?_exponent hx hrest
    rw [List.nil_append]
    generalize x ++ rest = input at hx' hhead
    unfold skipAfterInteger
    split
    next => exact absurd rfl (hhead _ rfl).2
    next => exact absurd rfl (hhead _ rfl).2
    next => exact hx'
  | @some t ht =>
    cases t with
    | nil => exact absurd rfl ht.1
    | cons b t =>
      have hdrop : (t ++ (x ++ rest)).dropWhile isDigit = x ++ rest :=
        dropWhile_isDigit_append (fun c hc => ht.2 c (List.mem_cons_of_mem b hc))
          fun c hc => (head?_exponent hx hrest c hc).1
      show (if isDigit b then skipAfterDigits ((t ++ (x ++ rest)).dropWhile isDigit)
        else fail .invalidNumber (t ++ (x ++ rest))) = .ok rest
      rw [if_pos (ht.2 b (by simp)), hdrop, skipAfterDigits_append hx hrest]

/-- A fraction, an exponent, or what follows them, does not begin with a digit. -/
theorem head?_fraction {f x : Bytes} (hf : FractionText f) (hx : ExponentText x)
    (hrest : Stops rest) : ∀ b ∈ (f ++ (x ++ rest)).head?, isDigit b = false := by
  cases hf with
  | none => exact fun b hb => (head?_exponent hx hrest b hb).1
  | some _ =>
    intro b hb
    obtain rfl := Option.some.inj hb
    decide

/-- What is skipped behind a sign are the other parts of a number. -/
theorem numberText_of_skipNumber (h : skipNumber input = .ok rest) :
    ∃ i f x, IntegerText i ∧ FractionText f ∧ ExponentText x ∧ input = i ++ (f ++ (x ++ rest)) := by
  unfold skipNumber at h
  split at h
  next => cases h
  next b behind =>
    split_ifs at h with hzero hb
    · obtain rfl : b = 0x30 := by simpa using hzero
      split at h
      next d more =>
        split_ifs at h with hd
        · cases h
        · obtain ⟨f, x, hf, hx, heq⟩ := fractionText_of_skipAfterInteger h
          exact ⟨_, f, x, .zero, hf, hx, by simp [heq]⟩
      next =>
        obtain rfl := Except.ok.inj h
        exact ⟨_, [], [], .zero, .none, .none, rfl⟩
    · obtain ⟨f, x, hf, hx, hbehind⟩ := fractionText_of_skipAfterInteger h
      obtain ⟨t, ht, heq⟩ := exists_digits behind
      refine ⟨_, f, x, .digits hb (by simpa using hzero) ht, hf, hx, ?_⟩
      rw [heq, hbehind]
      simp
    · cases h

theorem skipNumber_append {i f x : Bytes} (hi : IntegerText i) (hf : FractionText f)
    (hx : ExponentText x) (hrest : Stops rest) :
    skipNumber (i ++ (f ++ (x ++ rest))) = .ok rest := by
  have hafter := skipAfterInteger_append hf hx hrest
  have hhead := head?_fraction hf hx hrest
  generalize f ++ (x ++ rest) = input at hafter hhead
  cases hi with
  | zero =>
    cases input with
    | nil =>
      obtain rfl := Except.ok.inj hafter
      rfl
    | cons d more => simp [skipNumber, hhead d rfl, hafter]
  | @digits b t hb hzero ht =>
    simp [skipNumber, hb, hzero, dropWhile_isDigit_append ht hhead, hafter]

end SyntaxGateway.Json
