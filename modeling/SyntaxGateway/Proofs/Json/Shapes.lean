import Mathlib
import SyntaxGateway.Proofs.Json.Skipping

/-!
# Values of a known shape are read as they are spelt

A reader of a value agrees with the texts of that value if it succeeds exactly in front of blanks and
one of the texts, and leaves what stands behind it (`Reads`). The readers that are put together from
others agree with the texts that are put together in the same way: `Reads.nullable`, `Reads.list` and
`reads_variant`. What two items have between them is the same in arrays and in objects (`Lead`).
-/

namespace SyntaxGateway.Json

variable {α β : Type} {input rest w t u : Bytes}

/-! ## Readers and texts -/

/-- A reader takes the texts of a kind, with blanks in front of them, and nothing else. -/
structure Reads (p : Scan α) (text : Bytes → α → Prop) : Prop where
  starts : ∀ {t : Bytes} {a : α}, text t a → Starts t
  sound : ∀ {input rest : Bytes} {a : α}, p input = .ok (a, rest) →
    ∃ w t, Blanks w ∧ text t a ∧ input = w ++ (t ++ rest)
  complete : ∀ {w t rest : Bytes} {a : α}, Blanks w → text t a →
    p (w ++ (t ++ rest)) = .ok (a, rest)

theorem skipBlanks_append_starts (hw : Blanks w) (ht : Starts t) :
    skipBlanks (w ++ (t ++ rest)) = t ++ rest := by
  obtain ⟨b, t, rfl, hb, -⟩ := ht
  exact skipBlanks_append_cons hw hb

theorem Starts.length_pos (ht : Starts t) : 0 < t.length := by
  obtain ⟨b, t, rfl, -⟩ := ht
  exact Nat.succ_pos _

/-- Whatever is found, it is not what was expected. -/
theorem wrongType_ne_ok {expected : String} {r : α × Bytes} :
    wrongType expected input ≠ .ok r := by
  intro h
  unfold wrongType at h
  split at h
  next => cases h
  next =>
    obtain ⟨_, -, h⟩ := bind_eq_ok_iff.mp h
    cases h

/-! ## Strings and what may be null -/

theorem StringText.starts {s : String} (h : StringText t s) : Starts t := by
  cases h
  exact starts_quote

theorem stringBody_append {s : String} (h : StringText t s) (rest : Bytes) :
    ∃ c, t ++ rest = 0x22 :: c ∧ stringBody c = .ok (s, rest) := by
  cases h with
  | @mk t _ ht => exact ⟨t ++ 0x22 :: rest, by simp, stringBody_eq_ok_iff.mpr ⟨t, ht, rfl⟩⟩

theorem stringText_of_stringBody {s : String} (h : stringBody input = .ok (s, rest)) :
    ∃ t, StringText t s ∧ 0x22 :: input = t ++ rest := by
  obtain ⟨c, hc, rfl⟩ := stringBody_eq_ok_iff.mp h
  exact ⟨_, .mk hc, by simp⟩

theorem reads_string : Reads string StringText where
  starts := StringText.starts
  sound := by
    intro input rest s h
    unfold string at h
    split at h
    next behind hb =>
      obtain ⟨w, hw, rfl⟩ := skipBlanks_of_cons hb
      obtain ⟨t, ht, heq⟩ := stringText_of_stringBody h
      exact ⟨w, t, hw, ht, by rw [heq]⟩
    next => exact absurd h wrongType_ne_ok
  complete := by
    intro w t rest s hw ht
    obtain ⟨c, hc, hs⟩ := stringBody_append ht rest
    rw [hc, string, skipBlanks_append_cons hw rfl]
    exact hs

theorem Reads.nullable {p : Scan α} {text : Bytes → α → Prop} (h : Reads p text)
    (hnull : ∀ {t a}, text t a → t.head? ≠ some 0x6E) :
    Reads (nullable p) (NullableText text) where
  starts := by
    rintro t a (_ | ht)
    · exact ⟨_, _, rfl, rfl, by rintro (_ | _) <;> decide⟩
    · exact h.starts ht
  sound := by
    intro input rest a hok
    unfold Json.nullable at hok
    split at hok
    next behind hb =>
      obtain ⟨w, hw, rfl⟩ := skipBlanks_of_cons hb
      obtain ⟨rest', hident, hok⟩ := bind_eq_ok_iff.mp hok
      obtain ⟨rfl, rfl⟩ := Prod.mk.inj (Except.ok.inj hok)
      rw [ident_eq_ok_iff.mp hident]
      exact ⟨w, _, hw, .null, rfl⟩
    next =>
      obtain ⟨⟨a', rest'⟩, hvalue, hok⟩ := bind_eq_ok_iff.mp hok
      obtain ⟨rfl, rfl⟩ := Prod.mk.inj (Except.ok.inj hok)
      obtain ⟨w, t, hw, ht, heq⟩ := h.sound hvalue
      obtain ⟨v, hv, hinput⟩ := exists_blanks input
      rw [heq] at hinput
      exact ⟨v ++ w, t, hv.append hw, .some ht, by rw [hinput, List.append_assoc]⟩
  complete := by
    rintro w t rest a hw (_ | @⟨_, a, ht⟩)
    · have hident : ident ull (ull ++ rest) = .ok rest := ident_eq_ok_iff.mpr rfl
      rw [Json.nullable, List.cons_append, skipBlanks_append_cons hw rfl]
      simp only [hident]
      rfl
    · have hvalue : p (t ++ rest) = .ok (a, rest) := h.complete blanks_nil ht
      rw [Json.nullable, skipBlanks_append_starts hw (h.starts ht)]
      split
      next behind hb =>
        obtain ⟨b, t, rfl, -⟩ := h.starts ht
        exact absurd (congrArg some (List.cons.inj hb).1) (hnull ht)
      next => simp only [hvalue, bind, Except.bind, pure, Except.pure]

/-! ## Items -/

theorem Lead.blanks_append {first : Bool} (hu : Lead first u) (hw : Blanks w) :
    Lead first (u ++ w) := by
  cases hu with
  | first hu => exact .first (hu.append hw)
  | later hu hv =>
    rw [List.append_assoc, List.cons_append]
    exact .later hu (hv.append hw)

/-- An array ends, or another element follows behind what leads to it. -/
theorem nextElement_sound {first : Bool} {next : Option Bytes}
    (h : nextElement first input = .ok (next, rest)) :
    (∃ w behind, Blanks w ∧ next = none ∧ rest = 0x5D :: behind ∧ input = w ++ rest) ∨
      ∃ u element, Lead first u ∧ next = some element ∧ input = u ++ element := by
  unfold nextElement at h
  split at h
  next => cases h
  next behind hb =>
    obtain ⟨w, hw, rfl⟩ := skipBlanks_of_cons hb
    obtain ⟨rfl, rfl⟩ := Prod.mk.inj (Except.ok.inj h)
    exact .inl ⟨w, behind, hw, rfl, rfl, rfl⟩
  next b behind _ hb =>
    obtain ⟨w, hw, rfl⟩ := skipBlanks_of_cons hb
    split_ifs at h with hfirst hcomma
    · subst hfirst
      obtain ⟨rfl, -⟩ := Prod.mk.inj (Except.ok.inj h)
      exact .inr ⟨w, _, .first hw, rfl, rfl⟩
    · obtain rfl := beq_iff_eq.mp hcomma
      obtain rfl : first = false := by simpa using hfirst
      split at h
      next => cases h
      next => cases h
      next =>
        obtain ⟨rfl, -⟩ := Prod.mk.inj (Except.ok.inj h)
        obtain ⟨v, hv, heq⟩ := exists_blanks behind
        refine .inr ⟨_, _, .later hw hv, rfl, ?_⟩
        rw [List.append_assoc, List.cons_append, ← heq]
    · cases h

theorem nextElement_close {first : Bool} (hw : Blanks w) :
    nextElement first (w ++ 0x5D :: rest) = .ok (none, 0x5D :: rest) := by
  rw [nextElement, skipBlanks_append_cons hw rfl]
  rfl

theorem nextElement_lead {first : Bool} (hu : Lead first u) (ht : Starts t) :
    nextElement first (u ++ (t ++ rest)) = .ok (some (t ++ rest), []) := by
  obtain ⟨b, t, rfl, hb, hc⟩ := ht
  cases hu with
  | first hu =>
    rw [nextElement, List.cons_append, skipBlanks_append_cons hu hb]
    split
    next h => cases h
    next h => exact absurd (List.cons.inj h).1 (hc .array)
    next h => rw [if_pos rfl, ← h]
  | later hv hw =>
    rw [nextElement, List.append_assoc, List.cons_append, skipBlanks_append_cons hv rfl]
    split
    next h => cases h
    next h => simp at h
    next h =>
      obtain ⟨rfl, rfl⟩ := List.cons.inj h
      rw [if_neg Bool.false_ne_true, if_pos BEq.rfl, List.cons_append, skipBlanks_append_cons hw hb]
      split
      next h' => cases h'
      next h' => exact absurd (List.cons.inj h').1 (hc .array)
      next => rfl

/-- Elements that are read are items up to the closing bracket. -/
theorem elementsFrom_sound {p : Scan α} {text : Bytes → α → Prop} (h : Reads p text) {fuel : Nat}
    {before all : List α} (hok : elementsFrom p fuel before input = .ok (all, rest)) :
    ∃ t as, Items text before.isEmpty t as ∧ all = before.reverse ++ as ∧
      input = t ++ 0x5D :: rest := by
  induction fuel generalizing before input with
  | zero => cases hok
  | succ fuel ih =>
    rw [elementsFrom] at hok
    obtain ⟨⟨next, behind⟩, hnext, hrest⟩ := bind_eq_ok_iff.mp hok
    obtain ⟨w, more, hw, rfl, rfl, rfl⟩ | ⟨u, element, hu, rfl, rfl⟩ := nextElement_sound hnext
    · obtain ⟨rfl, rfl⟩ := Prod.mk.inj (Except.ok.inj hrest)
      exact ⟨w, [], .nil hw, by simp, by simp⟩
    · obtain ⟨⟨a, more⟩, hitem, hmore⟩ := bind_eq_ok_iff.mp hrest
      obtain ⟨t, as, ht, rfl, rfl⟩ := ih hmore
      obtain ⟨w, s, hw, hs, rfl⟩ := h.sound hitem
      exact ⟨_, _, .cons (hu.blanks_append hw) hs ht, by simp, by simp⟩

/-- Items are read up to the closing bracket. -/
theorem elementsFrom_append {p : Scan α} {text : Bytes → α → Prop} (h : Reads p text) {fuel : Nat}
    {first : Bool} {before as : List α} (hitems : Items text first t as)
    (hfirst : first = before.isEmpty) (hfuel : t.length < fuel) :
    elementsFrom p fuel before (t ++ 0x5D :: rest) = .ok (before.reverse ++ as, rest) := by
  induction hitems generalizing fuel before with
  | nil hw =>
    cases fuel with
    | zero => cases hfuel
    | succ fuel => simp [elementsFrom, nextElement_close hw, bind, Except.bind, pure, Except.pure]
  | @cons first u s more a as hu hs _ ih =>
    cases fuel with
    | zero => cases hfuel
    | succ fuel =>
      have hpos := (h.starts hs).length_pos
      simp only [List.length_append] at hfuel
      have hnext : nextElement before.isEmpty (u ++ (s ++ (more ++ 0x5D :: rest))) =
          .ok (some (s ++ (more ++ 0x5D :: rest)), []) := by
        rw [← hfirst]
        exact nextElement_lead hu (h.starts hs)
      have hitem : p (s ++ (more ++ 0x5D :: rest)) = .ok (a, more ++ 0x5D :: rest) :=
        h.complete blanks_nil hs
      have hmore := @ih fuel (a :: before) rfl (by omega)
      simp only [List.append_assoc, elementsFrom, hnext, hitem, bind, Except.bind, hmore]
      simp

theorem Frame.enclosed_append (frame : Frame) : frame.opening :: (t ++ [frame.close]) ++ rest =
    frame.opening :: (t ++ frame.close :: rest) := by
  simp

theorem Enclosed.starts {frame : Frame} {text : Bytes → α → Prop} {as : List α}
    (h : Enclosed frame text t as) : Starts t := by
  cases h
  exact starts_opening frame

theorem Reads.list {p : Scan α} {text : Bytes → α → Prop} (h : Reads p text) (depth : Nat) :
    Reads (list (depth + 1) p) (Enclosed .array text) where
  starts := Enclosed.starts
  sound := by
    intro input rest as hok
    unfold Json.list at hok
    split at hok
    next behind hb =>
      obtain ⟨w, hw, rfl⟩ := skipBlanks_of_cons hb
      obtain ⟨t, as', ht, rfl, heq⟩ := elementsFrom_sound h hok
      refine ⟨w, _, hw, .mk ht, ?_⟩
      rw [Frame.enclosed_append, show behind = t ++ 0x5D :: rest from heq]
      rfl
    next => exact absurd hok wrongType_ne_ok
  complete := by
    rintro w _ rest as hw @⟨t, _, ht⟩
    have hitems : elementsFrom p ((t ++ 0x5D :: rest).length + 1) [] (t ++ 0x5D :: rest) =
        .ok ([].reverse ++ as, rest) :=
      elementsFrom_append h ht rfl (by
        rw [List.length_append]
        omega)
    rw [Frame.enclosed_append, Json.list, skipBlanks_append_cons hw rfl]
    exact hitems

/-! ## Members -/

theorem colon_eq_ok_iff : colon input = .ok rest ↔ ∃ w, Blanks w ∧ input = w ++ 0x3A :: rest := by
  constructor
  · intro h
    unfold colon at h
    split at h
    next => cases h
    next behind hb =>
      obtain ⟨w, hw, rfl⟩ := skipBlanks_of_cons hb
      exact ⟨w, hw, by rw [Except.ok.inj h]⟩
    next => cases h
  · rintro ⟨w, hw, rfl⟩
    rw [colon, skipBlanks_append_cons hw rfl]
    rfl

theorem reads_unit : Reads unit (fun t _ => t = 0x6E :: ull) where
  starts := by
    rintro t _ rfl
    exact ⟨_, _, rfl, rfl, by rintro (_ | _) <;> decide⟩
  sound := by
    intro input rest _ h
    unfold unit at h
    split at h
    next behind hb =>
      obtain ⟨w, hw, rfl⟩ := skipBlanks_of_cons hb
      obtain ⟨rest', hident, hrest⟩ := bind_eq_ok_iff.mp h
      obtain ⟨-, rfl⟩ := Prod.mk.inj (Except.ok.inj hrest)
      rw [ident_eq_ok_iff.mp hident]
      exact ⟨w, _, hw, rfl, rfl⟩
    next => exact absurd h wrongType_ne_ok
  complete := by
    rintro w t rest _ hw rfl
    have hident : ident ull (ull ++ rest) = .ok rest := ident_eq_ok_iff.mpr rfl
    rw [unit, List.cons_append, skipBlanks_append_cons hw rfl]
    simp only [hident]
    rfl

/-! ## Variants -/

theorem caseName_eq_ok_iff {cases : List (String × α)} {a : α} :
    caseName cases input = .ok (a, rest) ↔
      ∃ name, stringBody input = .ok (name, rest) ∧ cases.lookup name = some a := by
  unfold caseName
  rw [bind_eq_ok_iff]
  constructor
  · rintro ⟨⟨name, rest'⟩, hname, h⟩
    dsimp only at h
    split at h
    next a' ha =>
      obtain ⟨rfl, rfl⟩ := Prod.mk.inj (Except.ok.inj h)
      exact ⟨name, hname, ha⟩
    next => cases h
  · rintro ⟨name, hname, ha⟩
    refine ⟨_, hname, ?_⟩
    simp [ha, pure, Except.pure]

theorem reads_variant (depth : Nat) (cases : List (String × α)) :
    Reads (variant (depth + 1) cases) (VariantText cases) where
  starts := by
    rintro t a (⟨ht, -⟩ | _)
    · exact ht.starts
    · exact starts_opening .object
  sound := by
    intro input rest a h
    unfold variant at h
    split at h
    next => cases h
    next behind hb =>
      obtain ⟨w, hw, rfl⟩ := skipBlanks_of_cons hb
      obtain ⟨name, hname, ha⟩ := caseName_eq_ok_iff.mp h
      obtain ⟨t, ht, heq⟩ := stringText_of_stringBody hname
      exact ⟨w, t, hw, .name ht ha, by rw [heq]⟩
    next behind hb =>
      obtain ⟨w, hw, rfl⟩ := skipBlanks_of_cons hb
      obtain ⟨inner, henter, hinner⟩ := bind_eq_ok_iff.mp h
      obtain rfl := Except.ok.inj henter
      split at hinner
      next key hkey =>
        obtain ⟨u, hu, rfl⟩ := skipBlanks_of_cons hkey
        obtain ⟨⟨a', rest₁⟩, hcase, hcolon⟩ := bind_eq_ok_iff.mp hinner
        obtain ⟨rest₂, hcol, hunit⟩ := bind_eq_ok_iff.mp hcolon
        obtain ⟨⟨_, rest₃⟩, hnull, hend⟩ := bind_eq_ok_iff.mp hunit
        obtain ⟨name, hname, ha⟩ := caseName_eq_ok_iff.mp hcase
        obtain ⟨t, ht, heq⟩ := stringText_of_stringBody hname
        obtain ⟨v, hv, rfl⟩ := colon_eq_ok_iff.mp hcol
        obtain ⟨w', _, hw', rfl, rfl⟩ := reads_unit.sound hnull
        dsimp only at hend
        split at hend
        next hclose =>
          obtain ⟨x, hx, rfl⟩ := skipBlanks_of_cons hclose
          obtain ⟨rfl, rfl⟩ := Prod.mk.inj (Except.ok.inj hend)
          exact ⟨w, _, hw, .object hu ht ha hv hw' hx, by simp [heq]⟩
        next => cases hend
        next => cases hend
      next => exact absurd hinner wrongType_ne_ok
    next => cases h
  complete := by
    rintro w t rest a hw (@⟨_, name, _, ht, ha⟩ | @⟨t, u, v, w', x, name, _, hu, ht, ha, hv, hw', hx⟩)
    · obtain ⟨c, hc, hs⟩ := stringBody_append ht rest
      rw [hc, variant, skipBlanks_append_cons hw rfl]
      exact caseName_eq_ok_iff.mpr ⟨name, hs, ha⟩
    · have hclose : skipBlanks (x ++ 0x7D :: rest) = 0x7D :: rest := skipBlanks_append_cons hx rfl
      have hnull : unit (w' ++ (0x6E :: ull ++ (x ++ 0x7D :: rest))) = .ok ((), x ++ 0x7D :: rest) :=
        reads_unit.complete hw' rfl
      have hcolon : colon (v ++ 0x3A :: (w' ++ (0x6E :: ull ++ (x ++ 0x7D :: rest)))) =
          .ok (w' ++ (0x6E :: ull ++ (x ++ 0x7D :: rest))) := colon_eq_ok_iff.mpr ⟨v, hv, rfl⟩
      obtain ⟨c, hc, hs⟩ :=
        stringBody_append ht (v ++ 0x3A :: (w' ++ (0x6E :: ull ++ (x ++ 0x7D :: rest))))
      have hcase := caseName_eq_ok_iff.mpr ⟨name, hs, ha⟩
      have hkey : skipBlanks (u ++ 0x22 :: c) = 0x22 :: c := skipBlanks_append_cons hu rfl
      have henter : enter (depth + 1) (0x7B :: (u ++ 0x22 :: c)) = .ok (u ++ 0x22 :: c) := rfl
      rw [show 0x7B :: (u ++ (t ++ (v ++ 0x3A :: (w' ++ (0x6E :: ull ++ (x ++ [0x7D])))))) ++ rest =
        0x7B :: (u ++ 0x22 :: c) by rw [← hc]; simp, variant, skipBlanks_append_cons hw rfl]
      simp only [henter, bind, Except.bind, hkey, hcase, hcolon, hnull, hclose]
      rfl

end SyntaxGateway.Json
