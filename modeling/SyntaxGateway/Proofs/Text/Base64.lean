import Mathlib
import SyntaxGateway.Base64
import SyntaxGateway.Proofs.Outcome
import SyntaxGateway.Text.Blank

/-!
# Base64 as digits

Four symbols write the same number as three bytes, the symbols with base 64 and the bytes with base
256. One or two bytes at the end take two or three symbols, which leave room for bits that must be
zero, and padding up to four (`Spells`).

**Theorem (`decode_eq_ok_iff`).** Decoding accepts exactly the texts that spell bytes, each as the
bytes that it spells.

**Theorem (`spells_encode`).** What is written for bytes spells them.

Reading takes four symbols at a time as long as a fifth is there. What is left has the bytes of one
quad, which `readTail` cuts into symbols and padding (`symbols_of_readTail`, `padding_of_readTail`).
-/

namespace SyntaxGateway.Base64

variable {text bytes : Bytes} {offset index : Nat}

/-- A text writes these bytes. -/
inductive Spells : (text bytes : Bytes) → Prop
  | nil : Spells [] []
  | one {s₀ s₁ a : UInt8} {v₀ v₁ : Nat} : value? s₀ = some v₀ → value? s₁ = some v₁ →
      v₀ * 64 + v₁ = a.toNat * 16 → Spells [s₀, s₁, pad, pad] [a]
  | two {s₀ s₁ s₂ a b : UInt8} {v₀ v₁ v₂ : Nat} : value? s₀ = some v₀ → value? s₁ = some v₁ →
      value? s₂ = some v₂ → (v₀ * 64 + v₁) * 64 + v₂ = (a.toNat * 256 + b.toNat) * 4 →
      Spells [s₀, s₁, s₂, pad] [a, b]
  | three {s₀ s₁ s₂ s₃ a b c : UInt8} {v₀ v₁ v₂ v₃ : Nat} {text bytes : Bytes} :
      value? s₀ = some v₀ → value? s₁ = some v₁ → value? s₂ = some v₂ → value? s₃ = some v₃ →
      ((v₀ * 64 + v₁) * 64 + v₂) * 64 + v₃ = (a.toNat * 256 + b.toNat) * 256 + c.toNat →
      Spells text bytes → Spells (s₀ :: s₁ :: s₂ :: s₃ :: text) (a :: b :: c :: bytes)

/-! ## Symbols -/

theorem symbol_spec : ∀ n < 64, String.utf8EncodeChar (symbol n) = [(symbol n).toNat.toUInt8] ∧
    value? (symbol n).toNat.toUInt8 = some n ∧ Text.isBlank (symbol n) = false := by
  decide +kernel

/-- A six-bit value has a symbol of one byte, from which it is read again. -/
theorem exists_symbol {n : Nat} (h : n < 64) :
    ∃ s, String.utf8EncodeChar (symbol n) = [s] ∧ value? s = some n :=
  ⟨_, (symbol_spec n h).1, (symbol_spec n h).2.1⟩

theorem isBlank_symbol {n : Nat} (h : n < 64) : Text.isBlank (symbol n) = false :=
  (symbol_spec n h).2.2

theorem value?_lt {s : UInt8} {v : Nat} (h : value? s = some v) : v < 64 := by
  simp only [value?, Bool.and_eq_true, decide_eq_true_eq, beq_iff_eq] at h
  split_ifs at h <;> simp only [Option.some.injEq] at h <;> omega

theorem beq_pad_of_value? {s : UInt8} {v : Nat} (h : value? s = some v) : (s == pad) = false := by
  rw [beq_eq_false_iff_ne]
  rintro rfl
  cases h

/-! ## Writing -/

theorem encode_pad : String.utf8EncodeChar '=' = [pad] := rfl

/-- Text that is written after `out` spells the bytes, and has no blanks in it. -/
theorem exists_encodeOnto (out : List Char) (bytes : Bytes) :
    ∃ cs, encodeOnto out bytes = out.reverse ++ cs ∧ Spells (Utf8.encode cs) bytes ∧
      ∀ c ∈ cs, Text.isBlank c = false := by
  fun_induction encodeOnto out bytes with
  | case1 out => exact ⟨[], by simp, .nil, by simp⟩
  | case2 out a n =>
    have ha := a.toNat_lt
    have h₀ : n / 4 < 64 := by omega
    have h₁ : n % 4 * 16 < 64 := by omega
    obtain ⟨s₀, hs₀, hv₀⟩ := exists_symbol h₀
    obtain ⟨s₁, hs₁, hv₁⟩ := exists_symbol h₁
    refine ⟨[symbol (n / 4), symbol (n % 4 * 16), '=', '='], by simp, ?_, ?_⟩
    · simp only [Utf8.encode, List.flatMap_cons, List.flatMap_nil, hs₀, hs₁, encode_pad]
      exact .one hv₀ hv₁ (by omega)
    · simp [isBlank_symbol h₀, isBlank_symbol h₁]
      decide
  | case3 out a b n =>
    have ha := a.toNat_lt
    have hb := b.toNat_lt
    have h₀ : n / 1024 < 64 := by omega
    have h₁ : n / 16 % 64 < 64 := by omega
    have h₂ : n % 16 * 4 < 64 := by omega
    obtain ⟨s₀, hs₀, hv₀⟩ := exists_symbol h₀
    obtain ⟨s₁, hs₁, hv₁⟩ := exists_symbol h₁
    obtain ⟨s₂, hs₂, hv₂⟩ := exists_symbol h₂
    refine ⟨[symbol (n / 1024), symbol (n / 16 % 64), symbol (n % 16 * 4), '='], by simp, ?_, ?_⟩
    · simp only [Utf8.encode, List.flatMap_cons, List.flatMap_nil, hs₀, hs₁, hs₂, encode_pad]
      exact .two hv₀ hv₁ hv₂ (by omega)
    · simp [isBlank_symbol h₀, isBlank_symbol h₁, isBlank_symbol h₂]
      decide
  | case4 out a b c rest n ih =>
    have ha := a.toNat_lt
    have hb := b.toNat_lt
    have hc := c.toNat_lt
    have h₀ : n / 262144 < 64 := by omega
    have h₁ : n / 4096 % 64 < 64 := by omega
    have h₂ : n / 64 % 64 < 64 := by omega
    have h₃ : n % 64 < 64 := by omega
    obtain ⟨s₀, hs₀, hv₀⟩ := exists_symbol h₀
    obtain ⟨s₁, hs₁, hv₁⟩ := exists_symbol h₁
    obtain ⟨s₂, hs₂, hv₂⟩ := exists_symbol h₂
    obtain ⟨s₃, hs₃, hv₃⟩ := exists_symbol h₃
    obtain ⟨cs, heq, hspells, hsolid⟩ := ih
    refine ⟨symbol (n / 262144) :: symbol (n / 4096 % 64) :: symbol (n / 64 % 64) ::
      symbol (n % 64) :: cs, by simp [heq], ?_, ?_⟩
    · simp only [Utf8.encode, List.flatMap_cons, hs₀, hs₁, hs₂, hs₃]
      exact .three hv₀ hv₁ hv₂ hv₃ (by omega) hspells
    · simpa [isBlank_symbol h₀, isBlank_symbol h₁, isBlank_symbol h₂, isBlank_symbol h₃]

theorem spells_encode (bytes : Bytes) : Spells (Utf8.ofString (encode bytes)) bytes := by
  obtain ⟨cs, heq, hspells, -⟩ := exists_encodeOnto [] bytes
  rw [encode, Utf8.ofString, String.toList_ofList, heq]
  exact hspells

theorem isBlank_of_mem_encode {c : Char} (h : c ∈ (encode bytes).toList) :
    Text.isBlank c = false := by
  obtain ⟨cs, heq, -, hsolid⟩ := exists_encodeOnto [] bytes
  rw [encode, String.toList_ofList, heq] at h
  exact hsolid c h

/-! ## The last quad -/

theorem padding_of_readTail {start : Nat} {t : Tail}
    (h : readTail offset index (some start) text = .ok t) :
    t.symbols = [] ∧ text = List.replicate t.padding pad := by
  induction text generalizing offset index start t with
  | nil =>
    cases h
    exact ⟨rfl, rfl⟩
  | cons b rest ih =>
    rw [readTail] at h
    split_ifs at h with hb hindex
    obtain ⟨t, hrest, rfl⟩ := map_eq_ok_iff.1 h
    obtain ⟨hsymbols, rfl⟩ := ih hrest
    rw [beq_iff_eq] at hb
    exact ⟨hsymbols, by rw [hb, List.replicate_succ]⟩

/-- The last bytes are symbols with padding behind them. -/
theorem symbols_of_readTail {t : Tail} (h : readTail offset index none text = .ok t) :
    text = t.symbols.map (·.1) ++ List.replicate t.padding pad ∧
      ∀ e ∈ t.symbols, value? e.1 = some e.2 := by
  induction text generalizing offset index t with
  | nil =>
    cases h
    simp
  | cons b rest ih =>
    rw [readTail] at h
    split_ifs at h with hb hindex
    · obtain ⟨t, hrest, rfl⟩ := map_eq_ok_iff.1 h
      obtain ⟨hsymbols, rfl⟩ := padding_of_readTail hrest
      rw [beq_iff_eq] at hb
      simp [hsymbols, hb, List.replicate_succ]
    · cases hv : value? b with
      | none => simp [hv] at h
      | some v =>
        simp only [hv] at h
        obtain ⟨t, hrest, rfl⟩ := map_eq_ok_iff.1 h
        obtain ⟨rfl, hvalues⟩ := ih hrest
        exact ⟨rfl, List.forall_mem_cons.2 ⟨hv, hvalues⟩⟩

theorem toNat_toUInt8 (n : Nat) : n.toUInt8.toNat = n % 256 := UInt8.toNat_ofNat'

theorem toUInt8_eq {n : Nat} {a : UInt8} (h : n % 256 = a.toNat) : n.toUInt8 = a := by
  rw [← UInt8.toNat_inj, toNat_toUInt8, h]

/-- Symbols and padding of at most four bytes spell the bytes that are made of them. -/
theorem spells_of_tailBytes {t : Tail} (h : t.bytes offset = .ok bytes)
    (hlength : t.symbols.length + t.padding ≤ 4)
    (hvalues : ∀ e ∈ t.symbols, value? e.1 = some e.2) :
    Spells (t.symbols.map (·.1) ++ List.replicate t.padding pad) bytes := by
  obtain ⟨symbols, padding⟩ := t
  rw [Tail.bytes] at h
  split_ifs at h with hshort hquad
  simp only [bne_iff_ne, ne_eq, not_not] at hlength hshort hquad
  -- The padding fills the symbols up to a quad.
  have hpadding : padding = 4 - symbols.length := by omega
  subst hpadding
  split at h
  · next s₀ v₀ s₁ v₁ hsymbols =>
    subst hsymbols
    simp only [List.forall_mem_cons] at hvalues
    obtain ⟨hv₀, hv₁, -⟩ := hvalues
    have h₀ := value?_lt hv₀
    have h₁ := value?_lt hv₁
    split_ifs at h with hloose
    cases h
    rw [beq_iff_eq] at hloose
    refine .one hv₀ hv₁ ?_
    rw [toNat_toUInt8]
    omega
  · next s₀ v₀ s₁ v₁ s₂ v₂ hsymbols =>
    subst hsymbols
    simp only [List.forall_mem_cons] at hvalues
    obtain ⟨hv₀, hv₁, hv₂, -⟩ := hvalues
    have h₀ := value?_lt hv₀
    have h₁ := value?_lt hv₁
    have h₂ := value?_lt hv₂
    split_ifs at h with hloose
    cases h
    rw [beq_iff_eq] at hloose
    refine .two hv₀ hv₁ hv₂ ?_
    rw [toNat_toUInt8, toNat_toUInt8]
    omega
  · next s₀ v₀ s₁ v₁ s₂ v₂ s₃ v₃ hsymbols =>
    subst hsymbols
    simp only [List.forall_mem_cons] at hvalues
    obtain ⟨hv₀, hv₁, hv₂, hv₃, -⟩ := hvalues
    have h₀ := value?_lt hv₀
    have h₁ := value?_lt hv₁
    have h₂ := value?_lt hv₂
    have h₃ := value?_lt hv₃
    cases h
    refine .three hv₀ hv₁ hv₂ hv₃ ?_ .nil
    rw [toNat_toUInt8, toNat_toUInt8, toNat_toUInt8]
    omega
  · cases h

/-! ## Reading -/

/-- What is read after the bytes `out` is spelled by the text. -/
theorem spells_of_decodeFrom {out read : Bytes} (h : decodeFrom offset out text = .ok read) :
    ∃ bytes, read = out.reverse ++ bytes ∧ Spells text bytes := by
  fun_induction decodeFrom offset out text with
  | case1 offset out a b c d e rest vd vc vb va hd hc hb ha n ih =>
    obtain ⟨bytes, rfl, hspells⟩ := ih h
    have h₀ := value?_lt ha
    have h₁ := value?_lt hb
    have h₂ := value?_lt hc
    have h₃ := value?_lt hd
    refine ⟨(n / 65536).toUInt8 :: (n / 256).toUInt8 :: n.toUInt8 :: bytes, by simp,
      .three ha hb hc hd ?_ hspells⟩
    rw [toNat_toUInt8, toNat_toUInt8, toNat_toUInt8]
    omega
  | case2 | case3 | case4 | case5 => cases h
  | case6 offset out =>
    cases h
    exact ⟨[], by simp, .nil⟩
  | case7 offset out last hlong hnil =>
    have hlength : last.length ≤ 4 := by
      match last, hlong with
      | [], _ | [_], _ | [_, _], _ | [_, _, _], _ | [_, _, _, _], _ => simp
      | a :: b :: c :: d :: e :: rest, hlong => exact absurd rfl (hlong a b c d e rest)
    obtain ⟨t, htail, h⟩ := bind_eq_ok_iff.1 h
    obtain ⟨bytes, hbytes, h⟩ := bind_eq_ok_iff.1 h
    cases h
    obtain ⟨rfl, hvalues⟩ := symbols_of_readTail htail
    refine ⟨bytes, List.reverseAux_eq, spells_of_tailBytes hbytes ?_ hvalues⟩
    simpa using hlength

/-- One to four bytes are read as the last quad. -/
theorem decodeFrom_last {last out : Bytes} {t : Tail} (hnil : last ≠ [])
    (hlength : last.length ≤ 4) (htail : readTail offset 0 none last = .ok t)
    (hbytes : t.bytes offset = .ok bytes) :
    decodeFrom offset out last = .ok (out.reverse ++ bytes) := by
  rw [decodeFrom.eq_def]
  split
  · simp only [List.length_cons] at hlength
    omega
  · exact absurd rfl hnil
  · refine bind_eq_ok_iff.2 ⟨t, htail, bind_eq_ok_iff.2 ⟨bytes, hbytes, ?_⟩⟩
    rw [List.reverseAux_eq]
    rfl

theorem decodeFrom_of_spells {out : Bytes} (h : Spells text bytes) :
    decodeFrom offset out text = .ok (out.reverse ++ bytes) := by
  induction h generalizing offset out with
  | nil => simp [decodeFrom]
  | @one s₀ s₁ a v₀ v₁ h₀ h₁ hn =>
    have ha := a.toNat_lt
    have hloose : v₁ % 16 = 0 := by omega
    have hbyte : (v₀ * 4 + v₁ / 16).toUInt8 = a := toUInt8_eq (by omega)
    have htail : readTail offset 0 none [s₀, s₁, pad, pad] = .ok ⟨[(s₀, v₀), (s₁, v₁)], 2⟩ := by
      simp [readTail, beq_pad_of_value?, h₀, h₁, Except.map]
    refine decodeFrom_last (by simp) (by simp) htail ?_
    simp [Tail.bytes, hloose, ← hbyte]
  | @two s₀ s₁ s₂ a b v₀ v₁ v₂ h₀ h₁ h₂ hn =>
    have ha := a.toNat_lt
    have hb := b.toNat_lt
    have hloose : v₂ % 4 = 0 := by omega
    have hbyte₀ : ((v₀ * 1024 + v₁ * 16 + v₂ / 4) / 256).toUInt8 = a := toUInt8_eq (by omega)
    have hbyte₁ : (v₀ * 1024 + v₁ * 16 + v₂ / 4).toUInt8 = b := toUInt8_eq (by omega)
    have htail : readTail offset 0 none [s₀, s₁, s₂, pad] =
        .ok ⟨[(s₀, v₀), (s₁, v₁), (s₂, v₂)], 1⟩ := by
      simp [readTail, beq_pad_of_value?, h₀, h₁, h₂, Except.map]
    refine decodeFrom_last (by simp) (by simp) htail ?_
    simp [Tail.bytes, hloose, ← hbyte₀, ← hbyte₁]
  | @three s₀ s₁ s₂ s₃ a b c v₀ v₁ v₂ v₃ text bytes h₀ h₁ h₂ h₃ hn _ ih =>
    have ha := a.toNat_lt
    have hb := b.toNat_lt
    have hc := c.toNat_lt
    have hbyte₀ : ((v₀ * 262144 + v₁ * 4096 + v₂ * 64 + v₃) / 65536).toUInt8 = a :=
      toUInt8_eq (by omega)
    have hbyte₁ : ((v₀ * 262144 + v₁ * 4096 + v₂ * 64 + v₃) / 256).toUInt8 = b :=
      toUInt8_eq (by omega)
    have hbyte₂ : (v₀ * 262144 + v₁ * 4096 + v₂ * 64 + v₃).toUInt8 = c := toUInt8_eq (by omega)
    cases text with
    | nil =>
      have hnil : decodeFrom 0 [] [] = .ok bytes := ih
      rw [decodeFrom] at hnil
      cases hnil
      have htail : readTail offset 0 none [s₀, s₁, s₂, s₃] =
          .ok ⟨[(s₀, v₀), (s₁, v₁), (s₂, v₂), (s₃, v₃)], 0⟩ := by
        simp [readTail, beq_pad_of_value?, h₀, h₁, h₂, h₃, Except.map]
      refine decodeFrom_last (by simp) (by simp) htail ?_
      simp [Tail.bytes, ← hbyte₀, ← hbyte₁, ← hbyte₂]
    | cons e rest =>
      rw [decodeFrom, h₀, h₁, h₂, h₃]
      simp only [hbyte₀, hbyte₁, hbyte₂]
      rw [ih]
      simp

theorem Spells.length_mod (h : Spells text bytes) : text.length % 4 = 0 := by
  induction h with
  | nil | one | two => simp
  | three _ _ _ _ _ _ ih =>
    simp only [List.length_cons]
    omega

/-- Decoding reads a text exactly as the bytes that it spells. -/
theorem decode_eq_ok_iff : decode text = .ok bytes ↔ Spells text bytes := by
  rw [decode]
  split
  · constructor
    · intro h
      split_ifs at h
      obtain ⟨_, rfl, hspells⟩ := spells_of_decodeFrom h
      exact hspells
    · intro h
      rw [if_neg (by simp [h.length_mod]), decodeFrom_of_spells h]
      rfl
  · next hnil =>
    obtain rfl := List.getLast?_eq_none_iff.1 hnil
    constructor
    · intro h
      cases h
      exact .nil
    · intro h
      cases h
      rfl

end SyntaxGateway.Base64
