import Mathlib.Data.List.Lex
import SyntaxGateway.Text.Utf8

/-!
# UTF-8 both ways

A byte string is the encoding of a string exactly when reading it gives that string.

**Theorem (`toString?_eq_ok_iff`).** `toString? bytes = .ok s` if and only if `bytes = ofString s`.

Both directions go through the well-formed byte sequences of single characters (`Sequence`): each
character is written by one, and reading takes one off the front of its input.

**Theorem (`ofString_lt_iff`).** The encodings of two strings stand in the order of their code
points.
-/

namespace SyntaxGateway.Utf8

/-! ## Bytes as numbers -/

variable {a b c d : UInt8} {bytes rest : Bytes} {n done : Nat} {read cs : List Char}

theorem exists_toNat_eq (h : n < 256) : ∃ a : UInt8, a.toNat = n :=
  ⟨UInt8.ofNat n, by rw [UInt8.toNat_ofNat', Nat.mod_eq_of_lt h]⟩

theorem isLow_iff : a < 0x80 ↔ a.toNat < 0x80 := UInt8.lt_iff_toNat_lt

theorem between_iff {low high : UInt8} :
    (low ≤ a && a ≤ high) ↔ low.toNat ≤ a.toNat ∧ a.toNat ≤ high.toNat := by
  simp [UInt8.le_iff_toNat_le]

theorem isTail_iff : isTail b ↔ 0x80 ≤ b.toNat ∧ b.toNat ≤ 0xBF := by
  simp [isTail, UInt8.le_iff_toNat_le]

theorem isSecondOfThree_iff : isSecondOfThree a b ↔
    0x80 ≤ b.toNat ∧ b.toNat ≤ 0xBF ∧ (a.toNat = 0xE0 → 0xA0 ≤ b.toNat) ∧
      (a.toNat = 0xED → b.toNat ≤ 0x9F) := by
  simp only [isSecondOfThree, Bool.and_eq_true, decide_eq_true_eq, UInt8.le_iff_toNat_le,
    beq_iff_eq, ← UInt8.toNat_inj, apply_ite UInt8.toNat, UInt8.reduceToNat]
  split <;> split <;> omega

theorem isSecondOfFour_iff : isSecondOfFour a b ↔
    0x80 ≤ b.toNat ∧ b.toNat ≤ 0xBF ∧ (a.toNat = 0xF0 → 0x90 ≤ b.toNat) ∧
      (a.toNat = 0xF4 → b.toNat ≤ 0x8F) := by
  simp only [isSecondOfFour, Bool.and_eq_true, decide_eq_true_eq, UInt8.le_iff_toNat_le,
    beq_iff_eq, ← UInt8.toNat_inj, apply_ite UInt8.toNat, UInt8.reduceToNat]
  split <;> split <;> omega

theorem extend_eq : extend n b = n * 64 + (b.toNat - 0x80) := by
  unfold extend
  rfl

/-! ## Sequences of one character -/

/-- The number of the code point that a well-formed byte sequence writes. The first byte says how
long the sequence is; the bounds keep out long forms, surrogates and what lies above U+10FFFF. -/
inductive Sequence : Bytes → Nat → Prop
  | one {a : UInt8} (ha : a.toNat ≤ 0x7F) : Sequence [a] a.toNat
  | two {a b : UInt8} (ha : 0xC2 ≤ a.toNat ∧ a.toNat ≤ 0xDF) (hb : isTail b) :
      Sequence [a, b] (extend (a.toNat - 0xC0) b)
  | three {a b c : UInt8} (ha : 0xE0 ≤ a.toNat ∧ a.toNat ≤ 0xEF) (hb : isSecondOfThree a b)
      (hc : isTail c) : Sequence [a, b, c] (extend (extend (a.toNat - 0xE0) b) c)
  | four {a b c d : UInt8} (ha : 0xF0 ≤ a.toNat ∧ a.toNat ≤ 0xF4) (hb : isSecondOfFour a b)
      (hc : isTail c) (hd : isTail d) :
      Sequence [a, b, c, d] (extend (extend (extend (a.toNat - 0xF0) b) c) d)

namespace Sequence

/-- Reading takes a sequence off the front. -/
theorem decodeFrom_append (h : Sequence bytes n) :
    decodeFrom (bytes ++ rest) done read =
      decodeFrom rest (done + bytes.length) (Char.ofNat n :: read) := by
  conv_lhs => rw [decodeFrom.eq_def]
  cases h with
  | @one a ha =>
    simp only [List.cons_append, List.nil_append, isLow_iff]
    rw [if_pos (by omega)]
    rfl
  | @two a b ha hb =>
    simp only [List.cons_append, List.nil_append, isLow_iff, between_iff, UInt8.reduceToNat]
    rw [if_neg (by omega), if_pos ha, if_pos hb]
    rfl
  | @three a b c ha hb hc =>
    simp only [List.cons_append, List.nil_append, isLow_iff, between_iff, UInt8.reduceToNat]
    rw [if_neg (by omega), if_neg (by omega), if_pos ha, if_pos hb, if_pos hc]
    rfl
  | @four a b c d ha hb hc hd =>
    simp only [List.cons_append, List.nil_append, isLow_iff, between_iff, UInt8.reduceToNat]
    rw [if_neg (by omega), if_neg (by omega), if_neg (by omega), if_pos ha, if_pos hb, if_pos hc,
      if_pos hd]
    rfl

/-- A sequence writes a code point. -/
theorem isValidChar (h : Sequence bytes n) : n.isValidChar := by
  unfold Nat.isValidChar
  cases h with
  | one ha => omega
  | two ha hb =>
    rw [isTail_iff] at hb
    unfold extend
    omega
  | three ha hb hc =>
    rw [isSecondOfThree_iff] at hb
    rw [isTail_iff] at hc
    unfold extend
    omega
  | four ha hb hc hd =>
    rw [isSecondOfFour_iff] at hb
    rw [isTail_iff] at hc hd
    unfold extend
    omega

/-- A sequence is the encoding of the character that it writes. -/
theorem utf8EncodeChar_eq {x : Char} (h : Sequence bytes n) (hx : x.toNat = n) :
    String.utf8EncodeChar x = bytes := by
  have hbyte {k : Nat} {a : UInt8} (hk : k = a.toNat) : UInt8.ofNat k = a := by
    rw [hk, UInt8.ofNat_toNat]
  unfold String.utf8EncodeChar
  change x.val.toNat = n at hx
  generalize x.val.toNat = v at hx ⊢
  cases h with
  | @one a ha =>
    rw [hx, if_pos ha, UInt8.ofNat_toNat]
  | @two a b ha hb =>
    rw [isTail_iff] at hb
    unfold extend at hx
    have h1 : v / 64 % 32 + 0xC0 = a.toNat := by omega
    have h2 : v % 64 + 0x80 = b.toNat := by omega
    rw [if_neg (by omega), if_pos (by omega), hbyte h1, hbyte h2]
  | @three a b c ha hb hc =>
    rw [isSecondOfThree_iff] at hb
    rw [isTail_iff] at hc
    unfold extend at hx
    have h1 : v / 4096 % 16 + 0xE0 = a.toNat := by omega
    have h2 : v / 64 % 64 + 0x80 = b.toNat := by omega
    have h3 : v % 64 + 0x80 = c.toNat := by omega
    rw [if_neg (by omega), if_neg (by omega), if_pos (by omega), hbyte h1, hbyte h2, hbyte h3]
  | @four a b c d ha hb hc hd =>
    rw [isSecondOfFour_iff] at hb
    rw [isTail_iff] at hc hd
    unfold extend at hx
    have h1 : v / 262144 % 8 + 0xF0 = a.toNat := by omega
    have h2 : v / 4096 % 64 + 0x80 = b.toNat := by omega
    have h3 : v / 64 % 64 + 0x80 = c.toNat := by omega
    have h4 : v % 64 + 0x80 = d.toNat := by omega
    rw [if_neg (by omega), if_neg (by omega), if_neg (by omega), hbyte h1, hbyte h2, hbyte h3,
      hbyte h4]

end Sequence

/-- Every code point is written by some sequence. -/
theorem exists_sequence (h : n.isValidChar) : ∃ bytes, Sequence bytes n := by
  unfold Nat.isValidChar at h
  have htail {b : UInt8} {k : Nat} (hb : b.toNat = k % 64 + 0x80) : isTail b := by
    rw [isTail_iff]
    omega
  obtain ⟨d, hd⟩ := exists_toNat_eq (show n % 64 + 0x80 < 256 by omega)
  obtain ⟨c, hc⟩ := exists_toNat_eq (show n / 64 % 64 + 0x80 < 256 by omega)
  obtain ⟨b, hb⟩ := exists_toNat_eq (show n / 4096 % 64 + 0x80 < 256 by omega)
  by_cases h1 : n ≤ 0x7F
  · obtain ⟨a, ha⟩ := exists_toNat_eq (show n < 256 by omega)
    rw [← ha] at h1 ⊢
    exact ⟨[a], .one h1⟩
  by_cases h2 : n ≤ 0x7FF
  · obtain ⟨a, ha⟩ := exists_toNat_eq (show n / 64 + 0xC0 < 256 by omega)
    have hn : n = extend (a.toNat - 0xC0) d := by
      unfold extend
      omega
    rw [hn]
    exact ⟨[a, d], .two (by omega) (htail hd)⟩
  by_cases h3 : n ≤ 0xFFFF
  · obtain ⟨a, ha⟩ := exists_toNat_eq (show n / 4096 + 0xE0 < 256 by omega)
    have hsecond : isSecondOfThree a c := by
      rw [isSecondOfThree_iff]
      omega
    have hn : n = extend (extend (a.toNat - 0xE0) c) d := by
      unfold extend
      omega
    rw [hn]
    exact ⟨[a, c, d], .three (by omega) hsecond (htail hd)⟩
  · obtain ⟨a, ha⟩ := exists_toNat_eq (show n / 262144 + 0xF0 < 256 by omega)
    have hsecond : isSecondOfFour a b := by
      rw [isSecondOfFour_iff]
      omega
    have hn : n = extend (extend (extend (a.toNat - 0xF0) b) c) d := by
      unfold extend
      omega
    rw [hn]
    exact ⟨[a, b, c, d], .four (by omega) hsecond (htail hc) (htail hd)⟩

theorem sequence_utf8EncodeChar (x : Char) : Sequence (String.utf8EncodeChar x) x.toNat := by
  obtain ⟨bytes, h⟩ := exists_sequence x.valid
  rwa [h.utf8EncodeChar_eq rfl]

/-- A character of ASCII is one byte. -/
theorem utf8EncodeChar_of_le {c : Char} (h : c.toNat ≤ 0x7F) :
    String.utf8EncodeChar c = [UInt8.ofNat c.toNat] := by
  change c.val.toNat ≤ 0x7F at h
  rw [String.utf8EncodeChar, if_pos h]
  rfl

/-- A sequence that writes a larger code point is larger, whatever follows. -/
theorem Sequence.append_lt_append {bytes' rest' : Bytes} {m : Nat} (h : Sequence bytes n)
    (h' : Sequence bytes' m) (hnm : n < m) : bytes ++ rest < bytes' ++ rest' := by
  -- The first bytes of longer sequences are larger; in sequences of one length the bytes are the
  -- digits of the code point in base 64, and compare in order.
  cases h <;> cases h' <;>
    simp only [isTail_iff, isSecondOfThree_iff, isSecondOfFour_iff, extend_eq, List.cons_append,
      List.cons_lt_cons_iff, UInt8.lt_iff_toNat_lt, ← UInt8.toNat_inj] at * <;>
    omega

/-! ## Strings -/

theorem encode_cons (c : Char) (cs : List Char) :
    encode (c :: cs) = String.utf8EncodeChar c ++ encode cs := List.flatMap_cons

theorem encode_append (cs ds : List Char) : encode (cs ++ ds) = encode cs ++ encode ds :=
  List.flatMap_append

theorem ofString_append (s u : String) : ofString (s ++ u) = ofString s ++ ofString u := by
  rw [ofString, String.toList_append, encode_append]
  rfl

theorem ofString_ofList (cs : List Char) : ofString (String.ofList cs) = encode cs := by
  rw [ofString, String.toList_ofList]

theorem decodeFrom_encode (cs : List Char) :
    decodeFrom (encode cs ++ rest) done read =
      decodeFrom rest (done + (encode cs).length) (cs.reverse ++ read) := by
  induction cs generalizing done read with
  | nil => rfl
  | cons c cs ih =>
    have h := sequence_utf8EncodeChar c
    rw [encode_cons, List.append_assoc, h.decodeFrom_append, Char.ofNat_toNat, ih]
    simp [Nat.add_assoc]

/-- What can be read starts with a sequence. -/
theorem exists_sequence_append (h : decodeFrom bytes done read = .ok cs) (hbytes : bytes ≠ []) :
    ∃ seq n rest, Sequence seq n ∧ bytes = seq ++ rest := by
  rw [decodeFrom.eq_def] at h
  split at h
  · exact absurd rfl hbytes
  · simp only [isLow_iff, between_iff, UInt8.reduceToNat] at h
    -- One split for each test of the reader. Each width has one way through; all others refuse.
    split at h
    · rename_i a rest ha
      exact ⟨[a], _, rest, .one (by omega), rfl⟩
    split at h
    · rename_i ha
      split at h
      · cases h
      split at h
      · rename_i hb
        exact ⟨_, _, _, .two ha hb, rfl⟩
      · cases h
    split at h
    · rename_i ha
      split at h
      · cases h
      split at h
      · rename_i hb
        split at h
        · cases h
        split at h
        · rename_i hc
          exact ⟨_, _, _, .three ha hb hc, rfl⟩
        · cases h
      · cases h
    split at h
    · rename_i ha
      split at h
      · cases h
      split at h
      · rename_i hb
        split at h
        · cases h
        split at h
        · rename_i hc
          split at h
          · cases h
          split at h
          · rename_i hd
            exact ⟨_, _, _, .four ha hb hc hd, rfl⟩
          · cases h
        · cases h
      · cases h
    · cases h

/-- What can be read is the encoding of what reading adds. -/
theorem exists_of_decodeFrom (h : decodeFrom bytes done read = .ok cs) :
    ∃ tail, cs = read.reverse ++ tail ∧ bytes = encode tail := by
  induction hsize : bytes.length using Nat.strong_induction_on generalizing bytes done read
  rename_i size ih
  by_cases hbytes : bytes = []
  · subst hbytes
    rw [decodeFrom] at h
    exact ⟨[], by simpa using (Except.ok.inj h).symm, rfl⟩
  · obtain ⟨seq, n, rest, hseq, rfl⟩ := exists_sequence_append h hbytes
    have hlength : seq ≠ [] := by
      cases hseq <;> simp
    have hlt : rest.length < (seq ++ rest).length := by
      simpa using List.length_pos_iff.2 hlength
    rw [hseq.decodeFrom_append] at h
    obtain ⟨tail, rfl, rfl⟩ := ih _ (hsize ▸ hlt) h rfl
    refine ⟨Char.ofNat n :: tail, by simp, ?_⟩
    have hn : (Char.ofNat n).toNat = n := by
      rw [Char.ofNat, dif_pos hseq.isValidChar]
      rfl
    rw [encode_cons, hseq.utf8EncodeChar_eq hn]

theorem toString?_eq_ok_iff {s : String} : toString? bytes = .ok s ↔ bytes = ofString s := by
  unfold toString? decode ofString
  constructor
  · intro h
    cases hd : decodeFrom bytes 0 [] with
    | error fault => simp [hd, Except.map] at h
    | ok cs =>
      obtain ⟨tail, rfl, rfl⟩ := exists_of_decodeFrom hd
      rw [hd, Except.map] at h
      cases h
      simp
  · rintro rfl
    have h : decodeFrom (encode s.toList ++ []) 0 [] = _ := decodeFrom_encode s.toList
    rw [List.append_nil] at h
    rw [h, decodeFrom, Except.map]
    simp

theorem ofString_injective : Function.Injective ofString := by
  intro s t h
  have hs := toString?_eq_ok_iff.2 h
  rw [toString?_eq_ok_iff.2 rfl] at hs
  exact Except.ok.inj hs

/-! ## Order -/

theorem encode_lt_encode {cs ds : List Char} (h : cs < ds) : encode cs < encode ds := by
  induction h with
  | @nil d ds =>
    obtain ⟨b, bytes, hd⟩ := List.exists_cons_of_ne_nil (String.utf8EncodeChar_ne_nil (c := d))
    rw [encode_cons, hd]
    exact .nil
  | @rel c cs d ds h =>
    rw [encode_cons, encode_cons]
    exact (sequence_utf8EncodeChar c).append_lt_append (sequence_utf8EncodeChar d) h
  | cons h ih =>
    rw [encode_cons, encode_cons]
    exact List.append_left_lt ih

/-- Strings stand in the order of their bytes. -/
theorem ofString_lt_iff {s t : String} : ofString s < ofString t ↔ s < t := by
  constructor
  · intro h
    by_contra hst
    rcases Std.le_iff_lt_or_eq.1 (Std.not_lt.1 hst) with hlt | rfl
    · exact List.lt_asymm h (encode_lt_encode (String.lt_iff.1 hlt))
    · exact List.lt_irrefl _ h
  · intro h
    exact encode_lt_encode (String.lt_iff.1 h)

end SyntaxGateway.Utf8
