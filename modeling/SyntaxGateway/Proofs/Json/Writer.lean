import Mathlib
import SyntaxGateway.Json.Writer
import SyntaxGateway.Proofs.Json.Shapes

/-!
# What is written is JSON

**Theorem (`stringText_quote`).** The quoted form of a string is a text of that string, whatever
characters it has: each is escaped as the grammar has it (`characters_escape`), or stands for itself
as bytes that are plain.

**Theorem (`number_toString`).** The decimal of a natural number of 64 bits is read as that number
where nothing follows that continues it.

Arrays and objects are their items with commas between them (`ofString_array`, `ofString_object`).
-/

namespace SyntaxGateway.Json

variable {t m : Bytes} {rest : Bytes}

/-! ## Strings -/

theorem Characters.append {t' m' : Bytes} (h : Characters t m) (h' : Characters t' m') :
    Characters (t ++ t') (m ++ m') := by
  induction h with
  | nil => exact h'
  | plain hb _ ih => exact .plain hb ih
  | escape he _ ih =>
    rw [List.cons_append, List.append_assoc, List.append_assoc]
    exact .escape he ih

theorem characters_of_isPlain (h : ∀ b ∈ t, IsPlain b) : Characters t t := by
  induction t with
  | nil => exact .nil
  | cons b t ih =>
    obtain ⟨hb, ht⟩ := List.forall_mem_cons.1 h
    exact .plain hb (ih ht)

theorem isPlain_iff {b : UInt8} :
    IsPlain b ↔ b.toNat ≠ 0x22 ∧ b.toNat ≠ 0x5C ∧ 0x20 ≤ b.toNat := by
  simp [IsPlain, UInt8.lt_iff_toNat_lt, ← UInt8.toNat_inj]

/-- A character that needs no escape stands for itself. -/
theorem isPlain_of_mem_utf8EncodeChar {c : Char} (hquote : c.toNat ≠ 0x22)
    (hbackslash : c.toNat ≠ 0x5C) (hcontrol : 0x20 ≤ c.toNat) :
    ∀ b ∈ String.utf8EncodeChar c, IsPlain b := by
  have hseq := Utf8.sequence_utf8EncodeChar c
  generalize String.utf8EncodeChar c = bytes at hseq
  generalize c.toNat = n at hseq hquote hbackslash hcontrol
  simp only [isPlain_iff]
  cases hseq with
  | one => simp_all
  | two ha hb =>
    rw [Utf8.isTail_iff] at hb
    simp only [List.mem_cons, List.not_mem_nil, or_false, forall_eq_or_imp, forall_eq]
    omega
  | three ha hb hc =>
    rw [Utf8.isSecondOfThree_iff] at hb
    rw [Utf8.isTail_iff] at hc
    simp only [List.mem_cons, List.not_mem_nil, or_false, forall_eq_or_imp, forall_eq]
    omega
  | four ha hb hc hd =>
    rw [Utf8.isSecondOfFour_iff] at hb
    rw [Utf8.isTail_iff] at hc hd
    simp only [List.mem_cons, List.not_mem_nil, or_false, forall_eq_or_imp, forall_eq]
    omega

theorem exists_hexValue?_hexDigit {n : Nat} (h : n < 16) :
    ∃ b, String.utf8EncodeChar (hexDigit n) = [b] ∧ hexValue? b = some n := by
  interval_cases n <;> exact ⟨_, rfl, rfl⟩

/-- A control character is read from the four digits of its number. -/
theorem characters_control {c : Char} (h : c.toNat < 0x20) :
    Characters
      (Utf8.encode ['\\', 'u', '0', '0', hexDigit (c.toNat / 16), hexDigit (c.toNat % 16)])
      (String.utf8EncodeChar c) := by
  obtain ⟨high, hhigh, hhigh'⟩ := exists_hexValue?_hexDigit (show c.toNat / 16 < 16 by omega)
  obtain ⟨low, hlow, hlow'⟩ := exists_hexValue?_hexDigit (show c.toNat % 16 < 16 by omega)
  have hbytes :
      Utf8.encode ['\\', 'u', '0', '0', hexDigit (c.toNat / 16), hexDigit (c.toNat % 16)] =
        0x5C :: (0x75 :: [0x30, 0x30, high, low] ++ []) := by
    simp only [Utf8.encode, List.flatMap_cons, List.flatMap_nil, hhigh, hlow]
    rfl
  have hhex : HexText [0x30, 0x30, high, low] c.toNat := by
    have hmk := HexText.mk (show hexValue? 0x30 = some 0 from rfl)
      (show hexValue? 0x30 = some 0 from rfl) hhigh' hlow'
    have hnumber : ((0 * 16 + 0) * 16 + c.toNat / 16) * 16 + c.toNat % 16 = c.toNat := by omega
    rwa [hnumber] at hmk
  have hescape : EscapeText (0x75 :: [0x30, 0x30, high, low]) (String.utf8EncodeChar c) := by
    have hunit := EscapeText.unit hhex (by simp [isLeading]; omega) (by simp [isTrailing]; omega)
    rwa [Char.ofNat_toNat] at hunit
  rw [hbytes, ← List.append_nil (String.utf8EncodeChar c)]
  exact .escape hescape .nil

theorem characters_short {e b : UInt8} {c : Char} (h : shortEscape? e = some b)
    (hc : c.toNat = b.toNat) (hb : b.toNat ≤ 0x7F) :
    Characters [0x5C, e] (String.utf8EncodeChar c) := by
  rw [Utf8.utf8EncodeChar_of_le (hc ▸ hb), hc, UInt8.ofNat_toNat]
  exact .escape (.short h) .nil

theorem characters_escape (c : Char) :
    Characters (Utf8.encode (escape c)) (String.utf8EncodeChar c) := by
  unfold escape
  split_ifs with hquote hbackslash hcontrol hn hr ht hb hf
  · exact characters_short (e := 0x22) rfl (by rw [hquote]; rfl) (by decide)
  · exact characters_short (e := 0x5C) rfl (by rw [hbackslash]; rfl) (by decide)
  · exact characters_short (e := 0x6E) rfl (by rw [hn]; rfl) (by decide)
  · exact characters_short (e := 0x72) rfl (by rw [hr]; rfl) (by decide)
  · exact characters_short (e := 0x74) rfl (by rw [ht]; rfl) (by decide)
  · exact characters_short (e := 0x62) rfl (by rw [hb]; rfl) (by decide)
  · exact characters_short (e := 0x66) rfl (by rw [hf]; rfl) (by decide)
  · exact characters_control hcontrol
  · have hsingle : Utf8.encode [c] = String.utf8EncodeChar c := List.append_nil _
    rw [hsingle]
    refine characters_of_isPlain (isPlain_of_mem_utf8EncodeChar ?_ ?_ (Nat.not_lt.1 hcontrol))
    · exact fun h => hquote (Char.toNat_inj.1 h)
    · exact fun h => hbackslash (Char.toNat_inj.1 h)

theorem stringText_quote (s : String) : StringText (Utf8.ofString (quote s)) s := by
  have hcharacters (cs : List Char) :
      Characters (Utf8.encode (cs.flatMap escape)) (Utf8.encode cs) := by
    induction cs with
    | nil => exact .nil
    | cons c cs ih =>
      rw [List.flatMap_cons, Utf8.encode_append, Utf8.encode_cons]
      exact (characters_escape c).append ih
  have htext : Utf8.ofString (quote s) =
      0x22 :: (Utf8.encode (s.toList.flatMap escape) ++ [0x22]) := by
    rw [quote, Utf8.ofString_ofList, Utf8.encode_cons, Utf8.encode_append]
    rfl
  rw [htext]
  exact .mk (hcharacters s.toList)

/-! ## Numbers -/

theorem afterInteger_of_stops {p : NumberParts} (h : Stops rest) :
    afterInteger p rest = p.finish rest := by
  have hdigits : afterDigits p rest = p.finish rest := by
    unfold afterDigits
    split
    next => exact absurd rfl (h _ rfl).2.2.1
    next => exact absurd rfl (h _ rfl).2.2.2
    next => rfl
  unfold afterInteger
  split
  next => exact absurd rfl (h _ rfl).2.1
  next => exact hdigits

theorem le_ofDigitChars (ds : List Char) (n : Nat) : n ≤ Nat.ofDigitChars 10 ds n := by
  induction ds generalizing n with
  | nil => rw [Nat.ofDigitChars_nil]
  | cons d ds ih =>
    rw [Nat.ofDigitChars_cons]
    have := ih (10 * n + (d.toNat - '0'.toNat))
    omega

theorem toNat_of_isDigit {d : Char} (h : d.isDigit) : 48 ≤ d.toNat ∧ d.toNat ≤ 57 := by
  simpa [Char.isDigit, UInt32.le_iff_toNat_le] using h

theorem encode_cons_of_isDigit {d : Char} (h : d.isDigit) (ds : List Char) :
    ∃ b, Utf8.encode (d :: ds) = b :: Utf8.encode ds ∧ b.toNat = d.toNat := by
  have := toNat_of_isDigit h
  refine ⟨UInt8.ofNat d.toNat, ?_, ?_⟩
  · rw [Utf8.encode_cons, Utf8.utf8EncodeChar_of_le (by omega)]
    rfl
  · rw [UInt8.toNat_ofNat', Nat.mod_eq_of_lt (by omega)]

/-- Digits of a number of 64 bits are all absorbed. -/
theorem absorb_encode {ds : List Char} (h : ∀ d ∈ ds, d.isDigit) {n : Nat}
    (hn : Nat.ofDigitChars 10 ds n < 2 ^ 64) :
    absorb n (Utf8.encode ds) = (Nat.ofDigitChars 10 ds n, []) := by
  induction ds generalizing n with
  | nil => rfl
  | cons d ds ih =>
    obtain ⟨hd, hds⟩ := List.forall_mem_cons.1 h
    obtain ⟨b, hb, hbd⟩ := encode_cons_of_isDigit hd ds
    have hvalue : n * 10 + digitValue b = 10 * n + (d.toNat - '0'.toNat) := by
      rw [digitValue, hbd]
      simp
      omega
    rw [Nat.ofDigitChars_cons] at hn ⊢
    have hlt := (le_ofDigitChars ds _).trans_lt hn
    rw [hb, absorb, hvalue, if_pos (by simpa using hlt), ih hds hn]

theorem isDigit_of_mem_encode {ds : List Char} (h : ∀ d ∈ ds, d.isDigit) :
    ∀ b ∈ Utf8.encode ds, isDigit b := by
  induction ds with
  | nil => simp [Utf8.encode]
  | cons d ds ih =>
    obtain ⟨hd, hds⟩ := List.forall_mem_cons.1 h
    obtain ⟨b, hb, hbd⟩ := encode_cons_of_isDigit hd ds
    have := toNat_of_isDigit hd
    rw [hb]
    refine List.forall_mem_cons.2 ⟨?_, ih hds⟩
    simp only [isDigit, Bool.and_eq_true, decide_eq_true_eq, UInt8.le_iff_toNat_le, hbd]
    exact this

/-- A positive number has no zero in front. -/
theorem head?_toDigits_ne {n : Nat} (hn : 0 < n) : (Nat.toDigits 10 n).head? ≠ some '0' := by
  induction n using Nat.strong_induction_on with
  | _ n ih =>
    by_cases hsmall : n < 10
    · rw [Nat.toDigits_of_lt_base hsmall]
      interval_cases n <;> decide
    · rw [Nat.toDigits_of_base_le (by decide) (Nat.not_lt.1 hsmall),
        List.head?_append_of_ne_nil _ Nat.toDigits_ne_nil]
      exact ih (n / 10) (by omega) (by omega)

theorem numberBody_zero (h : Stops rest) :
    numberBody false (0x30 :: rest) = .ok (.integer 0, rest) := by
  have hafter : afterInteger ⟨false, 0, 0, false⟩ rest = .ok (.integer 0, rest) :=
    afterInteger_of_stops h
  cases rest with
  | nil => exact hafter
  | cons d more => simp [numberBody, (h d rfl).1, hafter]

theorem numberBody_digits {b : UInt8} {n : Nat} (hzero : b ≠ 0x30) (ht : ∀ d ∈ b :: t, isDigit d)
    (hn : absorb 0 (b :: t) = (n, [])) (hrest : Stops rest) :
    numberBody false (b :: (t ++ rest)) = .ok (.integer n, rest) := by
  have hb : isDigit b := ht b (by simp)
  have hdrop : (b :: (t ++ rest)).dropWhile isDigit = rest :=
    dropWhile_isDigit_append (t := b :: t) ht fun d hd => (hrest d hd).1
  have htake : (b :: (t ++ rest)).takeWhile isDigit = b :: t := by
    have hsplit := List.takeWhile_append_dropWhile (p := isDigit) (l := b :: (t ++ rest))
    rw [hdrop] at hsplit
    exact List.append_cancel_right hsplit
  have hafter : afterInteger ⟨false, n, 0, false⟩ rest = .ok (.integer n, rest) :=
    afterInteger_of_stops hrest
  unfold numberBody
  simp only [htake, hdrop, hn, hb, hzero, beq_iff_eq]
  simpa using hafter

theorem ofString_toString (n : Nat) :
    Utf8.ofString (toString n) = Utf8.encode (Nat.toDigits 10 n) :=
  Utf8.ofString_ofList _

theorem absorb_toString {n : Nat} (hn : n < 2 ^ 64) :
    absorb 0 (Utf8.ofString (toString n)) = (n, []) := by
  have hdigits : ∀ d ∈ Nat.toDigits 10 n, d.isDigit := fun d hd =>
    Nat.isDigit_of_mem_toDigits (by decide) (by decide) hd
  have hvalue : Nat.ofDigitChars 10 (Nat.toDigits 10 n) 0 = n := Nat.ofDigitChars_ten_toDigits
  rw [ofString_toString, absorb_encode hdigits (hvalue.symm ▸ hn), hvalue]

/-- A decimal is all digits, and only that of zero has a zero in front. -/
theorem exists_ofString_toString (n : Nat) :
    ∃ b t, Utf8.ofString (toString n) = b :: t ∧ (∀ d ∈ b :: t, isDigit d) ∧
      (b = 0x30 → n = 0 ∧ t = []) := by
  have hdigits : ∀ d ∈ Nat.toDigits 10 n, d.isDigit := fun d hd =>
    Nat.isDigit_of_mem_toDigits (by decide) (by decide) hd
  obtain rfl | hpos := Nat.eq_zero_or_pos n
  · exact ⟨0x30, [], rfl, List.forall_mem_singleton.2 rfl, fun _ => ⟨rfl, rfl⟩⟩
  · have hhead := head?_toDigits_ne hpos
    obtain ⟨d, ds, hds⟩ := List.exists_cons_of_ne_nil (Nat.toDigits_ne_nil (n := n) (b := 10))
    have htext := ofString_toString n
    rw [hds] at htext hdigits hhead
    obtain ⟨b, hb, hbd⟩ := encode_cons_of_isDigit (hdigits d (by simp)) ds
    refine ⟨b, Utf8.encode ds, htext.trans hb, hb ▸ isDigit_of_mem_encode hdigits, ?_⟩
    rintro rfl
    exact absurd (congrArg some (Char.toNat_inj.1 hbd.symm)) hhead

theorem integerText_toString (n : Nat) : IntegerText (Utf8.ofString (toString n)) := by
  obtain ⟨b, t, htext, hdigits, hzero⟩ := exists_ofString_toString n
  obtain ⟨hb, ht⟩ := List.forall_mem_cons.1 hdigits
  rw [htext]
  by_cases h : b = 0x30
  · obtain ⟨-, rfl⟩ := hzero h
    rw [h]
    exact .zero
  · exact .digits hb h ht

theorem number_toString {n : Nat} (hn : n < 2 ^ 64) (hrest : Stops rest) :
    ∃ b t, Utf8.ofString (toString n) = b :: t ∧ isDigit b ∧
      number (b :: (t ++ rest)) = .ok (.integer n, rest) := by
  obtain rfl | hpos := Nat.eq_zero_or_pos n
  · exact ⟨0x30, [], rfl, rfl, numberBody_zero hrest⟩
  · obtain ⟨b, t, htext, hdigits, hzero⟩ := exists_ofString_toString n
    have habsorb : absorb 0 (b :: t) = (n, []) := htext ▸ absorb_toString hn
    have hne : b ≠ 0x30 := fun h => by
      obtain ⟨rfl, -⟩ := hzero h
      exact absurd hpos (by decide)
    refine ⟨b, t, htext, hdigits b (by simp), ?_⟩
    unfold number
    split
    next h =>
      obtain ⟨rfl, -⟩ := List.cons.inj h
      exact absurd (hdigits 0x2D (by simp)) (by decide)
    next => exact numberBody_digits hne hdigits habsorb hrest

/-- A number below the limit is read back from its decimal. -/
theorem natural_toString {expected : String} {limit n : Nat} (hn : n < limit)
    (hlimit : limit ≤ 2 ^ 64) (hrest : Stops rest) :
    natural expected limit (Utf8.ofString (toString n) ++ rest) = .ok (n, rest) := by
  obtain ⟨b, t, htext, hb, hnumber⟩ := number_toString (hn.trans_le hlimit) hrest
  rw [htext, List.cons_append, natural, skipBlanks_cons (isBlank_of_isDigit hb)]
  simp [hb, hnumber, hn, bind, Except.bind, pure, Except.pure]

/-! ## Arrays and objects -/

/-- The comma in front of an item that is not the first. -/
def comma (first : Bool) : Bytes := if first then [] else [0x2C]

/-- Texts one after the other with commas between them. -/
def separated : (first : Bool) → (items : List Bytes) → Bytes
  | _, [] => []
  | first, t :: items => comma first ++ (t ++ separated false items)

theorem lead_comma (first : Bool) : Lead first (comma first) := by
  cases first with
  | true => exact .first blanks_nil
  | false => exact .later blanks_nil blanks_nil

/-- What follows an item stops a number. -/
theorem stops_separated (items : List Bytes) (frame : Frame) :
    Stops (separated false items ++ frame.close :: rest) := by
  cases items with
  | nil => cases frame <;> exact stops_cons (by decide)
  | cons t items => exact stops_cons (by decide)

theorem ofString_intercalate (texts : List String) :
    Utf8.ofString (",".intercalate texts) = separated true (texts.map Utf8.ofString) := by
  induction texts with
  | nil => rfl
  | cons t texts ih =>
    cases texts with
    | nil => simp [separated, comma]
    | cons u texts =>
      have hcomma : Utf8.ofString "," = [0x2C] := rfl
      rw [String.intercalate_cons_cons, Utf8.ofString_append, Utf8.ofString_append, ih, hcomma]
      simp [separated, comma]

theorem ofString_array (items : List String) :
    Utf8.ofString (array items) = 0x5B :: (separated true (items.map Utf8.ofString) ++ [0x5D]) := by
  rw [array, Utf8.ofString_append, Utf8.ofString_append, ofString_intercalate]
  rfl

/-- A key, a colon and the text of a value. -/
def memberText (key : String) (value : Bytes) : Bytes := Utf8.ofString (quote key) ++ 0x3A :: value

theorem ofString_object (members : List (String × String)) :
    Utf8.ofString (object members) =
      0x7B :: (separated true (members.map fun m => memberText m.1 (Utf8.ofString m.2)) ++
        [0x7D]) := by
  have hmember (m : String × String) :
      Utf8.ofString (quote m.1 ++ ":" ++ m.2) = memberText m.1 (Utf8.ofString m.2) := by
    rw [Utf8.ofString_append, Utf8.ofString_append, List.append_assoc]
    rfl
  rw [object, Utf8.ofString_append, Utf8.ofString_append, ofString_intercalate, List.map_map]
  simp only [Function.comp_def, hmember]
  rfl

end SyntaxGateway.Json
