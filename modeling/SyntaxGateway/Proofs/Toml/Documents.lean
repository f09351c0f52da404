import Mathlib
import SyntaxGateway.Proofs.Json.Writer
import SyntaxGateway.Proofs.Toml.Strings
import SyntaxGateway.Toml.Reader

/-!
# Documents of assignments are read as they were written

**Theorem (`read?_lines`).** A document of lines that each give a key its value, with no key twice,
is read as the table of these keys and values, in the order of the lines.

Each line takes the reader to the next one (`linesFrom_line`), and adds its entry at the end of the
table (`apply_assign`). Values are strings or natural numbers below `2 ^ 63`, written so that the
reader stops in front of the line break (`Writes`).
-/

namespace SyntaxGateway.Toml

variable {text rest : List Char} {v : Value} {n : Nat}

/-- In front of a line break, the text is read as the value. It has no carriage return, which could
be taken for a part of the line break. -/
structure Writes (text : List Char) (v : Value) : Prop where
  value_eq : ∀ rest, value maxNesting (skipBlanks (text ++ '\n' :: rest)) = some (v, '\n' :: rest)
  not_mem_return : '\r' ∉ text

theorem skipBlanks_cons {c : Char} (h : isBlank c = false) :
    skipBlanks (c :: rest) = c :: rest := by
  simp [skipBlanks, h]

theorem value_maxNesting (input : List Char) :
    value maxNesting input = valueWith (value 78) input := rfl

/-! ## Strings -/

theorem writes_quote (text : List Char) : Writes (quote text) (.string text) := by
  refine ⟨fun rest => ?_, fun h => ?_⟩
  · obtain ⟨c, w, hquote, hc⟩ := exists_quote_eq text
    have hblank : isBlank c = false := by rcases hc with rfl | rfl <;> decide
    have hread : string (quote text ++ '\n' :: rest) = some (text, '\n' :: rest) :=
      string_quote text (by simp [apostrophe])
    rw [hquote, List.cons_append] at hread ⊢
    have hopens : (c = '"' || c = apostrophe) = true := by simpa using hc
    rw [skipBlanks_cons hblank, value_maxNesting, valueWith, if_pos hopens, hread]
    rfl
  · exact absurd (eq_newline_of_mem_write (shows_ofText text) h (by decide)) (by decide)

/-! ## Integers -/

theorem hexValue?_of_isDigit {d : Char} (h : d.isDigit) : hexValue? d = some (d.toNat - 48) := by
  have hrange := Json.toNat_of_isDigit h
  simp [hexValue?, hrange]

theorem plainDigits?_of_isDigit {ds : List Char} (h : ∀ d ∈ ds, d.isDigit) (hne : ds ≠ []) :
    plainDigits? (isDigitOf 10) ds = some ds := by
  have hdigit {d : Char} (hd : d.isDigit) : isDigitOf 10 d := by
    have hrange := Json.toNat_of_isDigit hd
    simp only [isDigitOf, hexValue?_of_isDigit hd, Option.any_some, decide_eq_true_eq]
    omega
  induction ds with
  | nil => exact absurd rfl hne
  | cons d ds ih =>
    obtain ⟨hd, hds⟩ := List.forall_mem_cons.1 h
    cases ds with
    | nil => rw [plainDigits?, if_pos (hdigit hd)]
    | cons e ds =>
      have hunderscore : e ≠ '_' := by
        rintro rfl
        exact absurd (hds '_' List.mem_cons_self) (by decide)
      rw [plainDigits?, if_neg (by simp [hdigit hd]), if_neg hunderscore, ih hds (by simp)]
      rfl

theorem numberOf_of_isDigit {ds : List Char} (h : ∀ d ∈ ds, d.isDigit) :
    numberOf 10 ds = Nat.ofDigitChars 10 ds 0 := by
  have hfold (start : Nat) :
      ds.foldl (fun n c => n * 10 + (hexValue? c).getD 0) start = Nat.ofDigitChars 10 ds start := by
    induction ds generalizing start with
    | nil => rw [Nat.ofDigitChars_nil, List.foldl_nil]
    | cons d ds ih =>
      obtain ⟨hd, hds⟩ := List.forall_mem_cons.1 h
      rw [Nat.ofDigitChars_cons, List.foldl_cons, ih hds, hexValue?_of_isDigit hd, Nat.mul_comm]
      rfl
  exact hfold 0

theorem isDigit_of_mem_toDigits {d : Char} (h : d ∈ Nat.toDigits 10 n) : d.isDigit :=
  Nat.isDigit_of_mem_toDigits (by decide) (by decide) h

/-- Only zero starts with the digit zero, and it has no other digit. -/
theorem decimalDigits?_toDigits (n : Nat) :
    decimalDigits? (Nat.toDigits 10 n) = some (Nat.toDigits 10 n) := by
  have hleading :
      ¬(1 < (Nat.toDigits 10 n).length && (Nat.toDigits 10 n).head? = some '0') = true := by
    simp only [Bool.and_eq_true, decide_eq_true_eq]
    rintro ⟨hlength, hhead⟩
    obtain rfl | hpos := Nat.eq_zero_or_pos n
    · exact absurd hlength (by decide)
    · exact Json.head?_toDigits_ne hpos hhead
  have hplain : plainDigits? (isDigitOf 10) (Nat.toDigits 10 n) = some (Nat.toDigits 10 n) :=
    plainDigits?_of_isDigit (fun d => isDigit_of_mem_toDigits) Nat.toDigits_ne_nil
  rw [decimalDigits?, hplain, Option.bind_eq_bind, Option.bind_some, if_neg hleading]

theorem sign_of_isDigit {ds : List Char} (h : ∀ d ∈ ds, d.isDigit) : sign ds = (false, ds) := by
  unfold sign
  split
  · exact absurd (h '-' List.mem_cons_self) (by decide)
  · exact absurd (h '+' List.mem_cons_self) (by decide)
  · rfl

theorem integer?_toDigits (h : n < Nat.pow 2 63) :
    integer? (Nat.toDigits 10 n) = some (n : Int) := by
  have hdigits : ∀ d ∈ Nat.toDigits 10 n, d.isDigit := fun d => isDigit_of_mem_toDigits
  have hdecimal := decimalDigits?_toDigits n
  have hvalue : numberOf 10 (Nat.toDigits 10 n) = n := by
    rw [numberOf_of_isDigit hdigits, Nat.ofDigitChars_ten_toDigits]
  have hrange : isInRange n := by
    simp only [isInRange, Bool.and_eq_true, decide_eq_true_eq]
    generalize Nat.pow 2 63 = limit at h
    omega
  generalize Nat.toDigits 10 n = ds at *
  have hsign := sign_of_isDigit hdigits
  unfold integer?
  split
  · exact absurd (hdigits 'x' (by simp)) (by decide)
  · exact absurd (hdigits 'o' (by simp)) (by decide)
  · exact absurd (hdigits 'b' (by simp)) (by decide)
  · rw [hsign]
    dsimp only
    rw [hdecimal, Option.bind_eq_bind, Option.bind_some, hvalue]
    exact if_pos hrange

theorem word_append {ds : List Char} (h : ∀ d ∈ ds, d.isDigit) (rest : List Char) :
    word (ds ++ '\n' :: rest) = (ds, '\n' :: rest) := by
  have hchars : ∀ d ∈ ds, isWordChar d := fun d hd => by
    simp [isWordChar, Char.isAlphanum, h d hd]
  have hbreak : isWordChar '\n' = false := by decide
  have htake : (ds ++ '\n' :: rest).takeWhile isWordChar = ds := by
    rw [List.takeWhile_append_of_pos hchars, List.takeWhile_cons_of_neg (by simp [hbreak]),
      List.append_nil]
  have hdrop : (ds ++ '\n' :: rest).dropWhile isWordChar = '\n' :: rest := by
    rw [List.dropWhile_append_of_pos hchars, List.dropWhile_cons_of_neg (by simp [hbreak])]
  simp [word, htake, hdrop]

theorem writes_integer (h : n < Nat.pow 2 63) : Writes (Nat.toDigits 10 n) (.integer n) := by
  have hdigits : ∀ d ∈ Nat.toDigits 10 n, d.isDigit := fun d => isDigit_of_mem_toDigits
  have hword : wordValue? (Nat.toDigits 10 n) = some (.integer n) := by
    have hname {c : Char} {name : List Char} (hc : ¬c.isDigit) : Nat.toDigits 10 n ≠ c :: name :=
      fun heq => hc (hdigits c (heq ▸ List.mem_cons_self))
    have htrue : Nat.toDigits 10 n ≠ "true".toList := hname (c := 't') (by decide)
    have hfalse : Nat.toDigits 10 n ≠ "false".toList := hname (c := 'f') (by decide)
    rw [wordValue?, if_neg htrue, if_neg hfalse, integer?_toDigits h]
  have hread (rest : List Char) := word_append hdigits rest
  have hne : Nat.toDigits 10 n ≠ [] := Nat.toDigits_ne_nil
  generalize Nat.toDigits 10 n = ds at *
  refine ⟨fun rest => ?_, fun hmem => absurd (hdigits _ hmem) (by decide)⟩
  cases ds with
  | nil => exact absurd rfl hne
  | cons d ds =>
    have hd := Json.toNat_of_isDigit (hdigits d List.mem_cons_self)
    have hne (c : Char) (hc : c.toNat < 48 ∨ 57 < c.toNat) : d ≠ c := by
      rintro rfl
      omega
    have hblank : isBlank d = false := by
      simp [isBlank, hne ' ' (by decide), hne '\t' (by decide)]
    have hopens : ¬(d = '"' || d = apostrophe) = true := by
      simp [hne '"' (by decide), hne apostrophe (by decide)]
    rw [List.cons_append, skipBlanks_cons hblank, value_maxNesting, valueWith, if_neg hopens,
      if_neg (hne '[' (by decide)), if_neg (hne '{' (by decide)), ← List.cons_append, hread]
    simp [hword]

/-! ## Lines -/

/-- A key, the value that a line gives it, and the text of the value. -/
structure Assignment where
  key : List Char
  text : List Char
  value : Value

namespace Assignment

/-- The line that gives the key its value. -/
def line (a : Assignment) : List Char := a.key ++ (" = ".toList ++ (a.text ++ ['\n']))

/-- The line is read as what it says: the key needs no quotes, and the text writes the value. -/
structure Proper (a : Assignment) : Prop where
  key_ne_nil : a.key ≠ []
  isKeyChar : ∀ c ∈ a.key, isKeyChar c
  writes : Writes a.text a.value

end Assignment

variable {a : Assignment} {as : List Assignment}

theorem isKeyChar_ne {c d : Char} (h : isKeyChar c) (hd : isKeyChar d = false) : c ≠ d := by
  rintro rfl
  exact Bool.false_ne_true (hd.symm.trans h)

theorem exists_line_eq (h : a.Proper) : ∃ c w, a.line = c :: w ∧ isKeyChar c := by
  obtain ⟨c, k, hkey⟩ := List.exists_cons_of_ne_nil h.key_ne_nil
  exact ⟨c, k ++ (" = ".toList ++ (a.text ++ ['\n'])), by rw [Assignment.line, hkey]; rfl,
    h.isKeyChar c (hkey ▸ List.mem_cons_self)⟩

theorem skipBlanks_cons_of_isKeyChar {c : Char} (h : isKeyChar c) :
    skipBlanks (c :: rest) = c :: rest := by
  have hblank : isBlank c = false := by
    simp [isBlank, isKeyChar_ne h (d := ' ') (by decide), isKeyChar_ne h (d := '\t') (by decide)]
  exact skipBlanks_cons hblank

theorem keyPart_append {k : List Char} (hk : k ≠ []) (h : ∀ c ∈ k, isKeyChar c) {d : Char}
    (hd : isKeyChar d = false) : keyPart (k ++ d :: rest) = some (k, d :: rest) := by
  have htake : (k ++ d :: rest).takeWhile isKeyChar = k := by
    rw [List.takeWhile_append_of_pos h, List.takeWhile_cons_of_neg (by simp [hd]), List.append_nil]
  have hdrop : (k ++ d :: rest).dropWhile isKeyChar = d :: rest := by
    rw [List.dropWhile_append_of_pos h, List.dropWhile_cons_of_neg (by simp [hd])]
  unfold keyPart
  rw [htake, hdrop]
  split
  · exact absurd rfl hk
  · rfl

/-- A key in front of an equals sign has one part. -/
theorem key_append {k : List Char} (hk : k ≠ []) (h : ∀ c ∈ k, isKeyChar c) :
    key (k ++ (" = ".toList ++ rest)) = some ([k], '=' :: ' ' :: rest) := by
  have hskip : skipBlanks (k ++ ' ' :: '=' :: ' ' :: rest) = k ++ ' ' :: '=' :: ' ' :: rest := by
    cases k with
    | nil => exact absurd rfl hk
    | cons c k =>
      rw [List.cons_append, skipBlanks_cons_of_isKeyChar (h c List.mem_cons_self)]
  show keyUpTo (78 + 1) (k ++ ' ' :: '=' :: ' ' :: rest) = _
  rw [keyUpTo, hskip, keyPart_append hk h (by decide)]
  rfl

theorem keyValue_append (h : a.Proper) (rest : List Char) :
    keyValue (value maxNesting) (a.line ++ rest) =
      some (([a.key], a.value), '\n' :: rest) := by
  have htext : a.line ++ rest = a.key ++ (" = ".toList ++ (a.text ++ '\n' :: rest)) := by
    simp [Assignment.line]
  have hskip : skipBlanks (' ' :: (a.text ++ '\n' :: rest)) =
      skipBlanks (a.text ++ '\n' :: rest) :=
    List.dropWhile_cons_of_pos rfl
  rw [keyValue, htext, key_append h.key_ne_nil h.isKeyChar, Option.bind_eq_bind, Option.bind_some]
  show (value maxNesting (skipBlanks (' ' :: (a.text ++ '\n' :: rest))) >>= _) = _
  rw [hskip, h.writes.value_eq]
  rfl

theorem line_append (h : a.Proper) (rest : List Char) :
    line (a.line ++ rest) = some (.assign [a.key] a.value, '\n' :: rest) := by
  have hbracket (w : List Char) : a.line ++ rest ≠ '[' :: w := by
    obtain ⟨c, w', hline, hc⟩ := exists_line_eq h
    rw [hline]
    exact fun heq => isKeyChar_ne hc (d := '[') (by decide) (List.cons.inj heq).1
  unfold line
  split
  · next heq => exact absurd heq (hbracket _)
  · next heq => exact absurd heq (hbracket _)
  · rw [keyValue_append h]
    rfl

theorem linesFrom_line (h : a.Proper) (fuel : Nat) (rest : List Char) :
    linesFrom (fuel + 1) (a.line ++ rest) =
      (linesFrom fuel rest).map (Line.assign [a.key] a.value :: ·) := by
  obtain ⟨c, w, hline, hc⟩ := exists_line_eq h
  have hstart : ¬(c = '\n' || c = '#') = true := by
    simp [isKeyChar_ne hc (d := '\n') (by decide), isKeyChar_ne hc (d := '#') (by decide)]
  have hread := line_append h rest
  have hend : endOfLine? ('\n' :: rest) = some rest := rfl
  rw [hline, List.cons_append] at hread ⊢
  rw [linesFrom, skipBlanks_cons_of_isKeyChar hc]
  dsimp only
  rw [if_neg hstart, hread, Option.bind_eq_bind, Option.bind_some]
  dsimp only
  rw [hend, Option.bind_eq_bind, Option.bind_some]
  cases linesFrom fuel rest <;> rfl

theorem linesFrom_lines (h : ∀ a ∈ as, a.Proper) {fuel : Nat}
    (hfuel : (as.flatMap Assignment.line).length < fuel) :
    linesFrom fuel (as.flatMap Assignment.line) =
      some (as.map fun a => Line.assign [a.key] a.value) := by
  induction as generalizing fuel with
  | nil =>
    obtain ⟨fuel, rfl⟩ := Nat.exists_eq_succ_of_ne_zero (Nat.ne_zero_of_lt hfuel)
    rfl
  | cons a as ih =>
    obtain ⟨ha, has⟩ := List.forall_mem_cons.1 h
    obtain ⟨fuel, rfl⟩ := Nat.exists_eq_succ_of_ne_zero (Nat.ne_zero_of_lt hfuel)
    rw [List.flatMap_cons] at hfuel ⊢
    have hline : 0 < a.line.length := by simp [Assignment.line]
    rw [linesFrom_line ha, ih has (by rw [List.length_append] at hfuel; omega)]
    rfl

theorem singleBreaks_eq (h : '\r' ∉ text) : singleBreaks text = text := by
  induction text with
  | nil => rfl
  | cons c text ih =>
    rw [List.mem_cons, not_or] at h
    unfold singleBreaks
    split
    · next heq => exact absurd (List.cons.inj heq).1.symm h.1
    · next heq =>
      obtain ⟨rfl, rfl⟩ := List.cons.inj heq
      rw [ih h.2]
    · next heq => cases heq

theorem not_mem_line (h : a.Proper) : '\r' ∉ a.line := by
  have hkey : '\r' ∉ a.key := fun hmem => absurd (h.isKeyChar _ hmem) (by decide)
  simp [Assignment.line, hkey, h.writes.not_mem_return]

theorem lines?_lines (h : ∀ a ∈ as, a.Proper) :
    lines? (as.flatMap Assignment.line) =
      some (as.map fun a => Line.assign [a.key] a.value) := by
  have hbreaks : singleBreaks (as.flatMap Assignment.line) = as.flatMap Assignment.line :=
    singleBreaks_eq fun hmem => by
      obtain ⟨a, ha, hline⟩ := List.mem_flatMap.1 hmem
      exact not_mem_line (h a ha) hline
  have hlines := linesFrom_lines h (Nat.lt_succ_self _)
  cases as with
  | nil => rfl
  | cons a as =>
    obtain ⟨c, w, hline, hc⟩ := exists_line_eq (h a List.mem_cons_self)
    have hmark : ¬c.toNat = 0xFEFF := by
      intro hmark
      have hc' : isKeyChar (Char.ofNat 0xFEFF) := by rwa [← hmark, Char.ofNat_toNat]
      exact absurd hc' (by decide)
    rw [List.flatMap_cons, hline, List.cons_append] at hbreaks hlines ⊢
    simp only [lines?, if_neg hmark, hbreaks]
    exact hlines

/-! ## Tables -/

theorem alter_of_not_mem {key : List Char} {entries : Entries} (h : key ∉ entries.map Prod.fst)
    (f : Option Value → Option Value) :
    entries.alter key f = (f none).map fun v => entries ++ [(key, v)] := by
  induction entries with
  | nil => rfl
  | cons e entries ih =>
    obtain ⟨k, v⟩ := e
    rw [List.map_cons, List.mem_cons, not_or] at h
    rw [Entries.alter, if_neg (Ne.symm h.1), ih h.2]
    cases f none <;> rfl

/-- A line with a new key adds its entry at the end of the outermost table. -/
theorem apply_assign {entries : Entries} (h : a.key ∉ entries.map Prod.fst) :
    (Line.assign [a.key] a.value).apply ⟨.header, entries⟩ [] =
      some (⟨.header, entries ++ [(a.key, a.value)]⟩, []) := by
  simp [Line.apply, Table.assign, Table.within, alter_of_not_mem h]

theorem foldlM_assigns (entries : Entries)
    (hkeys : (entries.map Prod.fst ++ as.map (·.key)).Nodup) :
    (as.map fun a => Line.assign [a.key] a.value).foldlM
        (fun (t, current) l => l.apply t current) (⟨.header, entries⟩, []) =
      some (⟨.header, entries ++ as.map fun a => (a.key, a.value)⟩, []) := by
  induction as generalizing entries with
  | nil => simp
  | cons a as ih =>
    have hnew : a.key ∉ entries.map Prod.fst := fun hmem =>
      List.disjoint_of_nodup_append hkeys hmem List.mem_cons_self
    have hrest := ih (entries ++ [(a.key, a.value)]) (by simpa using hkeys)
    simp only [List.map_cons, List.foldlM_cons, apply_assign hnew, Option.bind_eq_bind,
      Option.bind_some]
    rw [hrest, List.append_assoc]
    rfl

theorem tableOf?_assigns (hkeys : (as.map (·.key)).Nodup) :
    tableOf? (as.map fun a => Line.assign [a.key] a.value) =
      some ⟨.header, as.map fun a => (a.key, a.value)⟩ := by
  rw [tableOf?, Table.empty, foldlM_assigns [] (by simpa using hkeys)]
  rfl

/-- Lines that each give a new key its value are read as the table of these keys and values. -/
theorem read?_lines (h : ∀ a ∈ as, a.Proper) (hkeys : (as.map (·.key)).Nodup) :
    read? (as.flatMap Assignment.line) = some ⟨.header, as.map fun a => (a.key, a.value)⟩ := by
  rw [read?, lines?_lines h, Option.bind_eq_bind, Option.bind_some, tableOf?_assigns hkeys]

end SyntaxGateway.Toml
