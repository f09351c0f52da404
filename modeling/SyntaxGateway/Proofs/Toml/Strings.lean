import Mathlib
import SyntaxGateway.Toml.Quoted

/-!
# Strings of TOML are read as they were written

**Theorem (`string_quote`).** What is written as a string is read as the same text, whatever
characters it has, in front of anything that is no quote.

Each form of string is read back for the texts that it shows (`Form.Shows`), and a text is written
in a form that shows it (`shows_ofText`). Basic strings show all texts, as an escape is read as the
character that it stands for (`escapes_of_escapeOf?`). In a string of several lines, quotes of the
text must not be taken for the closing ones: this happens only at the end of the text, and then
those in front of the last three belong to it (`closing?_eq`).
-/

namespace SyntaxGateway.Toml

variable {text rest w : List Char} {c q : Char} {lines : Bool}

/-! ## Escapes -/

/-- A code point below 128 is read from its digits. -/
theorem codePoint?_capitalDigits (rest : List Char) {n : Nat} (h : n < 128) :
    codePoint? 4 ('0' :: '0' :: capitalDigit (n / 16) :: capitalDigit (n % 16) :: rest) =
      some (Char.ofNat n) := by
  have hdigits : ∀ n < 128, codePoint? 4 ['0', '0', capitalDigit (n / 16), capitalDigit (n % 16)] =
      some (Char.ofNat n) := by
    decide
  exact hdigits n h

theorem lt_of_isControl (h : isControl c) : c.toNat < 128 := by
  simp only [isControl, Bool.or_eq_true, Bool.and_eq_true, decide_eq_true_eq] at h
  omega

/-- Behind a backslash, `e` stands for `c`: it is read as that, and nothing in it ends a line. -/
structure Escapes (e : List Char) (c : Char) : Prop where
  escaped?_eq : ∀ rest, escaped? (e ++ rest) = some (c, e.length)
  joined?_eq : ∀ rest, joined? (e ++ rest) = none
  not_isControl : ∀ d ∈ e, ¬isControl d

theorem escapes_letter {d : Char} (hescaped : ∀ rest, escaped? (d :: rest) = some (c, 1))
    (hd : ¬isBlank d ∧ d ≠ '\n' ∧ ¬isControl d) : Escapes [d] c := by
  obtain ⟨hblank, hbreak, hcontrol⟩ := hd
  refine ⟨hescaped, fun rest => ?_, List.forall_mem_singleton.2 hcontrol⟩
  rw [List.singleton_append, joined?, List.dropWhile_cons_of_neg hblank]
  split
  · next heq => exact absurd (List.cons.inj heq).1 hbreak
  · rfl

theorem escapes_of_isControl (h : isControl c) :
    Escapes ['u', '0', '0', capitalDigit (c.toNat / 16), capitalDigit (c.toNat % 16)] c := by
  have hlt := lt_of_isControl h
  have hdigit : ∀ n < 16, ¬isControl (capitalDigit n) := by decide
  refine ⟨fun rest => ?_, fun _ => rfl, ?_⟩
  · have hcode := codePoint?_capitalDigits rest hlt
    rw [Char.ofNat_toNat] at hcode
    exact congrArg (Option.map (·, 5)) hcode
  · have hhigh := hdigit (c.toNat / 16) (by omega)
    have hlow := hdigit (c.toNat % 16) (by omega)
    have hu : ¬isControl 'u' := by decide
    have hzero : ¬isControl '0' := by decide
    simp [hu, hzero, hhigh, hlow]

theorem escapes_of_escapeOf? {t : List Char} (h : escapeOf? lines c = some t) :
    ∃ e, t = '\\' :: e ∧ Escapes e c := by
  have heq {n : Nat} (hn : c.toNat = n) : c = Char.ofNat n := by rw [← hn, Char.ofNat_toNat]
  unfold escapeOf? at h
  split_ifs at h with hb ht hn hlines hf hr hbackslash hcontrol <;> obtain rfl := Option.some.inj h
  · exact ⟨_, rfl, escapes_letter (fun _ => by rw [heq hb]; rfl) (by decide)⟩
  · exact ⟨_, rfl, escapes_letter (fun _ => by rw [ht]; rfl) (by decide)⟩
  · exact ⟨_, rfl, escapes_letter (fun _ => by rw [hn]; rfl) (by decide)⟩
  · exact ⟨_, rfl, escapes_letter (fun _ => by rw [heq hf]; rfl) (by decide)⟩
  · exact ⟨_, rfl, escapes_letter (fun _ => by rw [hr]; rfl) (by decide)⟩
  · exact ⟨_, rfl, escapes_letter (fun _ => by rw [hbackslash]; rfl) (by decide)⟩
  · exact ⟨_, rfl, escapes_of_isControl hcontrol⟩

theorem plain_of_escapeOf? (h : escapeOf? lines c = none) :
    c ≠ '\\' ∧ (isControl c → lines = true ∧ c = '\n') := by
  unfold escapeOf? at h
  split_ifs at h <;> simp_all

/-- How a character is written in a basic string: a quote as it is, by an escape, or as it is where
nothing is special about it. -/
theorem escapeText_cases (lines : Bool) (run : Nat) (c : Char) (text : List Char) :
    (lines = true ∧ run < 2 ∧ c = '"' ∧
        escapeText lines run (c :: text) = '"' :: escapeText lines (run + 1) text) ∨
      (∃ e, Escapes e c ∧
        escapeText lines run (c :: text) = '\\' :: (e ++ escapeText lines 0 text)) ∨
      c ≠ '"' ∧ c ≠ '\\' ∧ (isControl c → lines = true ∧ c = '\n') ∧
        escapeText lines run (c :: text) = c :: escapeText lines 0 text := by
  by_cases hquote : c = '"'
  · subst hquote
    by_cases hrun : (if lines then 2 else 0) < run + 1
    · refine .inr (.inl ⟨['"'], escapes_letter (fun _ => rfl) (by decide), ?_⟩)
      rw [escapeText, if_pos rfl, if_pos hrun]
      rfl
    · have hlines : lines = true := by
        by_contra hlines
        simp [hlines] at hrun
      refine .inl ⟨hlines, ?_, rfl, by rw [escapeText, if_pos rfl, if_neg hrun]⟩
      simp only [hlines, if_true] at hrun
      omega
  · right
    cases hescape : escapeOf? lines c with
    | some t =>
      obtain ⟨e, rfl, he⟩ := escapes_of_escapeOf? hescape
      exact .inl ⟨e, he, by rw [escapeText, if_neg hquote, hescape]; rfl⟩
    | none =>
      obtain ⟨hbackslash, hcontrol⟩ := plain_of_escapeOf? hescape
      exact .inr ⟨hquote, hbackslash, hcontrol, by rw [escapeText, if_neg hquote, hescape]⟩

/-- A written text begins as itself, with a quote, or with an escape. -/
theorem head?_escapeText {run : Nat} {d : Char} (h : (escapeText lines run text).head? = some d) :
    text.head? = some d ∧ d ≠ '"' ∨ (lines = true ∧ run < 2 ∧ d = '"') ∨ d = '\\' := by
  cases text with
  | nil => simp [escapeText] at h
  | cons c text =>
    obtain ⟨hlines, hrun, -, htext⟩ | ⟨e, -, htext⟩ | ⟨hquote, -, -, htext⟩ :=
      escapeText_cases lines run c text <;> rw [htext] at h <;> obtain rfl := Option.some.inj h
    · exact .inr (.inl ⟨hlines, hrun, rfl⟩)
    · exact .inr (.inr rfl)
    · exact .inl ⟨rfl, hquote⟩

/-- Of the controls, only line breaks are written as they are. -/
theorem eq_newline_of_mem_escapeText {run : Nat} {d : Char} (hd : d ∈ escapeText lines run text)
    (h : isControl d) : d = '\n' := by
  induction text generalizing run with
  | nil => simp [escapeText] at hd
  | cons c text ih =>
    obtain ⟨-, -, -, htext⟩ | ⟨e, he, htext⟩ | ⟨-, -, hcontrol, htext⟩ :=
      escapeText_cases lines run c text <;> rw [htext] at hd
    · rcases List.mem_cons.1 hd with rfl | hd
      · exact absurd h (by decide)
      · exact ih hd
    · rcases List.mem_cons.1 hd with rfl | hd
      · exact absurd h (by decide)
      · rcases List.mem_append.1 hd with hd | hd
        · exact absurd h (he.not_isControl d hd)
        · exact ih hd
    · rcases List.mem_cons.1 hd with rfl | hd
      · exact (hcontrol h).2
      · exact ih hd

/-! ## One line -/

theorem basicBody_escape {e : List Char} (h : Escapes e c) :
    basicBody ('\\' :: (e ++ w)) = prepend c (basicBody w) := by
  rw [basicBody]
  simp [h.escaped?_eq w]

theorem basicBody_plain (hquote : c ≠ '"') (hbackslash : c ≠ '\\') (hcontrol : ¬isControl c) :
    basicBody (c :: w) = prepend c (basicBody w) := by
  rw [basicBody]
  simp [hquote, hbackslash, hcontrol]

theorem basicBody_escapeText (text : List Char) (run : Nat) :
    basicBody (escapeText false run text ++ '"' :: rest) = some (text, rest) := by
  induction text generalizing run with
  | nil =>
    rw [escapeText, List.nil_append, basicBody]
    rfl
  | cons c text ih =>
    obtain ⟨hlines, -⟩ | ⟨e, he, htext⟩ | ⟨hquote, hbackslash, hcontrol, htext⟩ :=
      escapeText_cases false run c text
    · cases hlines
    · rw [htext, List.cons_append, List.append_assoc, basicBody_escape he, ih]
      rfl
    · rw [htext, List.cons_append,
        basicBody_plain hquote hbackslash fun h => Bool.false_ne_true (hcontrol h).1, ih]
      rfl

theorem literalBody_append (h : ∀ c ∈ text, c ≠ apostrophe ∧ ¬isControl c) :
    literalBody (text ++ apostrophe :: rest) = some (text, rest) := by
  induction text with
  | nil => rfl
  | cons c text ih =>
    obtain ⟨⟨hquote, hcontrol⟩, htext⟩ := List.forall_mem_cons.1 h
    rw [List.cons_append, literalBody, if_neg hquote, if_neg hcontrol, ih htext]
    rfl

/-! ## Several lines -/

/-- The closing quotes right behind the text. -/
theorem closing?_end (hrest : rest.head? ≠ some q) :
    closing? q ([q, q] ++ rest) = some ([], rest) := by
  cases rest with
  | nil => simp [closing?]
  | cons d rest =>
    have hd : d ≠ q := by simpa using hrest
    simp [closing?, hd]

/-- Behind a quote of the text, the closing quotes are found only if at most one more quote of the
text comes before them. -/
theorem closing?_eq (hw : ¬[q, q] <+: w) (hrest : rest.head? ≠ some q) :
    closing? q (w ++ (List.replicate 3 q ++ rest)) =
      if w = [] ∨ w = [q] then some (q :: w, rest) else none := by
  have hend : rest.takeWhile (· = q) = [] := by
    cases rest with
    | nil => rfl
    | cons d rest => simpa using hrest
  match w with
  | [] => simp [closing?, List.replicate, hend]
  | [a] =>
    by_cases ha : a = q
    · subst ha
      simp [closing?, List.replicate, hend]
    · simp [closing?, List.replicate, ha]
  | a :: b :: w =>
    have hab : ¬(a = q ∧ b = q) := by
      rintro ⟨rfl, rfl⟩
      exact hw ⟨w, rfl⟩
    simp only [List.cons_append, closing?, Bool.and_eq_true, decide_eq_true_eq, if_neg hab]
    simp

theorem literalLines_append (hcontrol : ∀ c ∈ text, isControl c → c = '\n')
    (hruns : ¬List.replicate 3 apostrophe <:+: text) (hrest : rest.head? ≠ some apostrophe) :
    literalLines (text ++ (List.replicate 3 apostrophe ++ rest)) = some (text, rest) := by
  induction text with
  | nil =>
    show literalLines (apostrophe :: ([apostrophe, apostrophe] ++ rest)) = _
    rw [literalLines, if_pos rfl, closing?_end hrest]
  | cons c text ih =>
    obtain ⟨hc, htext⟩ := List.forall_mem_cons.1 hcontrol
    have hread := ih htext fun h => hruns (h.trans (List.infix_cons (List.infix_refl text)))
    rw [List.cons_append, literalLines]
    split
    · next hquote =>
      subst hquote
      have hprefix : ¬[apostrophe, apostrophe] <+: text := fun h =>
        hruns (List.prefix_cons_inj apostrophe |>.2 h).isInfix
      rw [closing?_eq hprefix hrest, hread]
      split_ifs <;> rfl
    · rw [if_neg (by simpa using hc), hread]
      rfl

theorem basicLines_quote {r : Option (List Char × List Char)} (h : closing? '"' w = r) :
    basicLines ('"' :: w) = (r <|> prepend '"' (basicLines w)) := by
  rw [basicLines, if_pos rfl, h]
  cases r <;> rfl

theorem basicLines_escape {e : List Char} (h : Escapes e c) :
    basicLines ('\\' :: (e ++ w)) = prepend c (basicLines w) := by
  rw [basicLines, if_neg (by decide), if_pos rfl]
  split
  · next hsome => rw [h.joined?_eq] at hsome; cases hsome
  · simp [h.escaped?_eq w]

theorem basicLines_plain (hquote : c ≠ '"') (hbackslash : c ≠ '\\')
    (hcontrol : isControl c → c = '\n') : basicLines (c :: w) = prepend c (basicLines w) := by
  rw [basicLines, if_neg hquote, if_neg hbackslash, if_neg (by simpa using hcontrol)]

/-- At most two quotes in a row are written without an escape. -/
theorem not_isPrefix_escapeText {run : Nat} (h : 0 < run) (text : List Char) :
    ¬['"', '"'] <+: escapeText true run text := by
  cases text with
  | nil => simp [escapeText]
  | cons c text =>
    intro hprefix
    obtain ⟨-, hrun, -, htext⟩ | ⟨e, -, htext⟩ | ⟨hquote, -, -, htext⟩ :=
      escapeText_cases true run c text <;> rw [htext, List.cons_prefix_cons] at hprefix
    · obtain ⟨w, hw⟩ := hprefix.2
      have hsecond : (escapeText true (run + 1) text).head? = some '"' := by
        rw [← hw]
        rfl
      obtain ⟨-, hne⟩ | ⟨-, hrun', -⟩ | hne := head?_escapeText hsecond
      · exact hne rfl
      · omega
      · exact absurd hne (by decide)
    · exact absurd hprefix.1 (by decide)
    · exact hquote hprefix.1.symm

theorem ne_nil_of_escapeText_cons (run : Nat) (c : Char) (text : List Char) :
    escapeText lines run (c :: text) ≠ [] := by
  obtain ⟨-, -, -, htext⟩ | ⟨e, -, htext⟩ | ⟨-, -, -, htext⟩ :=
    escapeText_cases lines run c text <;> simp [htext]

/-- Nothing and a single quote are written only for themselves. -/
theorem eq_of_escapeText {run : Nat}
    (h : escapeText true run text = [] ∨ escapeText true run text = ['"']) :
    escapeText true run text = text := by
  cases text with
  | nil => rfl
  | cons c text =>
    have hsingle := h.resolve_left (ne_nil_of_escapeText_cons run c text)
    obtain ⟨-, -, rfl, htext⟩ | ⟨e, -, htext⟩ | ⟨hquote, -, -, htext⟩ :=
      escapeText_cases true run c text
    · rw [htext] at hsingle
      cases text with
      | nil => exact htext
      | cons d text =>
        exact absurd (List.cons.inj hsingle).2 (ne_nil_of_escapeText_cons (run + 1) d text)
    · rw [htext] at hsingle
      exact absurd (List.cons.inj hsingle).1 (by decide)
    · rw [htext] at hsingle
      exact absurd (List.cons.inj hsingle).1 hquote

theorem basicLines_escapeText (text : List Char) (run : Nat) (hrest : rest.head? ≠ some '"') :
    basicLines (escapeText true run text ++ (List.replicate 3 '"' ++ rest)) =
      some (text, rest) := by
  induction text generalizing run with
  | nil =>
    show basicLines ('"' :: (['"', '"'] ++ rest)) = _
    rw [basicLines_quote (closing?_end hrest)]
    rfl
  | cons c text ih =>
    obtain ⟨-, -, rfl, htext⟩ | ⟨e, he, htext⟩ | ⟨hquote, hbackslash, hcontrol, htext⟩ :=
      escapeText_cases true run c text
    · have hprefix := not_isPrefix_escapeText (Nat.succ_pos run) text
      rw [htext, List.cons_append, basicLines_quote (closing?_eq hprefix hrest), ih]
      split_ifs with hend
      · rw [eq_of_escapeText hend]
        rfl
      · rfl
    · rw [htext, List.cons_append, List.append_assoc, basicLines_escape he, ih]
      rfl
    · rw [htext, List.cons_append,
        basicLines_plain hquote hbackslash fun h => (hcontrol h).2, ih]
      rfl

/-! ## Forms -/

/-- The texts that a form of string can show. Basic strings have an escape for all that they cannot
show as it is. -/
def Form.Shows : Form → List Char → Prop
  | .basic, _ => True
  | .literal, text => ∀ c ∈ text, c ≠ apostrophe ∧ ¬isControl c
  | .basicLines, _ => True
  | .literalLines, text =>
    (∀ c ∈ text, isControl c → c = '\n') ∧ ¬List.replicate 3 apostrophe <:+: text

/-- A quote that is no more than twice in front opens a string of one line. -/
theorem string_cons (hw : ¬[q, q] <+: w) : string (q :: w) = lineString (q :: w) := by
  match w with
  | [] => rfl
  | [a] => rfl
  | a :: b :: w =>
    have hab : ¬(q = a ∧ a = b) := by
      rintro ⟨rfl, rfl⟩
      exact hw ⟨w, rfl⟩
    simp [string, hab]

/-- A text whose form does not start with a quote does not start with two in front of the closing
one. -/
theorem not_isPrefix_close (hw : w.head? ≠ some q) (hrest : rest.head? ≠ some q) :
    ¬[q, q] <+: w ++ q :: rest := by
  cases w with
  | nil =>
    intro h
    have hrest' := (List.cons_prefix_cons.1 h).2
    cases rest with
    | nil => simp at hrest'
    | cons d rest => exact hrest (congrArg some (List.cons_prefix_cons.1 hrest').1.symm)
  | cons c w =>
    intro h
    exact hw (congrArg some (List.cons_prefix_cons.1 h).1.symm)

theorem string_basicLines :
    string (List.replicate 3 '"' ++ w) = basicLines (dropFirstBreak w) := rfl

theorem string_literalLines :
    string (List.replicate 3 apostrophe ++ w) = literalLines (dropFirstBreak w) := rfl

/-- The line break in front of a text of several lines does not count. -/
theorem dropFirstBreak_firstBreak (hw : w.head? = some '\n' → '\n' ∈ text) :
    dropFirstBreak (firstBreak text ++ w) = w := by
  unfold firstBreak
  split_ifs with hbreak
  · rfl
  · cases w with
    | nil => rfl
    | cons c w =>
      have hc : c ≠ '\n' := by
        rintro rfl
        exact hbreak (List.contains_iff_mem.2 (hw rfl))
      rw [List.nil_append, dropFirstBreak]
      simpa using hc

/-- A form is read back for the texts that it shows. -/
theorem string_write {form : Form} (h : form.Shows text)
    (hrest : rest.head? ≠ some '"' ∧ rest.head? ≠ some apostrophe) :
    string (form.write text ++ rest) = some (text, rest) := by
  cases form with
  | basic =>
    have hhead : (escapeText false 0 text).head? ≠ some '"' := by
      intro hhead
      obtain ⟨-, hne⟩ | ⟨hlines, -⟩ | hne := head?_escapeText hhead
      · exact hne rfl
      · cases hlines
      · exact absurd hne (by decide)
    simp only [Form.write, List.append_assoc, List.cons_append, List.nil_append]
    rw [string_cons (not_isPrefix_close hhead hrest.1)]
    exact basicBody_escapeText text 0
  | literal =>
    have hhead : text.head? ≠ some apostrophe := fun hhead =>
      (h _ (List.mem_of_mem_head? hhead)).1 rfl
    simp only [Form.write, List.append_assoc, List.cons_append, List.nil_append]
    rw [string_cons (not_isPrefix_close hhead hrest.2)]
    exact literalBody_append h
  | basicLines =>
    simp only [Form.write, List.append_assoc]
    rw [string_basicLines, dropFirstBreak_firstBreak, basicLines_escapeText text 0 hrest.1]
    intro hhead
    rw [List.head?_append, Option.or_eq_some_iff] at hhead
    obtain hhead | ⟨-, hhead⟩ := hhead
    · obtain ⟨hbreak, -⟩ | ⟨-, -, hne⟩ | hne := head?_escapeText hhead
      · exact List.mem_of_mem_head? hbreak
      · exact absurd hne (by decide)
      · exact absurd hne (by decide)
    · exact absurd (Option.some.inj hhead) (by decide)
  | literalLines =>
    simp only [Form.write, List.append_assoc]
    rw [string_literalLines, dropFirstBreak_firstBreak, literalLines_append h.1 h.2 hrest.2]
    intro hhead
    rw [List.head?_append, Option.or_eq_some_iff] at hhead
    obtain hhead | ⟨-, hhead⟩ := hhead
    · exact List.mem_of_mem_head? hhead
    · exact absurd (Option.some.inj hhead) (by decide)

/-- Of the controls, only line breaks are written as they are. -/
theorem eq_newline_of_mem_write {form : Form} (h : form.Shows text) {d : Char}
    (hd : d ∈ form.write text) (hcontrol : isControl d) : d = '\n' := by
  have hquote : ¬isControl '"' := by decide
  have hapostrophe : ¬isControl apostrophe := by decide
  have hbreak : d ∈ firstBreak text → d = '\n' := by
    unfold firstBreak
    split_ifs <;> simp
  cases form with
  | basic =>
    simp only [Form.write, List.mem_append, List.mem_singleton] at hd
    obtain (rfl | hd) | rfl := hd
    · exact absurd hcontrol hquote
    · exact eq_newline_of_mem_escapeText hd hcontrol
    · exact absurd hcontrol hquote
  | literal =>
    simp only [Form.write, List.mem_append, List.mem_singleton] at hd
    obtain (rfl | hd) | rfl := hd
    · exact absurd hcontrol hapostrophe
    · exact absurd hcontrol (h d hd).2
    · exact absurd hcontrol hapostrophe
  | basicLines =>
    simp only [Form.write, List.mem_append, List.mem_replicate] at hd
    obtain ((⟨-, rfl⟩ | hd) | hd) | ⟨-, rfl⟩ := hd
    · exact absurd hcontrol hquote
    · exact hbreak hd
    · exact eq_newline_of_mem_escapeText hd hcontrol
    · exact absurd hcontrol hquote
  | literalLines =>
    simp only [Form.write, List.mem_append, List.mem_replicate] at hd
    obtain ((⟨-, rfl⟩ | hd) | hd) | ⟨-, rfl⟩ := hd
    · exact absurd hcontrol hapostrophe
    · exact hbreak hd
    · exact h.1 d hd hcontrol
    · exact absurd hcontrol hapostrophe

/-! ## The form of a text -/

/-- The longest run so far and the run that is under way, behind one more character. -/
def countRun (c : Char) (runs : Nat × Nat) (d : Char) : Nat × Nat :=
  if d = c then (max runs.1 (runs.2 + 1), runs.2 + 1) else (runs.1, 0)

theorem longestRun_eq (c : Char) (text : List Char) :
    longestRun c text = (text.foldl (countRun c) (0, 0)).1 := rfl

theorem le_foldl_countRun (text : List Char) (runs : Nat × Nat) :
    runs.1 ≤ (text.foldl (countRun c) runs).1 := by
  induction text generalizing runs with
  | nil => exact Nat.le_refl _
  | cons d text ih =>
    refine Nat.le_trans ?_ (ih (countRun c runs d))
    unfold countRun
    split_ifs
    · exact Nat.le_max_left _ _
    · exact Nat.le_refl _

theorem le_foldl_replicate (runs : Nat × Nat) (count : Nat) :
    runs.2 + (count + 1) ≤ ((List.replicate (count + 1) c).foldl (countRun c) runs).1 := by
  induction count generalizing runs with
  | zero => simp [countRun]
  | succ count ih =>
    have hnext : (countRun c runs c).2 = runs.2 + 1 := by simp [countRun]
    have hrun := ih (countRun c runs c)
    rw [List.replicate_succ, List.foldl_cons]
    omega

/-- A run of a character is no longer than the longest one. -/
theorem le_longestRun {count : Nat} (h : List.replicate (count + 1) c <:+: text) :
    count + 1 ≤ longestRun c text := by
  obtain ⟨before, after, rfl⟩ := h
  rw [longestRun_eq, List.foldl_append, List.foldl_append]
  have hrun := le_foldl_replicate (c := c) (before.foldl (countRun c) (0, 0)) count
  exact (Nat.le_trans (Nat.le_add_left _ _) hrun).trans (le_foldl_countRun after _)

theorem shows_ofText (text : List Char) : (Form.ofText text).Shows text := by
  have hcontrol (h : (text.any fun c => isControl c && c ≠ '\n') = false) :
      ∀ c ∈ text, isControl c → c = '\n' := by
    simpa using h
  simp only [Form.ofText]
  split_ifs with hbasic hliteral hlines hliteralLines hbreaks
  · trivial
  · simp only [Bool.and_eq_true, Bool.not_eq_true', decide_eq_true_eq] at hliteral
    obtain ⟨⟨hnone, hapostrophes⟩, hbreaks⟩ := hliteral
    refine fun c hc => ⟨?_, fun h => ?_⟩
    · rintro rfl
      have hrun : 0 + 1 ≤ longestRun apostrophe text :=
        le_longestRun ((List.singleton_infix_iff _ _).2 hc)
      omega
    · rw [hcontrol hnone c hc h] at hc
      simp [hc] at hbreaks
  · trivial
  · simp only [Bool.and_eq_true, Bool.not_eq_true', decide_eq_true_eq] at hliteralLines
    refine ⟨hcontrol hliteralLines.1, fun h => ?_⟩
    have hrun := le_longestRun h
    omega
  · trivial
  · trivial

/-- What is written as a string is read as the same text. -/
theorem string_quote (text : List Char)
    (hrest : rest.head? ≠ some '"' ∧ rest.head? ≠ some apostrophe) :
    string (quote text ++ rest) = some (text, rest) :=
  string_write (shows_ofText text) hrest

theorem exists_quote_eq (text : List Char) :
    ∃ c w, quote text = c :: w ∧ (c = '"' ∨ c = apostrophe) := by
  unfold quote
  cases Form.ofText text with
  | basic => exact ⟨_, _, rfl, .inl rfl⟩
  | literal => exact ⟨_, _, rfl, .inr rfl⟩
  | basicLines => exact ⟨_, _, rfl, .inl rfl⟩
  | literalLines => exact ⟨_, _, rfl, .inr rfl⟩

end SyntaxGateway.Toml
