import Mathlib
import SyntaxGateway.Proofs.Toml.Documents
import SyntaxGateway.Settings.Toml

/-!
# Settings are read from TOML as they were written

**Theorem (`ofToml?_of_toToml?`).** The document that settings are written to is read as the same
settings, whatever texts they have and whichever of them are left open.

**Theorem (`toToml?_eq_none_iff`).** Settings cannot be written if and only if the time to wait is
beyond the integers of TOML.

The document has one line for each setting that is given (`assignments`), so it is read as the table
of these, and a key is found in the table exactly if its setting is given.
-/

namespace SyntaxGateway.Settings

open Toml (Assignment Entries)

variable {s : Settings}

/-- The port is a number of 16 bits, and the time to wait one of 64 bits. -/
structure Fits (s : Settings) : Prop where
  port_lt : ∀ n ∈ s.port, n < Nat.pow 2 16
  timeout_lt : ∀ n ∈ s.timeoutSeconds, n < Nat.pow 2 64

/-- The port is an integer of TOML. -/
theorem Fits.port_lt_pow (h : s.Fits) : ∀ n ∈ s.port, n < Nat.pow 2 63 := fun n hn =>
  (h.port_lt n hn).trans (by decide)

/-! ## Lines -/

/-- The line of a setting that is a text, if it is given. -/
def textLine (key : String) (value : Option String) : List Assignment :=
  (value.map fun v => ⟨key.toList, Toml.quote v.toList, .string v.toList⟩).toList

/-- The line of a setting that is a number, if it is given. -/
def numberLine (key : String) (value : Option Nat) : List Assignment :=
  (value.map fun n => ⟨key.toList, Nat.toDigits 10 n, .integer n⟩).toList

/-- The lines of settings. -/
def assignments (s : Settings) : List Assignment :=
  textLine "host" s.host ++ numberLine "port" s.port ++ textLine "uast_url" s.serviceUrl ++
    numberLine "timeout_secs" s.timeoutSeconds

theorem tomlLine_text (key : String) (value : Option String) :
    tomlLine key (value.map fun v => Toml.quote v.toList) =
      (textLine key value).flatMap Assignment.line := by
  cases value <;> simp [tomlLine, textLine, Assignment.line]

theorem tomlLine_number (key : String) (value : Option Nat) :
    tomlLine key (value.map (Nat.toDigits 10)) =
      (numberLine key value).flatMap Assignment.line := by
  cases value <;> simp [tomlLine, numberLine, Assignment.line]

theorem tomlInteger?_eq (n : Nat) :
    tomlInteger? n = if n < Nat.pow 2 63 then some (Nat.toDigits 10 n) else none := by
  have htext : (toString n).toList = Nat.toDigits 10 n := String.toList_ofList
  rw [tomlInteger?, htext]

theorem mapM_tomlInteger? {value : Option Nat} (h : ∀ n ∈ value, n < Nat.pow 2 63) :
    value.mapM tomlInteger? = some (value.map (Nat.toDigits 10)) := by
  cases value with
  | none => rfl
  | some n =>
    have hn := tomlInteger?_eq n
    rw [if_pos (h n rfl)] at hn
    simp [Option.mapM, hn]

/-! ## Writing -/

/-- Settings whose time to wait is an integer of TOML are written line by line. -/
theorem toToml?_eq (h : s.Fits) (htimeout : ∀ n ∈ s.timeoutSeconds, n < Nat.pow 2 63) :
    s.toToml? = some (String.ofList (s.assignments.flatMap Assignment.line)) := by
  rw [toToml?, mapM_tomlInteger? h.port_lt_pow, mapM_tomlInteger? htimeout]
  simp only [assignments, List.flatMap_append, ← tomlLine_text, ← tomlLine_number]
  rfl

theorem toToml?_eq_none {n : Nat} (hn : n ∈ s.timeoutSeconds) (hlarge : Nat.pow 2 63 ≤ n) :
    s.toToml? = none := by
  have hrefused := tomlInteger?_eq n
  rw [if_neg (Nat.not_lt.2 hlarge)] at hrefused
  have hnone : s.timeoutSeconds.mapM tomlInteger? = none := by
    rw [Option.mem_def.1 hn]
    exact congrArg (Option.map some) hrefused
  rw [toToml?, hnone]
  cases s.port.mapM tomlInteger? <;> rfl

theorem toToml?_eq_none_iff (h : s.Fits) :
    s.toToml? = none ↔ ∃ n ∈ s.timeoutSeconds, Nat.pow 2 63 - 1 < n := by
  constructor
  · intro hnone
    by_contra hsmall
    push Not at hsmall
    have htimeout : ∀ n ∈ s.timeoutSeconds, n < Nat.pow 2 63 := fun n hn =>
      Nat.lt_of_le_sub_one (by decide) (hsmall n hn)
    rw [toToml?_eq h htimeout] at hnone
    cases hnone
  · rintro ⟨n, hn, hlarge⟩
    exact toToml?_eq_none hn (Nat.le_of_pred_lt hlarge)

/-! ## Reading -/

/-- The key needs no quotes. -/
def IsBare (key : String) : Prop := key.toList ≠ [] ∧ ∀ c ∈ key.toList, Toml.isKeyChar c

theorem proper_textLine {key : String} (hkey : IsBare key) (value : Option String) :
    ∀ a ∈ textLine key value, a.Proper := by
  intro a ha
  obtain ⟨v, -, rfl⟩ := Option.map_eq_some_iff.1 (Option.mem_toList.1 ha)
  exact ⟨hkey.1, hkey.2, Toml.writes_quote v.toList⟩

theorem proper_numberLine {key : String} (hkey : IsBare key) {value : Option Nat}
    (h : ∀ n ∈ value, n < Nat.pow 2 63) : ∀ a ∈ numberLine key value, a.Proper := by
  intro a ha
  obtain ⟨n, hn, rfl⟩ := Option.map_eq_some_iff.1 (Option.mem_toList.1 ha)
  exact ⟨hkey.1, hkey.2, Toml.writes_integer (h n hn)⟩

theorem proper_assignments (h : s.Fits) (htimeout : ∀ n ∈ s.timeoutSeconds, n < Nat.pow 2 63) :
    ∀ a ∈ s.assignments, a.Proper := by
  intro a ha
  simp only [assignments, List.mem_append] at ha
  obtain ((ha | ha) | ha) | ha := ha
  · exact proper_textLine (by simp [IsBare, Toml.isKeyChar, Char.isAlphanum]) s.host a ha
  · exact proper_numberLine (by simp [IsBare, Toml.isKeyChar, Char.isAlphanum]) h.port_lt_pow a ha
  · exact proper_textLine (by simp [IsBare, Toml.isKeyChar]) s.serviceUrl a ha
  · exact proper_numberLine (by simp [IsBare, Toml.isKeyChar]) htimeout a ha

theorem nodup_keys (s : Settings) : (s.assignments.map (·.key)).Nodup := by
  have htext (key : String) (value : Option String) :
      ((textLine key value).map (·.key)).Sublist [key.toList] := by
    cases value <;> simp [textLine]
  have hnumber (key : String) (value : Option Nat) :
      ((numberLine key value).map (·.key)).Sublist [key.toList] := by
    cases value <;> simp [numberLine]
  have hsublist := (((htext "host" s.host).append (hnumber "port" s.port)).append
    (htext "uast_url" s.serviceUrl)).append (hnumber "timeout_secs" s.timeoutSeconds)
  simp only [← List.map_append] at hsublist
  exact hsublist.nodup (by decide)

/-- The entries of settings in their table. -/
def entries (s : Settings) : Entries := s.assignments.map fun a => (a.key, a.value)

theorem textOf?_eq {es : Entries} {key : String} {value : Option String}
    (h : es.lookup key.toList = value.map fun v => Toml.Value.string v.toList) :
    textOf? es key = some value := by
  rw [textOf?, h]
  cases value with
  | none => rfl
  | some v => exact congrArg (fun u => some (some u)) String.ofList_toList

theorem naturalOf?_eq {es : Entries} {key : String} {value : Option Nat} {limit : Nat}
    (h : es.lookup key.toList = value.map fun n : Nat => Toml.Value.integer n)
    (hlimit : ∀ n ∈ value, n < limit) : naturalOf? es key limit = some value := by
  rw [naturalOf?, h]
  cases value with
  | none => rfl
  | some n =>
    have hn : n < limit := hlimit n rfl
    simp [hn]

theorem lookup_singleton (key key' : String) (v : Toml.Value) :
    List.lookup key'.toList [(key.toList, v)] = if key' = key then some v else none := by
  by_cases hkey : key' = key
  · simp [hkey]
  · have hne : (key'.toList == key.toList) = false :=
      beq_eq_false_iff_ne.2 fun heq => hkey (String.toList_inj.1 heq)
    rw [List.lookup_cons, hne, if_neg hkey]
    rfl

theorem lookup_textLine (key key' : String) (value : Option String) :
    ((textLine key value).map fun a => (a.key, a.value)).lookup key'.toList =
      if key' = key then value.map fun v => Toml.Value.string v.toList else none := by
  cases value with
  | none => simp [textLine]
  | some v => exact lookup_singleton key key' (.string v.toList)

theorem lookup_numberLine (key key' : String) (value : Option Nat) :
    ((numberLine key value).map fun a => (a.key, a.value)).lookup key'.toList =
      if key' = key then value.map fun n : Nat => Toml.Value.integer n else none := by
  cases value with
  | none => simp [numberLine]
  | some n => exact lookup_singleton key key' (.integer n)

theorem lookup_entries (s : Settings) (key : String) :
    s.entries.lookup key.toList =
      (((if key = "host" then s.host.map fun v => Toml.Value.string v.toList else none).or
        (if key = "port" then s.port.map fun n : Nat => Toml.Value.integer n else none)).or
        (if key = "uast_url" then s.serviceUrl.map fun v => Toml.Value.string v.toList
          else none)).or
        (if key = "timeout_secs" then s.timeoutSeconds.map fun n : Nat => Toml.Value.integer n
          else none) := by
  simp only [entries, assignments, List.map_append, List.lookup_append, lookup_textLine,
    lookup_numberLine]

/-- The entries of settings are read as the settings: no two lines have the same key. -/
theorem ofEntries?_entries (h : s.Fits) : ofEntries? s.entries = some s := by
  have hhost : textOf? s.entries "host" = some s.host :=
    textOf?_eq ((s.lookup_entries "host").trans (by simp))
  have hport : naturalOf? s.entries "port" (Nat.pow 2 16) = some s.port :=
    naturalOf?_eq ((s.lookup_entries "port").trans (by simp)) h.port_lt
  have hurl : textOf? s.entries "uast_url" = some s.serviceUrl :=
    textOf?_eq ((s.lookup_entries "uast_url").trans (by simp))
  have htimeout : naturalOf? s.entries "timeout_secs" (Nat.pow 2 64) = some s.timeoutSeconds :=
    naturalOf?_eq ((s.lookup_entries "timeout_secs").trans (by simp)) h.timeout_lt
  rw [ofEntries?, hhost, hport, hurl, htimeout]
  rfl

/-- What is written is read as the same settings. -/
theorem ofToml?_of_toToml? {text : String} (h : s.Fits) (htext : s.toToml? = some text) :
    ofToml? text = some s := by
  have htimeout : ∀ n ∈ s.timeoutSeconds, n < Nat.pow 2 63 := by
    intro n hn
    by_contra hlarge
    rw [toToml?_eq_none hn (Nat.not_lt.1 hlarge)] at htext
    cases htext
  obtain rfl := Option.some.inj ((toToml?_eq h htimeout).symm.trans htext)
  have hread := Toml.read?_lines (proper_assignments h htimeout) (nodup_keys s)
  rw [ofToml?, String.toList_ofList, hread]
  exact ofEntries?_entries h

end SyntaxGateway.Settings
