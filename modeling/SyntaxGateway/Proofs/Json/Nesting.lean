import Mathlib
import SyntaxGateway.Proofs.Json.Records
import SyntaxGateway.Proofs.Json.Writer

/-!
# Written texts are read back if they do not nest too deep

On a text that was written from a value, a reader for values of its shape either finds that value or
runs out of levels, and which of the two it is depends on the number of levels alone (`Needs`). It
does so in front of anything that does not continue a number (`Finds`).

Parts that are read one after the other need as many levels as the one that needs most
(`Needs.bind`), and each array or object that is entered takes one more (`Needs.entered`). With
these two, each way of putting values together has its lemma: `finds_nullable`, `finds_list`,
`finds_dictionary` and `finds_record`.
-/

namespace SyntaxGateway.Json

variable {α β : Type} {levels need : Nat} {rest t : Bytes} {a : α} {b : β}

/-! ## Levels -/

/-- With `need` levels this comes to `a`, and with fewer it finds too much nesting. -/
structure Needs (levels need : Nat) (x : Except Fault α) (a : α) : Prop where
  ok : need ≤ levels → x = .ok a
  fails : levels < need → ∃ fault, x = .error fault ∧ fault.problem = .tooNested

theorem needs_ok (a : α) : Needs levels 0 (.ok a) a :=
  ⟨fun _ => rfl, fun h => absurd h (Nat.not_lt_zero _)⟩

theorem Needs.bind {x : Except Fault α} {f : α → Except Fault β} {n m : Nat}
    (h : Needs levels n x a) (hf : Needs levels m (f a) b) :
    Needs levels (max n m) (x >>= f) b := by
  constructor
  · intro hlevels
    rw [h.ok (by omega)]
    exact hf.ok (by omega)
  · intro hlevels
    by_cases hn : n ≤ levels
    · rw [h.ok hn]
      exact hf.fails (by omega)
    · obtain ⟨fault, hx, hproblem⟩ := h.fails (by omega)
      exact ⟨fault, by rw [hx]; rfl, hproblem⟩

theorem Needs.map {x : Except Fault α} (h : Needs levels need x a) (f : α → β) :
    Needs levels need (x >>= fun a => pure (f a)) (f a) := by
  rw [← Nat.max_zero need]
  exact h.bind (needs_ok (f a))

theorem Needs.inside {x : Except Fault α} (h : Needs levels need x a) (step : PathStep) :
    Needs levels need (inside step x) a := by
  constructor
  · intro hlevels
    rw [h.ok hlevels]
    rfl
  · intro hlevels
    obtain ⟨fault, hx, hproblem⟩ := h.fails hlevels
    exact ⟨{ fault with path := step :: fault.path }, by rw [hx]; rfl, hproblem⟩

/-- What is inside an array or object has a level less. -/
theorem Needs.entered {f : Bytes → Except Fault α} {o : UInt8}
    (h : ∀ inner, levels = inner + 1 → Needs inner need (f t) a) :
    Needs levels (need + 1) (enter levels (o :: t) >>= f) a := by
  cases levels with
  | zero => exact ⟨fun h => absurd h (by omega), fun _ => ⟨_, rfl, rfl⟩⟩
  | succ inner =>
    obtain ⟨hok, hfails⟩ := h inner rfl
    exact ⟨fun hlevels => hok (by omega), fun hlevels => hfails (by omega)⟩

/-- The levels that the deepest of some items needs. -/
def deepest (need : β → Nat) (items : List β) : Nat := (items.map need).foldr max 0

theorem deepest_const (items : List β) : deepest (fun _ => 0) items = 0 := by
  induction items with
  | nil => rfl
  | cons _ items ih => exact (Nat.zero_max _).trans ih

/-! ## Readers on texts -/

/-- In front of anything that does not continue a number, the reader finds this value in the text,
if it has the levels. -/
def Finds (p : Scan α) (levels need : Nat) (text : Bytes) (a : α) : Prop :=
  ∀ rest, Stops rest → Needs levels need (p (text ++ rest)) (a, rest)

theorem finds_string (s : String) : Finds string levels 0 (Utf8.ofString (quote s)) s := by
  intro rest _
  have hread : string ([] ++ (Utf8.ofString (quote s) ++ rest)) = .ok (s, rest) :=
    reads_string.complete blanks_nil (stringText_quote s)
  rw [List.nil_append] at hread
  rw [hread]
  exact needs_ok _

theorem finds_null (p : Scan α) : Finds (nullable p) levels 0 (0x6E :: ull) none := by
  intro rest _
  have hident : ident ull (ull ++ rest) = .ok rest := ident_eq_ok_iff.mpr rfl
  rw [List.cons_append, nullable, skipBlanks_cons rfl]
  simp only [hident]
  exact needs_ok _

theorem finds_nullable {p : Scan α} (h : Finds p levels need (0x7B :: t) a) :
    Finds (nullable p) levels need (0x7B :: t) (some a) := by
  intro rest hrest
  rw [List.cons_append, nullable, skipBlanks_cons rfl]
  exact (h rest hrest).map fun found => (some found.1, found.2)

/-! ## Arrays -/

section Arrays

variable {p : Scan α} {text : α → Bytes} {cost : α → Nat} {as : List α}

theorem needs_elementsFrom {before : List α} {fuel : Nat}
    (h : ∀ a ∈ as, Finds p levels (cost a) (text a) a) (hstarts : ∀ a ∈ as, Starts (text a))
    (hfuel : (separated before.isEmpty (as.map text)).length < fuel) :
    Needs levels (deepest cost as)
      (elementsFrom p fuel before (separated before.isEmpty (as.map text) ++ 0x5D :: rest))
      (before.reverse ++ as, rest) := by
  induction as generalizing before fuel with
  | nil =>
    cases fuel with
    | zero => cases hfuel
    | succ fuel =>
      have hnext : nextElement before.isEmpty (0x5D :: rest) = .ok (none, 0x5D :: rest) :=
        nextElement_close blanks_nil
      rw [List.append_nil]
      simp only [List.map_nil, separated, List.nil_append, elementsFrom, hnext]
      exact needs_ok _
  | cons a as ih =>
    cases fuel with
    | zero => cases hfuel
    | succ fuel =>
      obtain ⟨ha, has⟩ := List.forall_mem_cons.1 h
      obtain ⟨hstart, hstarts⟩ := List.forall_mem_cons.1 hstarts
      simp only [List.map_cons, separated, List.length_append] at hfuel
      have hlength := hstart.length_pos
      have hnext : nextElement before.isEmpty (comma before.isEmpty ++ (text a ++
          (separated false (as.map text) ++ 0x5D :: rest))) = .ok (some _, []) :=
        nextElement_lead (lead_comma _) hstart
      have hrest := @ih (a :: before) fuel has hstarts (show _ < fuel by
        simp only [List.isEmpty_cons]
        omega)
      simp only [List.map_cons, separated, List.append_assoc, elementsFrom, hnext]
      rw [List.reverse_cons, List.append_assoc] at hrest
      exact (ha _ (stops_separated _ .array)).bind hrest

theorem finds_list (h : ∀ inner, levels = inner + 1 → ∀ a ∈ as, Finds p inner (cost a) (text a) a)
    (hstarts : ∀ a ∈ as, Starts (text a)) :
    Finds (list levels p) levels (deepest cost as + 1)
      (0x5B :: (separated true (as.map text) ++ [0x5D])) as := by
  intro rest _
  rw [List.cons_append, List.append_assoc, list, skipBlanks_cons rfl]
  refine Needs.entered fun inner hinner => ?_
  exact needs_elementsFrom (h inner hinner) hstarts
    (Nat.lt_succ_of_le (List.sublist_append_left _ _).length_le)

end Arrays

/-! ## Objects -/

section Objects

variable {p : Scan α} {text : α → Bytes} {cost : α → Nat}

theorem length_memberText_pos (key : String) (value : Bytes) :
    0 < (memberText key value).length := by
  rw [memberText, List.length_append, List.length_cons]
  omega

/-- A member up to its value. -/
theorem nextKey_memberText (first : Bool) (key : String) (value : Bytes) :
    nextKey first (comma first ++ (memberText key value ++ rest)) =
      .ok (some key, 0x3A :: (value ++ rest)) := by
  rw [memberText, List.append_assoc, List.cons_append]
  exact nextKey_lead (lead_comma first) (stringText_quote key)

theorem colon_cons : colon (0x3A :: rest) = .ok rest :=
  colon_eq_ok_iff.mpr ⟨[], blanks_nil, rfl⟩

theorem needs_membersFrom {entries before : List (String × α)} {fuel : Nat}
    (h : ∀ e ∈ entries, Finds p levels (cost e.2) (text e.2) e.2)
    (hfuel : (separated before.isEmpty (entries.map fun e => memberText e.1 (text e.2))).length <
      fuel) :
    Needs levels (deepest (fun e => cost e.2) entries)
      (membersFrom p fuel before
        (separated before.isEmpty (entries.map fun e => memberText e.1 (text e.2)) ++ 0x7D :: rest))
      (before.reverse ++ entries, rest) := by
  induction entries generalizing before fuel with
  | nil =>
    cases fuel with
    | zero => cases hfuel
    | succ fuel =>
      have hnext : nextKey before.isEmpty (0x7D :: rest) = .ok (none, rest) :=
        nextKey_close blanks_nil
      rw [List.append_nil]
      simp only [List.map_nil, separated, List.nil_append, membersFrom, hnext]
      exact needs_ok _
  | cons e entries ih =>
    cases fuel with
    | zero => cases hfuel
    | succ fuel =>
      obtain ⟨he, hentries⟩ := List.forall_mem_cons.1 h
      simp only [List.map_cons, separated, List.length_append] at hfuel
      have hlength := length_memberText_pos e.1 (text e.2)
      have hrest := @ih (e :: before) fuel hentries (show _ < fuel by
        simp only [List.isEmpty_cons]
        omega)
      simp only [List.map_cons, separated, List.append_assoc, membersFrom, nextKey_memberText]
      rw [List.reverse_cons, List.append_assoc] at hrest
      simp only [bind, Except.bind, colon_cons]
      exact (he _ (stops_separated _ .object)).bind hrest

theorem finds_dictionary {entries : List (String × α)}
    (h : ∀ inner, levels = inner + 1 → ∀ e ∈ entries, Finds p inner (cost e.2) (text e.2) e.2) :
    Finds (dictionary levels p) levels (deepest (fun e => cost e.2) entries + 1)
      (0x7B :: (separated true (entries.map fun e => memberText e.1 (text e.2)) ++ [0x7D]))
      entries := by
  intro rest _
  rw [List.cons_append, List.append_assoc, dictionary, skipBlanks_cons rfl]
  refine Needs.entered fun inner hinner => ?_
  exact needs_membersFrom (h inner hinner)
    (Nat.lt_succ_of_le (List.sublist_append_left _ _).length_le)

end Objects

/-! ## Records -/

/-- A field as it is written: its name, the text of its value, what that value makes of the record,
and the levels that it needs. -/
structure WrittenField (α : Type) where
  name : String
  text : Bytes
  set : α → α
  need : Nat

namespace WrittenField

def member (w : WrittenField α) : Bytes := memberText w.name w.text

/-- The record that written fields make of `start`. -/
def apply (ws : List (WrittenField α)) (start : α) : α := ws.foldl (fun a w => w.set a) start

/-- The field is read from what is written. -/
structure IsFor (levels : Nat) (field : RecordField α) (w : WrittenField α) : Prop where
  name : field.name = w.name
  finds : Finds field.read levels w.need w.text w.set

theorem isFor_ofScan {p : Scan β} {name : String} {absence : Absence} {set : β → α → α}
    (h : Finds p levels need t b) :
    IsFor levels (.ofScan name absence p set) ⟨name, t, set b, need⟩ where
  name := rfl
  finds := by
    intro rest hrest
    exact (h rest hrest).map fun found => (set found.1, found.2)

variable {fields : List (RecordField α)} {ws : List (WrittenField α)}

theorem map_name (h : List.Forall₂ (IsFor levels) fields ws) :
    fields.map (·.name) = ws.map (·.name) := by
  induction h with
  | nil => rfl
  | cons hfor _ ih => rw [List.map_cons, List.map_cons, hfor.name, ih]

theorem exists_find? (h : List.Forall₂ (IsFor levels) fields ws) (hnodup : (ws.map (·.name)).Nodup)
    {w : WrittenField α} (hw : w ∈ ws) :
    ∃ field, fields.find? (·.name = w.name) = some field ∧ IsFor levels field w := by
  induction h with
  | nil => cases hw
  | @cons field v fields ws hfor _ ih =>
    rw [List.map_cons, List.nodup_cons] at hnodup
    rcases List.mem_cons.1 hw with rfl | hw
    · exact ⟨field, by simp [hfor.name], hfor⟩
    · have hne : field.name ≠ w.name := fun h =>
        hnodup.1 (hfor.name ▸ h ▸ List.mem_map_of_mem hw)
      obtain ⟨found, hfound, hfor⟩ := ih hnodup.2 hw
      exact ⟨found, by simpa [hne] using hfound, hfor⟩

end WrittenField

open WrittenField

variable {fields : List (RecordField α)} {ws : List (WrittenField α)}

/-- The fields that are left are found one after the other; behind the last none is missing. -/
theorem needs_recordMembersFrom {first : Bool} {seen : List String} {start : α} {fuel : Nat}
    (h : ∀ w ∈ ws, ∃ field, fields.find? (·.name = w.name) = some field ∧ IsFor levels field w)
    (hnodup : (ws.map (·.name)).Nodup) (hfresh : ∀ w ∈ ws, w.name ∉ seen)
    (hall : ∀ name ∈ fields.map (·.name), name ∈ seen ∨ name ∈ ws.map (·.name))
    (hfuel : (separated first (ws.map (·.member))).length < fuel) :
    Needs levels (deepest (·.need) ws)
      (recordMembersFrom fields fuel first seen start
        (separated first (ws.map (·.member)) ++ 0x7D :: rest))
      (apply ws start, rest) := by
  induction ws generalizing first seen start fuel with
  | nil =>
    cases fuel with
    | zero => cases hfuel
    | succ fuel =>
      have hnext : nextKey first (0x7D :: rest) = .ok (none, rest) := nextKey_close blanks_nil
      have hmissing : missing? fields seen = none := by
        simpa [missing?] using fun f hf _ => by simpa using hall f.name (List.mem_map_of_mem hf)
      simp only [List.map_nil, separated, List.nil_append, recordMembersFrom, hnext]
      simp only [bind, Except.bind, hmissing]
      exact needs_ok _
  | cons w ws ih =>
    cases fuel with
    | zero => cases hfuel
    | succ fuel =>
      obtain ⟨⟨field, hfind, hfor⟩, hlater⟩ := List.forall_mem_cons.1 h
      obtain ⟨hfreshw, hfresh⟩ := List.forall_mem_cons.1 hfresh
      rw [List.map_cons, List.nodup_cons] at hnodup
      simp only [List.map_cons, separated, List.length_append] at hfuel
      have hlength : 0 < w.member.length := length_memberText_pos _ _
      have hfresh' : ∀ v ∈ ws, v.name ∉ w.name :: seen := by
        intro v hv hmem
        rcases List.mem_cons.1 hmem with heq | hmem
        · exact hnodup.1 (heq ▸ List.mem_map_of_mem hv)
        · exact hfresh v hv hmem
      have hall' : ∀ name ∈ fields.map (·.name),
          name ∈ w.name :: seen ∨ name ∈ ws.map (·.name) := by
        intro name hname
        rcases hall name hname with hseen | hname
        · exact .inl (List.mem_cons_of_mem _ hseen)
        · rcases List.mem_cons.1 hname with rfl | hname
          · exact .inl List.mem_cons_self
          · exact .inr hname
      have hrest := @ih false (w.name :: seen) (w.set start) fuel hlater hnodup.2 hfresh' hall'
        (by omega)
      have hcontains : seen.contains w.name = false := by simpa using hfreshw
      have hvalue : Needs levels w.need (inside (.field w.name) (field.read (w.text ++
          (separated false (ws.map (·.member)) ++ 0x7D :: rest)))) _ :=
        (hfor.finds _ (stops_separated _ .object)).inside _
      simp only [List.map_cons, separated, List.append_assoc, recordMembersFrom, member,
        nextKey_memberText]
      simp only [bind, Except.bind, hfind, hcontains, colon_cons]
      exact hvalue.bind hrest

/-- A record with all its fields in their order. -/
theorem finds_record (h : List.Forall₂ (IsFor levels) fields ws)
    (hnodup : (ws.map (·.name)).Nodup) (name : String) (start : α) :
    Finds (record (levels + 1) name fields start) (levels + 1) (deepest (·.need) ws + 1)
      (0x7B :: (separated true (ws.map (·.member)) ++ [0x7D])) (apply ws start) := by
  intro rest _
  rw [List.cons_append, List.append_assoc, record, skipBlanks_cons rfl]
  refine Needs.entered fun inner hinner => ?_
  obtain rfl := Nat.succ.inj hinner
  have hall : ∀ name ∈ fields.map (·.name), name ∈ [] ∨ name ∈ ws.map (·.name) := by
    rw [map_name h]
    exact fun name hname => .inr hname
  exact needs_recordMembersFrom (fun w hw => exists_find? h hnodup hw) hnodup (by simp) hall
    (Nat.lt_succ_of_le (List.sublist_append_left _ _).length_le)

/-- Without a level no record is entered. -/
theorem finds_record_zero (fields : List (RecordField α)) (name : String) (start a : α) :
    Finds (record 0 name fields start) 0 (need + 1) (0x7B :: t) a := by
  intro rest _
  rw [List.cons_append, record, skipBlanks_cons rfl]
  exact Needs.entered fun inner hinner => absurd hinner (Nat.succ_ne_zero inner).symm

end SyntaxGateway.Json
