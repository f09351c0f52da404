/-!
# Entries in key order

Lists of keys and values in which the keys increase by their code points, so that no key occurs
twice. Setting a key keeps the order.
-/

namespace SyntaxGateway

/-- Sets a key in a list in key order: its value is replaced if the key is there already. -/
def setEntry {β : Type} (key : String) (value : β) : List (String × β) → List (String × β)
  | [] => [(key, value)]
  | (k, v) :: rest =>
    if key < k then (key, value) :: (k, v) :: rest
    else if key = k then (key, value) :: rest
    else (k, v) :: setEntry key value rest

/-- The entries that come from setting keys one after the other: of equal keys the last wins. -/
def setEntries {β : Type} (pairs : List (String × β)) : List (String × β) :=
  pairs.foldl (fun entries e => setEntry e.1 e.2 entries) []

variable {β : Type} {key : String} {value : β} {entries : List (String × β)}

theorem mem_setEntry {e : String × β} (h : e ∈ setEntry key value entries) :
    e = (key, value) ∨ e ∈ entries := by
  induction entries with
  | nil => simp_all [setEntry]
  | cons p rest ih =>
    obtain ⟨k, v⟩ := p
    simp only [setEntry] at h
    split at h
    · simp_all
    · split at h
      · simp only [List.mem_cons] at h ⊢
        exact h.imp id Or.inr
      · simp only [List.mem_cons] at h ⊢
        rcases h with h | h
        · exact .inr (.inl h)
        · exact (ih h).imp id Or.inr

theorem pairwise_setEntry (h : entries.Pairwise (·.1 < ·.1)) :
    (setEntry key value entries).Pairwise (·.1 < ·.1) := by
  induction entries with
  | nil => simp [setEntry]
  | cons p rest ih =>
    obtain ⟨k, v⟩ := p
    obtain ⟨hk, hrest⟩ := List.pairwise_cons.1 h
    simp only [setEntry]
    split
    · rename_i hlt
      refine List.pairwise_cons.2 ⟨fun e he => ?_, h⟩
      rcases List.mem_cons.1 he with rfl | he
      · exact hlt
      · exact String.lt_trans hlt (hk e he)
    · split
      · rename_i heq
        subst heq
        exact List.pairwise_cons.2 ⟨hk, hrest⟩
      · rename_i hlt hne
        refine List.pairwise_cons.2 ⟨fun e he => ?_, ih hrest⟩
        rcases mem_setEntry he with rfl | he
        · exact Std.lt_of_le_of_ne (Std.not_lt.1 hlt) (Ne.symm hne)
        · exact hk e he

theorem pairwise_setEntries (pairs : List (String × β)) :
    (setEntries pairs).Pairwise (·.1 < ·.1) := by
  suffices h : ∀ entries : List (String × β), entries.Pairwise (·.1 < ·.1) →
      (pairs.foldl (fun entries e => setEntry e.1 e.2 entries) entries).Pairwise (·.1 < ·.1) from
    h [] .nil
  induction pairs with
  | nil => exact fun _ h => h
  | cons e rest ih => exact fun entries h => ih _ (pairwise_setEntry h)

/-- Setting a key behind all others appends it. -/
theorem setEntry_of_lt (h : ∀ e ∈ entries, e.1 < key) :
    setEntry key value entries = entries ++ [(key, value)] := by
  induction entries with
  | nil => rfl
  | cons e rest ih =>
    obtain ⟨hk, hrest⟩ := List.forall_mem_cons.1 h
    have hle : ¬key < e.1 := String.lt_asymm hk
    have hne : key ≠ e.1 := by
      rintro rfl
      exact String.lt_irrefl _ hk
    rw [setEntry, if_neg hle, if_neg hne, ih hrest, List.cons_append]

/-- Setting keys in increasing order gives the list itself. -/
theorem setEntries_eq_self {pairs : List (String × β)} (h : pairs.Pairwise (·.1 < ·.1)) :
    setEntries pairs = pairs := by
  suffices hfold : ∀ entries : List (String × β), (entries ++ pairs).Pairwise (·.1 < ·.1) →
      pairs.foldl (fun entries e => setEntry e.1 e.2 entries) entries = entries ++ pairs from
    hfold [] h
  induction pairs with
  | nil => simp
  | cons e pairs ih =>
    intro entries hsorted
    have hlast := (List.pairwise_append.1 hsorted).2.2
    have hset : setEntry e.1 e.2 entries = entries ++ [(e.1, e.2)] :=
      setEntry_of_lt fun k hk => hlast k hk e List.mem_cons_self
    rw [List.foldl_cons, hset, ih h.of_cons _ (by simpa using hsorted), List.append_assoc]
    rfl

/-- Setting keys drops entries and adds none, so that what is written for them gets no longer. -/
theorem length_flatMap_setEntries_le {γ : Type} (f : String × β → List γ)
    (pairs : List (String × β)) :
    ((setEntries pairs).flatMap f).length ≤ (pairs.flatMap f).length := by
  have hset (key : String) (value : β) (entries : List (String × β)) :
      ((setEntry key value entries).flatMap f).length ≤
        (entries.flatMap f).length + (f (key, value)).length := by
    induction entries with
    | nil => simp [setEntry]
    | cons first rest ih =>
      obtain ⟨k, v⟩ := first
      rw [setEntry]
      split
      · simp [Nat.add_comm]
      · split <;> simp only [List.flatMap_cons, List.length_append] <;> omega
  suffices hfold : ∀ entries : List (String × β),
      ((pairs.foldl (fun entries e => setEntry e.1 e.2 entries) entries).flatMap f).length ≤
        (entries.flatMap f).length + (pairs.flatMap f).length from by
    simpa [setEntries] using hfold []
  induction pairs with
  | nil => simp
  | cons e pairs ih =>
    obtain ⟨key, value⟩ := e
    intro entries
    have hfirst := hset key value entries
    have hrest := ih (setEntry key value entries)
    simp only [List.foldl_cons, List.flatMap_cons, List.length_append]
    omega

end SyntaxGateway
