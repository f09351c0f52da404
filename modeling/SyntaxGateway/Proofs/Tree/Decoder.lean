import SyntaxGateway.Tree.Encoding

/-!
# What a decoder takes

A decoder takes bytes from the front of its source. The bytes that it can take are written forms of
values, and `Reads` says which: the decoder succeeds exactly when a written form is in front, its
result is the value of the form, and the source after the form is left.

Where all items of a list are read, the list is (`Reads.times`); where one of them fails, so does
the list (`times_eq_error`).
-/

namespace SyntaxGateway.Decoder

variable {α β γ : Type}

/-! ## Sequencing -/

section Sequencing

variable {σ : Type} {decoder : Decoder σ α} {next : α → Decoder σ β} {source rest : σ} {a : α}

theorem bind_eq_ok_iff {result : β × σ} :
    (decoder >>= next) source = .ok result ↔
      ∃ a rest, decoder source = .ok (a, rest) ∧ next a rest = .ok result := by
  change (decoder source >>= fun taken => next taken.1 taken.2) = _ ↔ _
  cases decoder source with
  | error fault => simp [bind, Except.bind]
  | ok taken =>
    constructor
    · intro h
      exact ⟨taken.1, taken.2, rfl, h⟩
    · rintro ⟨a, rest, h, hnext⟩
      cases h
      exact hnext

theorem bind_of_ok (h : decoder source = .ok (a, rest)) :
    (decoder >>= next) source = next a rest := by
  change (decoder source >>= fun taken => next taken.1 taken.2) = _
  rw [h]
  rfl

theorem bind_of_error {fault : DecodeFault} (h : decoder source = .error fault) :
    (decoder >>= next) source = .error fault := by
  change (decoder source >>= fun taken => next taken.1 taken.2) = _
  rw [h]
  rfl

@[simp]
theorem pure_eq_ok_iff {b : α} :
    (pure a : Decoder σ α) source = .ok (b, rest) ↔ a = b ∧ source = rest := by
  change Except.ok (a, source) = Except.ok (b, rest) ↔ _
  simp

@[simp]
theorem throw_apply (fault : DecodeFault) :
    (throw fault : Decoder σ α) source = .error fault := rfl

end Sequencing

/-! ## Reading written forms -/

/-- The decoder takes a written form from the front, each for its value, and nothing else. -/
def Reads (decoder : Decoder Bytes α) (bytes : β → Bytes) (value : β → α) : Prop :=
  ∀ source a rest, decoder source = .ok (a, rest) ↔ ∃ w, source = bytes w ++ rest ∧ value w = a

variable {decoder : Decoder Bytes α} {bytes : β → Bytes} {value : β → α}

theorem Reads.ok_iff (h : Reads decoder bytes value) {source rest : Bytes} {a : α} :
    decoder source = .ok (a, rest) ↔ ∃ w, source = bytes w ++ rest ∧ value w = a :=
  h source a rest

theorem Reads.apply (h : Reads decoder bytes value) (w : β) (rest : Bytes) :
    decoder (bytes w ++ rest) = .ok (value w, rest) :=
  (h _ _ _).2 ⟨w, rfl, rfl⟩

theorem reads_byte : Reads byte (fun b : UInt8 => [b]) id := by
  intro source a rest
  cases source with
  | nil => simp [byte]
  | cons b source => simp [byte, and_comm]

theorem repeatFrom_eq_ok_iff (h : Reads decoder bytes value) {count : Nat} {before as : List α}
    {source rest : Bytes} :
    repeatFrom decoder count before source = .ok (as, rest) ↔
      ∃ ws : List β, ws.length = count ∧ source = ws.flatMap bytes ++ rest ∧
        before.reverse ++ ws.map value = as := by
  induction count generalizing before source with
  | zero => simp [repeatFrom, and_comm]
  | succ count ih =>
    constructor
    · intro hread
      cases hfirst : decoder source with
      | error fault => simp [repeatFrom, hfirst] at hread
      | ok taken =>
        obtain ⟨a, source'⟩ := taken
        simp only [repeatFrom, hfirst] at hread
        obtain ⟨w, rfl, rfl⟩ := (h _ _ _).1 hfirst
        obtain ⟨ws, rfl, rfl, rfl⟩ := ih.1 hread
        exact ⟨w :: ws, rfl, by simp, by simp⟩
    · rintro ⟨ws, hcount, rfl, rfl⟩
      cases ws with
      | nil => simp at hcount
      | cons w ws =>
        rw [List.flatMap_cons, List.append_assoc]
        simp only [repeatFrom, h.apply]
        exact ih.2 ⟨ws, Nat.succ.inj hcount, rfl, by simp⟩

theorem Reads.times (h : Reads decoder bytes value) {count : Nat} {as : List α}
    {source rest : Bytes} :
    times decoder count source = .ok (as, rest) ↔
      ∃ ws : List β, ws.length = count ∧ source = ws.flatMap bytes ++ rest ∧ ws.map value = as :=
  repeatFrom_eq_ok_iff h

/-- Of items in a row, each of which is either read or fails with one fault, some fails. -/
theorem times_eq_error {items : List γ} {written : γ → Bytes} {fault : DecodeFault}
    (h : ∀ w ∈ items, (∃ a, ∀ rest, decoder (written w ++ rest) = .ok (a, rest)) ∨
      ∀ rest, decoder (written w ++ rest) = .error fault)
    (hfails : ∃ w ∈ items, ∀ rest, decoder (written w ++ rest) = .error fault) (rest : Bytes) :
    times decoder items.length (items.flatMap written ++ rest) = .error fault := by
  unfold times
  generalize ([] : List α) = before
  induction items generalizing before with
  | nil => simp at hfails
  | cons w items ih =>
    obtain ⟨hw, hitems⟩ := List.forall_mem_cons.1 h
    rw [List.flatMap_cons, List.append_assoc]
    rcases hw with ⟨a, hw⟩ | hw
    · have htail : ∃ w ∈ items, ∀ rest, decoder (written w ++ rest) = .error fault := by
        obtain ⟨w', hmem, hfail⟩ := hfails
        rcases List.mem_cons.1 hmem with rfl | hmem
        · simp [hw] at hfail
        · exact ⟨w', hmem, hfail⟩
      simp only [List.length_cons, repeatFrom, hw]
      exact ih hitems htail _
    · simp only [List.length_cons, repeatFrom, hw]

/-- The next bytes, however many, are taken as they are. -/
theorem chunkFrom_eq_ok_iff {count : Nat} {before taken source rest : Bytes} :
    chunkFrom count before source = .ok (taken, rest) ↔
      ∃ chunk : Bytes, chunk.length = count ∧ source = chunk ++ rest ∧
        before.reverse ++ chunk = taken := by
  induction count generalizing before source with
  | zero => simp [chunkFrom, and_comm]
  | succ count ih =>
    cases source with
    | nil =>
      simp only [chunkFrom, next?_nil, reduceCtorEq, false_iff]
      rintro ⟨chunk, hcount, hnil, -⟩
      simp_all
    | cons b source =>
      simp only [chunkFrom, next?_cons, ih]
      constructor
      · rintro ⟨chunk, rfl, rfl, rfl⟩
        exact ⟨b :: chunk, rfl, rfl, by simp⟩
      · rintro ⟨chunk, hcount, hsource, rfl⟩
        cases chunk with
        | nil => simp at hcount
        | cons c chunk =>
          obtain ⟨rfl, rfl⟩ := List.cons.inj hsource
          exact ⟨chunk, Nat.succ.inj hcount, rfl, by simp⟩

end SyntaxGateway.Decoder
