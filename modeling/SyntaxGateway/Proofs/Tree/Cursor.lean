import SyntaxGateway.Proofs.Tree.Decoder

/-!
# Trees in packed arrays

**Theorem (`Node.decode_ofByteArray`).** A packed array is read as a tree exactly as the list of its
bytes is, with the same tree or the same fault.

A decoder only ever asks its source for the next byte. On two sources that hold the same bytes
(`Holds`) it therefore does the same, and leaves two sources that hold the same bytes (`Agrees`).
-/

namespace SyntaxGateway

variable {σ α β : Type} [ByteSource σ]

/-- The source gives these bytes one after the other, and then ends. -/
def Holds : σ → Bytes → Prop
  | source, [] => ByteSource.next? source = none
  | source, b :: bytes => ∃ rest, ByteSource.next? source = some (b, rest) ∧ Holds rest bytes

namespace Decoder

/-- On sources that hold the same bytes, both decoders fail alike, or find the same value and leave
sources that hold the same bytes. -/
def Agrees (d : Decoder σ α) (e : Decoder Bytes α) : Prop :=
  ∀ source bytes, Holds source bytes →
    (∃ a rest rest', d source = .ok (a, rest) ∧ e bytes = .ok (a, rest') ∧ Holds rest rest') ∨
      ∃ fault, d source = .error fault ∧ e bytes = .error fault

/-! ## Sequences and choices -/

theorem agrees_pure (a : α) : Agrees (pure a : Decoder σ α) (pure a) :=
  fun _ _ h => .inl ⟨a, _, _, rfl, rfl, h⟩

theorem agrees_throw (fault : DecodeFault) :
    Agrees (throw fault : Decoder σ α) (throw fault) :=
  fun _ _ _ => .inr ⟨fault, rfl, rfl⟩

theorem Agrees.bind {d : Decoder σ α} {e : Decoder Bytes α} {f : α → Decoder σ β}
    {g : α → Decoder Bytes β} (h : Agrees d e) (hnext : ∀ a, Agrees (f a) (g a)) :
    Agrees (d >>= f) (e >>= g) := by
  intro source bytes hholds
  rcases h source bytes hholds with ⟨a, rest, rest', hd, he, hrest⟩ | ⟨fault, hd, he⟩
  · rw [bind_of_ok hd, bind_of_ok he]
    exact hnext a rest rest' hrest
  · exact .inr ⟨fault, bind_of_error hd, bind_of_error he⟩

theorem Agrees.ite {c : Prop} [Decidable c] {d d' : Decoder σ α} {e e' : Decoder Bytes α}
    (h : Agrees d e) (h' : Agrees d' e') :
    Agrees (if c then d else d') (if c then e else e') := by
  by_cases hc : c
  · rw [if_pos hc, if_pos hc]
    exact h
  · rw [if_neg hc, if_neg hc]
    exact h'

/-! ## Bytes in a row -/

theorem agrees_byte : Agrees (byte : Decoder σ UInt8) byte := by
  intro source bytes h
  cases bytes with
  | nil =>
    have hnone : ByteSource.next? source = none := h
    exact .inr ⟨.endOfInput, by simp [byte, hnone], rfl⟩
  | cons b bytes =>
    obtain ⟨rest, hnext, hrest⟩ := h
    exact .inl ⟨b, rest, bytes, by simp [byte, hnext], rfl, hrest⟩

theorem agrees_chunkFrom (count : Nat) (before : Bytes) :
    Agrees (chunkFrom count before : Decoder σ Bytes) (chunkFrom count before) := by
  induction count generalizing before with
  | zero => exact agrees_pure before.reverse
  | succ count ih =>
    intro source bytes h
    cases bytes with
    | nil =>
      have hnone : ByteSource.next? source = none := h
      exact .inr ⟨.shortString, by simp [chunkFrom, hnone], rfl⟩
    | cons b bytes =>
      obtain ⟨rest, hnext, hrest⟩ := h
      simp only [chunkFrom, hnext, next?_cons]
      exact ih (b :: before) rest bytes hrest

theorem Agrees.repeatFrom {d : Decoder σ α} {e : Decoder Bytes α} (h : Agrees d e) (count : Nat)
    (before : List α) : Agrees (repeatFrom d count before) (repeatFrom e count before) := by
  induction count generalizing before with
  | zero => exact agrees_pure before.reverse
  | succ count ih =>
    intro source bytes hholds
    rcases h source bytes hholds with ⟨a, rest, rest', hd, he, hrest⟩ | ⟨fault, hd, he⟩
    · simp only [Decoder.repeatFrom, hd, he]
      exact ih (a :: before) rest rest' hrest
    · exact .inr ⟨fault, by simp [Decoder.repeatFrom, hd], by simp [Decoder.repeatFrom, he]⟩

/-! ## Trees -/

theorem agrees_decode : Agrees (Varint.decode : Decoder σ Nat) Varint.decode := by
  have hfixed (width : Nat) :
      Agrees (Varint.decodeFixed width : Decoder σ Nat) (Varint.decodeFixed width) :=
    (agrees_byte.repeatFrom width []).bind fun _ => agrees_pure _
  exact agrees_byte.bind fun b => .ite (agrees_pure _) <| .ite (hfixed 2) <| .ite (hfixed 4) <|
    .ite (hfixed 8) <| .ite (agrees_throw _) (agrees_throw _)

theorem agrees_string : Agrees (string : Decoder σ String) string := by
  refine agrees_decode.bind fun count => (agrees_chunkFrom count []).bind fun bytes => ?_
  cases Utf8.toString? bytes with
  | ok s => exact agrees_pure s
  | error fault => exact agrees_throw _

theorem Agrees.list {d : Decoder σ α} {e : Decoder Bytes α} (h : Agrees d e) :
    Agrees (list d) (list e) :=
  agrees_decode.bind fun count => h.repeatFrom count []

theorem agrees_properties : Agrees (properties : Decoder σ Properties) properties := by
  have hproperty : Agrees (property : Decoder σ (String × String)) property :=
    agrees_string.bind fun _ => agrees_string.bind fun _ => agrees_pure _
  exact hproperty.list.bind fun _ => agrees_pure _

theorem agrees_position : Agrees (position : Decoder σ (Option Position)) position := by
  have hnumber : Agrees (Varint.decode32 : Decoder σ UInt32) Varint.decode32 :=
    agrees_decode.bind fun _ => .ite (agrees_pure _) (agrees_throw _)
  refine agrees_byte.bind fun tag => .ite (agrees_pure _) (.ite ?_ (agrees_throw _))
  exact hnumber.bind fun _ => hnumber.bind fun _ => hnumber.bind fun _ => agrees_pure _

theorem agrees_node (levels : Nat) : Agrees (node levels : Decoder σ Node) (node levels) := by
  induction levels with
  | zero =>
    exact agrees_string.bind fun _ => agrees_string.bind fun _ => agrees_properties.bind fun _ =>
      agrees_throw _
  | succ levels ih =>
    exact agrees_string.bind fun _ => agrees_string.bind fun _ => agrees_properties.bind fun _ =>
      ih.list.bind fun _ => agrees_position.bind fun _ => agrees_position.bind fun _ =>
        agrees_string.list.bind fun _ => agrees_pure _

end Decoder

/-- Which source holds the bytes makes no difference to reading a tree. -/
theorem Node.decode_eq_of_holds {source : σ} {bytes : Bytes} (h : Holds source bytes)
    (hsize : ByteSource.size source = bytes.length) : Node.decode source = Node.decode bytes := by
  have hrun : Decoder.run (Decoder.node maxDepth) source =
      Decoder.run (Decoder.node maxDepth) bytes := by
    unfold Decoder.run
    rcases Decoder.agrees_node maxDepth source bytes h with
      ⟨n, rest, rest', hd, he, hrest⟩ | ⟨fault, hd, he⟩
    · simp only [hd, he]
      cases rest' with
      | nil =>
        have hnone : ByteSource.next? rest = none := hrest
        simp [hnone]
      | cons b bytes =>
        obtain ⟨_, hnext, -⟩ := hrest
        simp [hnext]
    · simp only [hd, he]
  rw [Node.decode, Node.decode, hrun, hsize, size_bytes]

namespace ByteCursor

theorem holds_drop (bytes : ByteArray) (offset : Nat) :
    Holds (⟨bytes, offset⟩ : ByteCursor) (bytes.data.toList.drop offset) := by
  generalize hrest : bytes.data.toList.drop offset = rest
  induction rest generalizing offset with
  | nil =>
    have hsize : ¬offset < bytes.size := by
      have := List.drop_eq_nil_iff.1 hrest
      exact Nat.not_lt.2 this
    show next? _ = none
    rw [next?, dif_neg hsize]
  | cons b rest ih =>
    have hlt : offset < bytes.data.toList.length := by
      refine Nat.lt_of_not_le fun hge => ?_
      rw [List.drop_eq_nil_of_le hge] at hrest
      cases hrest
    rw [List.drop_eq_getElem_cons hlt] at hrest
    obtain ⟨rfl, htail⟩ := List.cons.inj hrest
    refine ⟨⟨bytes, offset + 1⟩, ?_, ih (offset + 1) htail⟩
    show next? _ = _
    have hsize : offset < bytes.size := hlt
    rw [next?, dif_pos hsize]
    rfl

end ByteCursor

theorem Node.decode_ofByteArray (bytes : ByteArray) :
    Node.decode (ByteCursor.ofByteArray bytes) = Node.decode (bytes.data.toList : Bytes) :=
  decode_eq_of_holds (ByteCursor.holds_drop bytes 0) rfl

end SyntaxGateway
