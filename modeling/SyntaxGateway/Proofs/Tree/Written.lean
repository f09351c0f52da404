import Mathlib.Algebra.Order.Ring.Nat
import SyntaxGateway.Proofs.Text.Utf8
import SyntaxGateway.Proofs.Tree.Decoder

/-!
# Written trees

One tree has many encodings: an integer may take more bytes than it needs, and the properties of a
node may stand in any order and name a key more than once. A `Written.Tree` is one way to write a
tree, with all these choices made; `bytes` writes it out and `node` is the tree that it writes.

**Theorem (`Tree.bytes_append_inj`).** The bytes of a written tree determine it, and where it ends:
no written tree is the beginning of another one.

So it makes sense to speak of the integers in an encoded tree and of the keys of its property maps.
-/

namespace SyntaxGateway

/-! ## Little-endian numbers -/

namespace Varint

variable {n : Nat}

@[simp]
theorem length_littleEndian (width n : Nat) : (littleEndian width n).length = width := by
  induction width generalizing n with
  | zero => rfl
  | succ width ih => simp [littleEndian, ih]

theorem ofLittleEndian_littleEndian {width : Nat} (h : n < 256 ^ width) :
    ofLittleEndian (littleEndian width n) = n := by
  induction width generalizing n with
  | zero =>
    rw [Nat.pow_zero, Nat.lt_one_iff] at h
    exact h.symm
  | succ width ih =>
    have hdiv : n / 256 < 256 ^ width := by
      rw [Nat.pow_succ] at h
      omega
    have hlow : n.toUInt8.toNat = n % 256 := UInt8.toNat_ofNat'
    rw [littleEndian, ofLittleEndian, ih hdiv, hlow]
    omega

theorem ofLittleEndian_lt (bytes : Bytes) : ofLittleEndian bytes < 256 ^ bytes.length := by
  induction bytes with
  | nil => simp [ofLittleEndian]
  | cons b bytes ih =>
    have hb := b.toNat_lt
    rw [ofLittleEndian, List.length_cons, Nat.pow_succ]
    omega

theorem littleEndian_ofLittleEndian (bytes : Bytes) :
    littleEndian bytes.length (ofLittleEndian bytes) = bytes := by
  induction bytes with
  | nil => rfl
  | cons b bytes ih =>
    have hb := b.toNat_lt
    have hlow : (b.toNat + 256 * ofLittleEndian bytes).toUInt8 = b := by
      rw [← UInt8.toNat_inj]
      change (UInt8.ofNat _).toNat = _
      rw [UInt8.toNat_ofNat']
      omega
    have hhigh : (b.toNat + 256 * ofLittleEndian bytes) / 256 = ofLittleEndian bytes := by omega
    rw [List.length_cons, ofLittleEndian, littleEndian, hlow, hhigh, ih]

theorem length_encode_pos (n : Nat) : 0 < (encode n).length := by
  unfold encode
  split_ifs <;> simp

theorem decodeFixed_eq_ok_iff {width : Nat} {source rest : Bytes} :
    decodeFixed width source = .ok (n, rest) ↔
      n < 256 ^ width ∧ source = littleEndian width n ++ rest := by
  simp only [decodeFixed, Decoder.bind_eq_ok_iff, Decoder.pure_eq_ok_iff,
    Decoder.reads_byte.times, List.map_id, List.flatMap_singleton']
  constructor
  · rintro ⟨_, _, ⟨bytes, rfl, rfl, rfl⟩, rfl, rfl⟩
    exact ⟨ofLittleEndian_lt bytes, by rw [littleEndian_ofLittleEndian]⟩
  · rintro ⟨h, rfl⟩
    exact ⟨_, _, ⟨_, length_littleEndian width n, rfl, rfl⟩, ofLittleEndian_littleEndian h, rfl⟩

theorem decode_cons (b : UInt8) (source : Bytes) :
    decode (b :: source) =
      if b < 251 then .ok (b.toNat, source)
      else if b == 251 then decodeFixed 2 source
      else if b == 252 then decodeFixed 4 source
      else if b == 253 then decodeFixed 8 source
      else if b == 254 then .error .wideMarker
      else .error .extensionMarker := by
  unfold decode
  rw [Decoder.bind_of_ok (show Decoder.byte (b :: source) = .ok (b, source) from rfl)]
  split_ifs <;> rfl

end Varint

namespace Written

/-! ## Integers -/

/-- The widths in which an integer may be written. -/
inductive Width where
  | one
  | two
  | four
  | eight
deriving DecidableEq

namespace Width

/-- What stands in front of the digits. -/
def marker : Width → Bytes
  | one => []
  | two => [251]
  | four => [252]
  | eight => [253]

/-- The number of bytes with digits. -/
def digits : Width → Nat
  | one => 1
  | two => 2
  | four => 4
  | eight => 8

/-- What the integers of this width stay below. A single byte from 251 on is no integer. -/
def bound : Width → Nat
  | one => 251
  | w => 256 ^ w.digits

end Width

/-- An integer in one of its forms. -/
structure Integer where
  width : Width
  value : Nat
  fits : value < width.bound
deriving DecidableEq

namespace Integer

def bytes (i : Integer) : Bytes := i.width.marker ++ Varint.littleEndian i.width.digits i.value

/-- No form of the same integer takes fewer bytes. -/
def IsShortest (i : Integer) : Prop :=
  ∀ j : Integer, j.value = i.value → i.bytes.length ≤ j.bytes.length

theorem value_lt (i : Integer) : i.value < 256 ^ 8 := by
  obtain ⟨width, value, fits⟩ := i
  cases width <;> simp only [Width.bound, Width.digits] at fits ⊢ <;> omega

theorem eq_of_length {i j : Integer} (hvalue : i.value = j.value)
    (hlength : i.bytes.length = j.bytes.length) : i = j := by
  obtain ⟨w, n, hn⟩ := i
  obtain ⟨w', m, hm⟩ := j
  obtain rfl : n = m := hvalue
  cases w <;> cases w' <;> simp [bytes, Width.marker, Width.digits] at hlength ⊢

/-- An integer is read in each of its forms, and in no other. -/
theorem reads_decode : Decoder.Reads Varint.decode bytes value := by
  intro source n rest
  constructor
  · intro h
    cases source with
    | nil => cases h
    | cons b source =>
      rw [Varint.decode_cons] at h
      split at h
      · rename_i hb
        cases h
        exact ⟨⟨.one, b.toNat, UInt8.lt_iff_toNat_lt.1 hb⟩, by simp [bytes, Width.marker,
          Width.digits, Varint.littleEndian], rfl⟩
      · split at h
        · obtain ⟨hn, rfl⟩ := Varint.decodeFixed_eq_ok_iff.1 h
          exact ⟨⟨.two, n, hn⟩, by simp_all [bytes, Width.marker, Width.digits], rfl⟩
        split at h
        · obtain ⟨hn, rfl⟩ := Varint.decodeFixed_eq_ok_iff.1 h
          exact ⟨⟨.four, n, hn⟩, by simp_all [bytes, Width.marker, Width.digits], rfl⟩
        split at h
        · obtain ⟨hn, rfl⟩ := Varint.decodeFixed_eq_ok_iff.1 h
          exact ⟨⟨.eight, n, hn⟩, by simp_all [bytes, Width.marker, Width.digits], rfl⟩
        · split at h <;> cases h
  · rintro ⟨⟨w, n, hn⟩, rfl, rfl⟩
    cases w with
    | one =>
      have hsmall : n.toUInt8.toNat = n := by
        change (UInt8.ofNat n).toNat = n
        rw [UInt8.toNat_ofNat', Nat.mod_eq_of_lt (Nat.lt_trans hn (by decide))]
      have hlow : n.toUInt8 < 251 := by
        rw [UInt8.lt_iff_toNat_lt, hsmall]
        exact hn
      change Varint.decode (n.toUInt8 :: rest) = _
      rw [Varint.decode_cons, if_pos hlow, hsmall]
    | two =>
      change Varint.decode (251 :: (Varint.littleEndian 2 n ++ rest)) = _
      rw [Varint.decode_cons, if_neg (by decide), if_pos (by decide)]
      exact Varint.decodeFixed_eq_ok_iff.2 ⟨hn, rfl⟩
    | four =>
      change Varint.decode (252 :: (Varint.littleEndian 4 n ++ rest)) = _
      rw [Varint.decode_cons, if_neg (by decide), if_neg (by decide), if_pos (by decide)]
      exact Varint.decodeFixed_eq_ok_iff.2 ⟨hn, rfl⟩
    | eight =>
      change Varint.decode (253 :: (Varint.littleEndian 8 n ++ rest)) = _
      rw [Varint.decode_cons, if_neg (by decide), if_neg (by decide), if_neg (by decide),
        if_pos (by decide)]
      exact Varint.decodeFixed_eq_ok_iff.2 ⟨hn, rfl⟩

theorem bytes_append_inj {i j : Integer} {rest rest' : Bytes}
    (h : i.bytes ++ rest = j.bytes ++ rest') : i = j ∧ rest = rest' := by
  have hi := reads_decode.apply i rest
  rw [h, reads_decode.apply j rest'] at hi
  obtain ⟨hvalue, rfl⟩ := Prod.mk.inj (Except.ok.inj hi)
  have hbytes := List.append_cancel_right h
  exact ⟨eq_of_length hvalue.symm (congrArg List.length hbytes), rfl⟩

/-! ### Shortest forms -/

/-- What the program writes is one of the forms. -/
theorem exists_bytes_eq_encode {n : Nat} (h : n < 256 ^ 8) :
    ∃ i : Integer, i.value = n ∧ i.bytes = Varint.encode n := by
  unfold Varint.encode
  simp only [Nat.pow_eq]
  split
  · rename_i h1
    exact ⟨⟨.one, n, h1⟩, rfl, rfl⟩
  split
  · rename_i h2
    exact ⟨⟨.two, n, h2⟩, rfl, rfl⟩
  split
  · rename_i h4
    exact ⟨⟨.four, n, h4⟩, rfl, rfl⟩
  · exact ⟨⟨.eight, n, h⟩, rfl, rfl⟩

theorem length_encode_le (i : Integer) : (Varint.encode i.value).length ≤ i.bytes.length := by
  obtain ⟨w, n, hn⟩ := i
  unfold Varint.encode bytes
  simp only [Nat.pow_eq, List.length_append, Varint.length_littleEndian]
  cases w <;> simp only [Width.bound, Width.digits, Width.marker] at hn ⊢ <;> split_ifs <;> simp
  all_goals omega

theorem isShortest_iff {i : Integer} : i.IsShortest ↔ i.bytes = Varint.encode i.value := by
  constructor
  · intro h
    obtain ⟨j, hvalue, hbytes⟩ := exists_bytes_eq_encode i.value_lt
    have hle := h j hvalue
    have hge := i.length_encode_le
    rw [← hbytes] at hge ⊢
    rw [eq_of_length hvalue (Nat.le_antisymm hge hle)]
  · intro h j hvalue
    rw [h, ← hvalue]
    exact j.length_encode_le

end Integer

/-! ## Strings, lists and positions -/

/-- A string with the number of its bytes in front. -/
structure Text where
  count : Integer
  content : String
  counts : count.value = (Utf8.ofString content).length

def Text.bytes (s : Text) : Bytes := s.count.bytes ++ Utf8.ofString s.content

theorem Text.bytes_append_inj {s t : Text} {rest rest' : Bytes}
    (h : s.bytes ++ rest = t.bytes ++ rest') : s = t ∧ rest = rest' := by
  obtain ⟨n, s, hs⟩ := s
  obtain ⟨m, t, ht⟩ := t
  simp only [bytes, List.append_assoc] at h
  obtain ⟨rfl, htail⟩ := Integer.bytes_append_inj h
  obtain ⟨hcontent, rfl⟩ := List.append_inj htail (hs.symm.trans ht)
  obtain rfl := Utf8.ofString_injective hcontent
  exact ⟨rfl, rfl⟩

/-- Written forms in a row, with their number in front. -/
structure Series (β : Type) where
  count : Integer
  items : List β
  counts : count.value = items.length

section Series

variable {β : Type} {item : β → Bytes}

def Series.bytes (item : β → Bytes) (s : Series β) : Bytes := s.count.bytes ++ s.items.flatMap item

/-- The number of the items, and what each item adds. -/
def Series.integers (item : β → List Integer) (s : Series β) : List Integer :=
  s.count :: s.items.flatMap item

/-- Rows of equally many items are equal when their bytes are, if this holds for the items. -/
theorem flatMap_append_inj {good : β → Prop} {ws ws' : List β} {rest rest' : Bytes}
    (hitem : ∀ w ∈ ws, ∀ w' rest rest', good w' → item w ++ rest = item w' ++ rest' →
      w = w' ∧ rest = rest')
    (hgood : ∀ w ∈ ws', good w) (hlength : ws.length = ws'.length)
    (h : ws.flatMap item ++ rest = ws'.flatMap item ++ rest') : ws = ws' ∧ rest = rest' := by
  induction ws generalizing ws' with
  | nil =>
    obtain rfl := List.length_eq_zero_iff.1 hlength.symm
    exact ⟨rfl, h⟩
  | cons w ws ih =>
    cases ws' with
    | nil => simp at hlength
    | cons w' ws' =>
      obtain ⟨hw, hws⟩ := List.forall_mem_cons.1 hitem
      obtain ⟨hgood, hgoods⟩ := List.forall_mem_cons.1 hgood
      simp only [List.flatMap_cons, List.append_assoc] at h
      obtain ⟨rfl, htail⟩ := hw _ _ _ hgood h
      obtain ⟨rfl, rfl⟩ := ih hws hgoods (Nat.succ.inj hlength) htail
      exact ⟨rfl, rfl⟩

theorem Series.bytes_append_inj {s t : Series β} {rest rest' : Bytes}
    (hitem : ∀ {w w' : β} {rest rest' : Bytes}, item w ++ rest = item w' ++ rest' →
      w = w' ∧ rest = rest')
    (h : s.bytes item ++ rest = t.bytes item ++ rest') : s = t ∧ rest = rest' := by
  obtain ⟨n, ws, hs⟩ := s
  obtain ⟨m, ws', ht⟩ := t
  simp only [bytes, List.append_assoc] at h
  obtain ⟨rfl, htail⟩ := Integer.bytes_append_inj h
  have hall : ∀ w ∈ ws', True := fun _ _ => trivial
  obtain ⟨rfl, rfl⟩ := flatMap_append_inj (fun _ _ _ _ _ _ => hitem) hall (hs.symm.trans ht) htail
  exact ⟨rfl, rfl⟩

end Series

/-- A key and its value. -/
structure Entry where
  key : Text
  value : Text

namespace Entry

def bytes (e : Entry) : Bytes := e.key.bytes ++ e.value.bytes

def integers (e : Entry) : List Integer := [e.key.count, e.value.count]

def pair (e : Entry) : String × String := (e.key.content, e.value.content)

theorem bytes_append_inj {e f : Entry} {rest rest' : Bytes}
    (h : e.bytes ++ rest = f.bytes ++ rest') : e = f ∧ rest = rest' := by
  obtain ⟨k, v⟩ := e
  obtain ⟨k', v'⟩ := f
  simp only [bytes, List.append_assoc] at h
  obtain ⟨rfl, hvalue⟩ := Text.bytes_append_inj h
  obtain ⟨rfl, rfl⟩ := Text.bytes_append_inj hvalue
  exact ⟨rfl, rfl⟩

end Entry

/-- An integer that fits 32 bits. -/
abbrev Integer32 := {i : Integer // i.value < 2 ^ 32}

/-- The three numbers of a position. -/
structure Point where
  offset : Integer32
  line : Integer32
  col : Integer32

namespace Point

def position (p : Point) : Position :=
  ⟨p.offset.1.value.toUInt32, p.line.1.value.toUInt32, p.col.1.value.toUInt32⟩

/-- The bytes of a position that may be absent. -/
def bytes : Option Point → Bytes
  | none => [0]
  | some p => 1 :: (p.offset.1.bytes ++ p.line.1.bytes ++ p.col.1.bytes)

def integers : Option Point → List Integer
  | none => []
  | some p => [p.offset.1, p.line.1, p.col.1]

theorem bytes_append_inj {p q : Option Point} {rest rest' : Bytes}
    (h : bytes p ++ rest = bytes q ++ rest') : p = q ∧ rest = rest' := by
  cases p with
  | none =>
    cases q with
    | none => exact ⟨rfl, List.append_cancel_left h⟩
    | some q => simp [bytes] at h
  | some p =>
    cases q with
    | none => simp [bytes] at h
    | some q =>
      obtain ⟨⟨o, ho⟩, ⟨l, hl⟩, ⟨c, hc⟩⟩ := p
      obtain ⟨⟨o', ho'⟩, ⟨l', hl'⟩, ⟨c', hc'⟩⟩ := q
      simp only [bytes, List.cons_append, List.append_assoc, List.cons.injEq, true_and] at h
      obtain ⟨rfl, hline⟩ := Integer.bytes_append_inj h
      obtain ⟨rfl, hcol⟩ := Integer.bytes_append_inj hline
      obtain ⟨rfl, rfl⟩ := Integer.bytes_append_inj hcol
      exact ⟨rfl, rfl⟩

end Point

/-! ## Trees -/

/-- A tree with all the choices of its encoding made. -/
inductive Tree where
  | mk (internalType token : Text) (properties : Series Entry) (childCount : Integer)
    (children : List Tree) (startPosition endPosition : Option Point) (roles : Series Text)

namespace Tree

/-- Induction over written trees, with the same case as for nodes. -/
@[elab_as_elim]
theorem induction {motive : Tree → Prop}
    (mk : ∀ t k p n cs s e rs, (∀ c ∈ cs, motive c) → motive (.mk t k p n cs s e rs)) (t : Tree) :
    motive t :=
  @Tree.rec motive (fun cs => ∀ c ∈ cs, motive c) mk
    (fun _ h => absurd h List.not_mem_nil)
    (fun _ _ hc hcs => List.forall_mem_cons.2 ⟨hc, hcs⟩) t

/-- The number in front of the children of each node is right. -/
inductive Counted : Tree → Prop
  | mk {t k p n cs s e rs} : n.value = cs.length → (∀ c ∈ cs, Counted c) →
      Counted (.mk t k p n cs s e rs)

mutual

def bytes : Tree → Bytes
  | mk t k p n cs s e rs =>
    t.bytes ++ (k.bytes ++ (p.bytes Entry.bytes ++ (n.bytes ++ (bytesAll cs ++
      (Point.bytes s ++ (Point.bytes e ++ rs.bytes Text.bytes))))))

def bytesAll : List Tree → Bytes
  | [] => []
  | c :: cs => bytes c ++ bytesAll cs

end

mutual

/-- The tree that is written. Of equal keys the last one wins. -/
def node : Tree → Node
  | mk t k p _ cs s e rs =>
    .mk t.content k.content (.ofList (p.items.map Entry.pair)) (nodeAll cs)
      (s.map Point.position) (e.map Point.position) (rs.items.map Text.content)

def nodeAll : List Tree → List Node
  | [] => []
  | c :: cs => node c :: nodeAll cs

end

mutual

/-- Every integer of the encoding: lengths of strings, numbers of entries, fields of positions. -/
def integers : Tree → List Integer
  | mk t k p n cs s e rs =>
    t.count :: k.count :: (p.integers Entry.integers ++ n :: (integersAll cs ++
      (Point.integers s ++ (Point.integers e ++ rs.integers fun r => [r.count]))))

def integersAll : List Tree → List Integer
  | [] => []
  | c :: cs => integers c ++ integersAll cs

end

mutual

/-- The keys of every property map, as they stand in the encoding. -/
def keys : Tree → List (List String)
  | mk _ _ p _ cs _ _ _ => p.items.map (·.key.content) :: keysAll cs

def keysAll : List Tree → List (List String)
  | [] => []
  | c :: cs => keys c ++ keysAll cs

end

theorem bytesAll_eq (cs : List Tree) : bytesAll cs = cs.flatMap bytes := by
  induction cs with
  | nil => rfl
  | cons c cs ih => rw [bytesAll, ih, List.flatMap_cons]

theorem nodeAll_eq (cs : List Tree) : nodeAll cs = cs.map node := by
  induction cs with
  | nil => rfl
  | cons c cs ih => rw [nodeAll, ih, List.map_cons]

theorem integersAll_eq (cs : List Tree) : integersAll cs = cs.flatMap integers := by
  induction cs with
  | nil => rfl
  | cons c cs ih => rw [integersAll, ih, List.flatMap_cons]

theorem keysAll_eq (cs : List Tree) : keysAll cs = cs.flatMap keys := by
  induction cs with
  | nil => rfl
  | cons c cs ih => rw [keysAll, ih, List.flatMap_cons]

theorem depth_node_le_succ_iff {t k p n cs s e rs} {levels : Nat} :
    (mk t k p n cs s e rs).node.depth ≤ levels + 1 ↔ ∀ c ∈ cs, c.node.depth ≤ levels := by
  rw [Node.depth_le_succ_iff, node, Node.children, nodeAll_eq, List.forall_mem_map]

/-- The bytes of a written tree determine it and where it ends. -/
theorem bytes_append_inj {t u : Tree} {rest rest' : Bytes} (ht : t.Counted) (hu : u.Counted)
    (h : t.bytes ++ rest = u.bytes ++ rest') : t = u ∧ rest = rest' := by
  induction t using Tree.induction generalizing u rest rest' with
  | mk t k p n cs s e rs ih =>
    cases ht with | mk hn hcs =>
    cases hu with | @mk t' k' p' n' cs' s' e' rs' hn' hcs' =>
    simp only [bytes, bytesAll_eq, List.append_assoc] at h
    obtain ⟨rfl, h1⟩ := Text.bytes_append_inj h
    obtain ⟨rfl, h2⟩ := Text.bytes_append_inj h1
    obtain ⟨rfl, h3⟩ := Series.bytes_append_inj Entry.bytes_append_inj h2
    obtain ⟨rfl, h4⟩ := Integer.bytes_append_inj h3
    have hchild (c : Tree) (hc : c ∈ cs) (c' : Tree) (rest rest' : Bytes) (hc' : c'.Counted)
        (h : c.bytes ++ rest = c'.bytes ++ rest') : c = c' ∧ rest = rest' :=
      ih c hc (hcs c hc) hc' h
    obtain ⟨rfl, h5⟩ := flatMap_append_inj hchild hcs' (hn.symm.trans hn') h4
    obtain ⟨rfl, h6⟩ := Point.bytes_append_inj h5
    obtain ⟨rfl, h7⟩ := Point.bytes_append_inj h6
    obtain ⟨rfl, rfl⟩ := Series.bytes_append_inj Text.bytes_append_inj h7
    exact ⟨rfl, rfl⟩

end Tree

end Written

end SyntaxGateway
