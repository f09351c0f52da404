import SyntaxGateway.Json.Shape

/-!
# The language of JSON

The grammar of JSON texts as relations: which bytes are a phrase of one kind, and what they mean
where somebody reads them. Blanks may stand around values, commas and colons and are no part of them.

    value    = 'null' | 'true' | 'false' | number | string | array | object
    array    = '[' W ']' | '[' entry (',' entry)* ']'
    object   = '{' W '}' | '{' entry (',' entry)* '}'
    entry    = W value W, in an object W string W ':' W value W
    number   = '-'? integer ('.' digit+)? (('e' | 'E') ('+' | '-')? digit+)?
    integer  = '0' | a digit from 1 to 9 and then any digits
    string   = '"' (plain | '\' escape)* '"'

The strings of values that nobody reads are bytes (`LooseText`). Those that are read must mean text
(`StringText`): their bytes are UTF-8, and escaped surrogates come in pairs.

A record is an object whose members are its fields in any order and other members, or an array of
its fields in their order (`RecordText`). Apart from the classes of bytes, nothing here refers to how
JSON is read.
-/

namespace SyntaxGateway.Json

/-! ## Strings -/

/-- A run of blanks, possibly empty. -/
def Blanks (w : Bytes) : Prop := ∀ b ∈ w, isBlank b

/-- Four digits of base sixteen, and the number that they write. -/
inductive HexText : Bytes → Nat → Prop
  | mk {a b c d : UInt8} {p q r s : Nat} : hexValue? a = some p → hexValue? b = some q →
      hexValue? c = some r → hexValue? d = some s →
      HexText [a, b, c, d] (((p * 16 + q) * 16 + r) * 16 + s)

/-- What follows a backslash, and the bytes that the escape stands for. -/
inductive EscapeText : Bytes → Bytes → Prop
  | short {e b : UInt8} : shortEscape? e = some b → EscapeText [e] [b]
  | unit {h : Bytes} {n : Nat} : HexText h n → isLeading n = false → isTrailing n = false →
      EscapeText (0x75 :: h) (String.utf8EncodeChar (Char.ofNat n))
  | pair {h k : Bytes} {n m : Nat} : HexText h n → isLeading n → HexText k m → isTrailing m →
      EscapeText (0x75 :: (h ++ 0x5C :: 0x75 :: k))
        (String.utf8EncodeChar (Char.ofNat ((n - 0xD800) * 0x400 + (m - 0xDC00) + 0x10000)))

/-- A byte that stands for itself in a string. -/
def IsPlain (b : UInt8) : Prop := b ≠ 0x22 ∧ b ≠ 0x5C ∧ ¬b < 0x20

/-- What stands between the quotes of a string, and the bytes that it stands for. -/
inductive Characters : Bytes → Bytes → Prop
  | nil : Characters [] []
  | plain {b : UInt8} {t m : Bytes} : IsPlain b → Characters t m → Characters (b :: t) (b :: m)
  | escape {e c t m : Bytes} : EscapeText e c → Characters t m →
      Characters (0x5C :: (e ++ t)) (c ++ m)

inductive StringText : Bytes → String → Prop
  | mk {t : Bytes} {s : String} : Characters t (Utf8.ofString s) →
      StringText (0x22 :: (t ++ [0x22])) s

/-- What stands between the quotes of a string that nobody reads. -/
inductive LooseText : Bytes → Prop
  | nil : LooseText []
  | plain {b : UInt8} {t : Bytes} : IsPlain b → LooseText t → LooseText (b :: t)
  | short {e : UInt8} {t : Bytes} : (shortEscape? e).isSome → LooseText t →
      LooseText (0x5C :: e :: t)
  | unit {h t : Bytes} {n : Nat} : HexText h n → LooseText t → LooseText (0x5C :: 0x75 :: (h ++ t))

/-! ## Numbers -/

/-- A run of digits that is not empty. -/
def Digits (t : Bytes) : Prop := t ≠ [] ∧ ∀ b ∈ t, isDigit b

inductive IntegerText : Bytes → Prop
  | zero : IntegerText [0x30]
  | digits {b : UInt8} {t : Bytes} : isDigit b → b ≠ 0x30 → (∀ d ∈ t, isDigit d) →
      IntegerText (b :: t)

/-- The fraction of a number, if it has one. -/
inductive FractionText : Bytes → Prop
  | none : FractionText []
  | some {t : Bytes} : Digits t → FractionText (0x2E :: t)

/-- The exponent of a number, if it has one. -/
inductive ExponentText : Bytes → Prop
  | none : ExponentText []
  | some {e : UInt8} {sign t : Bytes} : e = 0x65 ∨ e = 0x45 → sign ∈ [[], [0x2B], [0x2D]] →
      Digits t → ExponentText (e :: (sign ++ t))

inductive NumberText : Bytes → Prop
  | mk {sign i f x : Bytes} : sign ∈ [[], [0x2D]] → IntegerText i → FractionText f →
      ExponentText x → NumberText (sign ++ (i ++ (f ++ x)))

/-! ## Values -/

def Frame.opening : Frame → UInt8
  | .array => 0x5B
  | .object => 0x7B

/-- What stands in front of the value of an entry. -/
inductive Label : Frame → Bytes → Prop
  | array : Label .array []
  | object {k w : Bytes} : LooseText k → Blanks w →
      Label .object (0x22 :: (k ++ 0x22 :: (w ++ [0x3A])))

/-- A value that has no entries. -/
inductive ScalarText : Bytes → Prop
  | null : ScalarText (0x6E :: ull)
  | true : ScalarText (0x74 :: rue)
  | false : ScalarText (0x66 :: alse)
  | number {t : Bytes} : NumberText t → ScalarText t
  | string {t : Bytes} : LooseText t → ScalarText (0x22 :: (t ++ [0x22]))

/-- The kinds of phrases that contain each other. -/
inductive Phrase where
  | value
  /-- The entries of an array or object, with the blanks around them. -/
  | entries (frame : Frame)

/-- A value that nobody reads, or the entries of one. -/
inductive PhraseText : Phrase → Bytes → Prop
  | scalar {t : Bytes} : ScalarText t → PhraseText .value t
  | empty {frame : Frame} {w : Bytes} : Blanks w →
      PhraseText .value (frame.opening :: (w ++ [frame.close]))
  | nested {frame : Frame} {t : Bytes} : PhraseText (.entries frame) t →
      PhraseText .value (frame.opening :: (t ++ [frame.close]))
  | last {frame : Frame} {u l v t w : Bytes} : Blanks u → Label frame l → Blanks v →
      PhraseText .value t → Blanks w → PhraseText (.entries frame) (u ++ (l ++ (v ++ (t ++ w))))
  | more {frame : Frame} {u l v t w r : Bytes} : Blanks u → Label frame l → Blanks v →
      PhraseText .value t → Blanks w → PhraseText (.entries frame) r →
      PhraseText (.entries frame) (u ++ (l ++ (v ++ (t ++ (w ++ 0x2C :: r)))))

/-! ## Values that are read -/

section

variable {α : Type}

inductive NullableText (value : Bytes → α → Prop) : Bytes → Option α → Prop
  | null : NullableText value (0x6E :: ull) none
  | some {t : Bytes} {a : α} : value t a → NullableText value t (some a)

/-- What stands in front of an item: blanks, and a comma if it is not the first. -/
inductive Lead : (first : Bool) → Bytes → Prop
  | first {w : Bytes} : Blanks w → Lead true w
  | later {v w : Bytes} : Blanks v → Blanks w → Lead false (v ++ 0x2C :: w)

/-- Items with commas between them, and blanks behind the last. -/
inductive Items (item : Bytes → α → Prop) : (first : Bool) → Bytes → List α → Prop
  | nil {first : Bool} {w : Bytes} : Blanks w → Items item first w []
  | cons {first : Bool} {u t more : Bytes} {a : α} {as : List α} : Lead first u → item t a →
      Items item false more as → Items item first (u ++ (t ++ more)) (a :: as)

/-- Items in brackets or braces. -/
inductive Enclosed (frame : Frame) (item : Bytes → α → Prop) : Bytes → List α → Prop
  | mk {t : Bytes} {as : List α} : Items item true t as →
      Enclosed frame item (frame.opening :: (t ++ [frame.close])) as

/-- One of the cases by its name, or the object whose one member has that name and is `null`. -/
inductive VariantText (cases : List (String × α)) : Bytes → α → Prop
  | name {t : Bytes} {name : String} {a : α} : StringText t name → cases.lookup name = some a →
      VariantText cases t a
  | object {t u v w x : Bytes} {name : String} {a : α} : Blanks u → StringText t name →
      cases.lookup name = some a → Blanks v → Blanks w → Blanks x →
      VariantText cases (0x7B :: (u ++ (t ++ (v ++ 0x3A :: (w ++ (0x6E :: ull ++ (x ++ [0x7D])))))))
        a

/-! ## Objects of any members -/

/-- Any value, standing for itself. -/
inductive RawText : Bytes → Bytes → Prop
  | mk {t : Bytes} : PhraseText .value t → RawText t t

/-- A member of an object: its name, and what its value means. -/
inductive PairText (value : Bytes → α → Prop) : Bytes → String × α → Prop
  | mk {k u v t : Bytes} {name : String} {a : α} : StringText k name → Blanks u → Blanks v →
      value t a → PairText value (k ++ (u ++ 0x3A :: (v ++ t))) (name, a)

/-- An object with these members in this order, and with no others. -/
def ObjectText (value : Bytes → α → Prop) : Bytes → List (String × α) → Prop :=
  Enclosed .object (PairText value)

/-! ## Records -/

/-- A field of a record: the texts of its values, and what each of them makes of the record. -/
structure FieldText (α : Type) where
  name : String
  absence : Absence
  text : Bytes → (α → α) → Prop

/-- A field whose value is put into the record by `set`. -/
def FieldText.ofText {β : Type} (name : String) (absence : Absence) (value : Bytes → β → Prop)
    (set : β → α → α) : FieldText α :=
  ⟨name, absence, fun t f => ∃ b, value t b ∧ f = set b⟩

/-- A member of an object: a field with what it makes of the record, or any other member. -/
inductive MemberText (fields : List (FieldText α)) : Bytes → Option (String × (α → α)) → Prop
  | field {φ : FieldText α} {k u v t : Bytes} {f : α → α} : φ ∈ fields → StringText k φ.name →
      Blanks u → Blanks v → φ.text t f →
      MemberText fields (k ++ (u ++ 0x3A :: (v ++ t))) (some (φ.name, f))
  | other {k u v t : Bytes} {name : String} : StringText k name → (∀ φ ∈ fields, φ.name ≠ name) →
      Blanks u → Blanks v → PhraseText .value t →
      MemberText fields (k ++ (u ++ 0x3A :: (v ++ t))) none

/-- The values of fields with commas between them, and blanks behind the last. Fields at the end may
be missing if they may be missing anywhere. -/
inductive FieldItems : (first : Bool) → List (FieldText α) → Bytes → List (α → α) → Prop
  | nil {first : Bool} {fields : List (FieldText α)} {w : Bytes} : Blanks w →
      (∀ φ ∈ fields, φ.absence = .anywhere) → FieldItems first fields w []
  | cons {first : Bool} {φ : FieldText α} {fields : List (FieldText α)} {u t more : Bytes}
      {f : α → α} {fs : List (α → α)} : Lead first u → φ.text t f →
      FieldItems false fields more fs → FieldItems first (φ :: fields) (u ++ (t ++ more)) (f :: fs)

/-- What the fields make of a record, one after the other. -/
def applied (fs : List (α → α)) (start : α) : α := fs.foldl (fun a f => f a) start

/-- A record with these fields, of which those that are missing keep their value in `start`. No field
comes twice, and those that may not be missing are there. -/
inductive RecordText (fields : List (FieldText α)) (start : α) : Bytes → α → Prop
  | object {t : Bytes} {members : List (Option (String × (α → α)))} :
      Enclosed .object (MemberText fields) t members →
      (members.reduceOption.map (·.1)).Nodup →
      (∀ φ ∈ fields, φ.absence = .nowhere → φ.name ∈ members.reduceOption.map (·.1)) →
      RecordText fields start t (applied (members.reduceOption.map (·.2)) start)
  | array {t : Bytes} {fs : List (α → α)} : FieldItems true fields t fs →
      RecordText fields start (0x5B :: (t ++ [0x5D])) (applied fs start)

end

end SyntaxGateway.Json
