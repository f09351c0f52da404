import SyntaxGateway.Json.Skip

/-!
# Reading JSON of a given shape

Readers for values of a known shape, which stop at the first byte that does not fit. A record is
an object with its fields in any order, or an array of its fields in their order; members that are
no field are skipped. Each array and each object that is entered takes one level of a reader's
depth, so that hostile nesting ends in a fault.
-/

namespace SyntaxGateway.Json

/-! ## Plain values -/

/-- A string. -/
def string : Scan String := fun input =>
  match skipBlanks input with
  | 0x22 :: rest => stringBody rest
  | rest => wrongType "a string" rest

/-- A natural number below `limit`; `expected` names the type. -/
def natural (expected : String) (limit : Nat) : Scan Nat := fun input => do
  match skipBlanks input with
  | [] => fail .endInValue []
  | b :: rest =>
    if b == 0x2D || isDigit b then
      match ← number (b :: rest) with
      | (.integer n, rest) =>
        if 0 ≤ n ∧ n < limit then return (n.toNat, rest)
        else fail (.wrongInteger n expected) rest
      | (.float text, rest) => fail (.wrongType (.float text) expected) rest
    else wrongType expected (b :: rest)

/-- A value that may be `null`. -/
def nullable {α : Type} (value : Scan α) : Scan (Option α) := fun input =>
  match skipBlanks input with
  | 0x6E :: rest => return (none, ← ident ull rest)
  | input => do
    let (a, rest) ← value input
    return (some a, rest)

/-- `null` and nothing else. -/
def unit : Scan Unit := fun input =>
  match skipBlanks input with
  | 0x6E :: rest => return ((), ← ident ull rest)
  | rest => wrongType "unit" rest

/-! ## Arrays and objects -/

/-- Enters the array or object in front, if a level is left for it. -/
def enter (depth : Nat) (input : Bytes) : Except Fault Bytes :=
  if depth = 0 then failAt .tooNested input else .ok (input.drop 1)

/-- The bytes of the next element of an array, or `none` in front of the closing bracket. -/
def nextElement (first : Bool) (input : Bytes) : Except Fault (Option Bytes × Bytes) :=
  match skipBlanks input with
  | [] => fail .endInList []
  | 0x5D :: rest => .ok (none, 0x5D :: rest)
  | b :: rest =>
    if first then .ok (some (b :: rest), [])
    else if b == 0x2C then
      match skipBlanks rest with
      | [] => fail .endInValue []
      | 0x5D :: rest => fail .trailingComma rest
      | rest => .ok (some rest, [])
    else fail .expectedCommaOrBracket rest

/-- Reads the elements of an array up to its closing bracket, after the values `before` (latest
first). Each takes a byte or more. -/
def elementsFrom {α : Type} (item : Scan α) :
    (fuel : Nat) → (before : List α) → Bytes → Except Fault (List α × Bytes)
  | 0, _, input => fail .endInList input
  | fuel + 1, before, input => do
    match ← nextElement before.isEmpty input with
    | (none, rest) => return (before.reverse, rest.drop 1)
    | (some element, _) =>
      let (a, rest) ← item element
      elementsFrom item fuel (a :: before) rest

/-- An array of items. -/
def list {α : Type} (depth : Nat) (item : Scan α) : Scan (List α) := fun input => do
  match skipBlanks input with
  | 0x5B :: rest =>
    let rest ← enter depth (0x5B :: rest)
    elementsFrom item (rest.length + 1) [] rest
  | rest => wrongType "a sequence" rest

/-- The key of the next member of an object and the bytes behind it, or `none` with the bytes behind
the closing brace. -/
def nextKey (first : Bool) (input : Bytes) : Except Fault (Option String × Bytes) :=
  match skipBlanks input with
  | [] => fail .endInObject []
  | 0x7D :: rest => .ok (none, rest)
  | b :: rest =>
    if first then
      if b == 0x22 then key rest else fail .keyNotString rest
    else if b == 0x2C then
      match skipBlanks rest with
      | [] => fail .endInValue []
      | 0x22 :: rest => key rest
      | 0x7D :: rest => fail .trailingComma rest
      | rest => failAt .keyNotString rest
    else fail .expectedCommaOrBrace rest
where
  key (input : Bytes) : Except Fault (Option String × Bytes) := do
    let (name, rest) ← stringBody input
    return (some name, rest)

/-- The bytes behind the colon in front. -/
def colon (input : Bytes) : Except Fault Bytes :=
  match skipBlanks input with
  | [] => fail .endInObject []
  | 0x3A :: rest => .ok rest
  | rest => failAt .expectedColon rest

/-- Reads the members of an object up to its closing brace, after the members `before` (latest
first). Each takes a byte or more. -/
def membersFrom {α : Type} (item : Scan α) :
    (fuel : Nat) → (before : List (String × α)) → Bytes → Except Fault (List (String × α) × Bytes)
  | 0, _, input => fail .endInObject input
  | fuel + 1, before, input => do
    match ← nextKey before.isEmpty input with
    | (none, rest) => return (before.reverse, rest)
    | (some name, rest) =>
      let (a, rest) ← item (← colon rest)
      membersFrom item fuel ((name, a) :: before) rest

/-- An object of items under any keys, in order. -/
def dictionary {α : Type} (depth : Nat) (item : Scan α) :
    Scan (List (String × α)) := fun input => do
  match skipBlanks input with
  | 0x7B :: rest =>
    let rest ← enter depth (0x7B :: rest)
    membersFrom item (rest.length + 1) [] rest
  | rest => wrongType "a map" rest

/-! ## Records -/

/-- Where a field may be missing. -/
inductive Absence where
  | nowhere
  /-- From an object, but not from an array. -/
  | inObjects
  | anywhere
deriving DecidableEq, Repr

/-- A field of a record of type `α`: how to read it into the record. -/
structure RecordField (α : Type) where
  name : String
  absence : Absence
  read : Scan (α → α)

/-- A field whose value is put into the record by `set`. -/
def RecordField.ofScan {α β : Type} (name : String) (absence : Absence) (value : Scan β)
    (set : β → α → α) : RecordField α :=
  ⟨name, absence, fun input => do
    let (b, rest) ← value input
    return (set b, rest)⟩

/-- A fault inside the value that a step leads to. -/
def inside {α : Type} (step : PathStep) (result : Except Fault α) : Except Fault α :=
  result.mapError fun fault => { fault with path := step :: fault.path }

/-- The first field that is missing from an object with the members `seen`. -/
def missing? {α : Type} (fields : List (RecordField α)) (seen : List String) : Option String :=
  (fields.find? fun f => f.absence = .nowhere && !seen.contains f.name).map (·.name)

/-- What is left behind a key that comes a second time: blanks are passed, and the end of the object
if it follows. -/
def behindDuplicate (input : Bytes) : Bytes :=
  match skipBlanks input with
  | 0x7D :: rest => rest
  | rest => rest

/-- Reads the members of a record up to its closing brace into `record`, with the fields `seen` and
possibly other members behind it. Each member takes a byte or more. -/
def recordMembersFrom {α : Type} (fields : List (RecordField α)) :
    (fuel : Nat) → (first : Bool) → (seen : List String) → (record : α) → Bytes →
      Except Fault (α × Bytes)
  | 0, _, _, _, input => fail .endInObject input
  | fuel + 1, first, seen, record, input => do
    match ← nextKey first input with
    | (none, rest) =>
      match missing? fields seen with
      | some name => fail (.missingField name) rest
      | none => return (record, rest)
    | (some name, rest) =>
      match fields.find? (·.name = name) with
      | some field =>
        if seen.contains name then fail (.duplicateField name) (behindDuplicate rest)
        else
          let value ← colon rest
          let (set, rest) ← inside (.field name) (field.read value)
          recordMembersFrom fields fuel false (name :: seen) (set record) rest
      | none =>
        let value ← colon rest
        let rest ← inside (.field name) (skipValue value)
        recordMembersFrom fields fuel false seen record rest

/-- Reads the closing bracket behind the last field of a record. -/
def recordEnd {α : Type} (record : α) (input : Bytes) : Except Fault (α × Bytes) :=
  match skipBlanks input with
  | [] => fail .endInList []
  | 0x5D :: rest => .ok (record, rest)
  | 0x2C :: rest =>
    match skipBlanks rest with
    | 0x5D :: rest => fail .trailingComma rest
    | rest => failAt .trailingCharacters rest
  | rest => failAt .trailingCharacters rest

/-- Reads the fields of a record that is written as an array, from the field with number `index`
on. `total` is the record's name and the number of its fields. -/
def recordElements {α : Type} (total : String × Nat) :
    (fields : List (RecordField α)) → (index : Nat) → (record : α) → Bytes →
      Except Fault (α × Bytes)
  | [], _, record, input => recordEnd record input
  | field :: fields, index, record, input => do
    match ← nextElement (index = 0) input with
    | (some element, _) =>
      let (set, rest) ← inside (.element index) (field.read element)
      recordElements total fields (index + 1) (set record) rest
    | (none, rest) =>
      if field.absence = .anywhere then recordElements total fields (index + 1) record rest
      else fail (.wrongLength index total.1 total.2) (rest.drop 1)

/-- A record with these fields, of which those that are missing keep their value in `start`. -/
def record {α : Type} (depth : Nat) (name : String) (fields : List (RecordField α)) (start : α) :
    Scan α :=
  fun input => do
    match skipBlanks input with
    | 0x7B :: rest =>
      let rest ← enter depth (0x7B :: rest)
      recordMembersFrom fields (rest.length + 1) true [] start rest
    | 0x5B :: rest =>
      let rest ← enter depth (0x5B :: rest)
      recordElements (name, fields.length) fields 0 start rest
    | rest => wrongType s!"struct {name}" rest

/-! ## Variants -/

/-- The case with the name that the string in front holds. -/
def caseName {α : Type} (cases : List (String × α)) : Scan α := fun input => do
  let (name, rest) ← stringBody input
  match cases.lookup name with
  | some a => return (a, rest)
  | none => fail (.unknownVariant name (cases.map (·.1))) rest

/-- One of several named cases: its name, or an object with its name as the key of `null`. -/
def variant {α : Type} (depth : Nat) (cases : List (String × α)) : Scan α := fun input => do
  match skipBlanks input with
  | [] => fail .endInValue []
  | 0x22 :: rest => caseName cases rest
  | 0x7B :: rest =>
    match skipBlanks (← enter depth (0x7B :: rest)) with
    | 0x22 :: rest =>
      let (a, rest) ← caseName cases rest
      let (_, rest) ← unit (← colon rest)
      match skipBlanks rest with
      | 0x7D :: rest => return (a, rest)
      | [] => fail .endInObject []
      | rest => fail .expectedValue rest
    | rest => wrongType "variant identifier" rest
  | rest => failAt .expectedValue rest

/-! ## Whole texts -/

/-- The number of arrays and objects that may be open at a time. -/
def maxNesting : Nat := 127

/-- A value behind which only blanks stand. -/
def whole {α : Type} (value : Scan α) (text : Bytes) : Except Fault α := do
  let (a, rest) ← value text
  match skipBlanks rest with
  | [] => return a
  | rest => failAt .trailingCharacters rest

end SyntaxGateway.Json
