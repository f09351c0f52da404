import SyntaxGateway.Decimal
import SyntaxGateway.Json.Fault

/-!
# The words of JSON

Readers for blanks, fixed words, strings and numbers. Each takes the bytes in front of it and
returns the bytes behind what it read. A fault lies either behind the last byte read or one byte
further, behind the byte that was looked at.
-/

namespace SyntaxGateway.Json

/-- A reader of JSON. -/
abbrev Scan (α : Type) := StateT Bytes (Except Fault) α

/-- The problem lies in front of `rest`. -/
def fail {α : Type} (problem : Problem) (rest : Bytes) : Except Fault α :=
  .error ⟨problem, rest, []⟩

/-- The problem is the first byte of `rest`, or its end if there is none. -/
def failAt {α : Type} (problem : Problem) (rest : Bytes) : Except Fault α :=
  fail problem (rest.drop 1)

/-- A blank of JSON: a space, a tab, a line feed or a carriage return. -/
def isBlank (b : UInt8) : Bool := b == 0x20 || b == 0x09 || b == 0x0A || b == 0x0D

def skipBlanks (input : Bytes) : Bytes := input.dropWhile isBlank

/-! ## Fixed words -/

/-- Reads the rest of a fixed word. -/
def ident : (word : Bytes) → Bytes → Except Fault Bytes
  | [], input => .ok input
  | _ :: _, [] => fail .endInValue []
  | w :: word, b :: rest => if w == b then ident word rest else fail .expectedIdent rest

/-- What is left of `null` behind its first letter. -/
def ull : Bytes := [0x75, 0x6C, 0x6C]

/-- What is left of `true` behind its first letter. -/
def rue : Bytes := [0x72, 0x75, 0x65]

/-- What is left of `false` behind its first letter. -/
def alse : Bytes := [0x61, 0x6C, 0x73, 0x65]

/-! ## Strings -/

/-- The value of a digit of base sixteen. -/
def hexValue? (b : UInt8) : Option Nat :=
  let n := b.toNat
  if 48 ≤ n && n ≤ 57 then some (n - 48)
  else if 65 ≤ n && n ≤ 70 then some (n - 55)
  else if 97 ≤ n && n ≤ 102 then some (n - 87)
  else none

/-- The number that the next four bytes write in base sixteen. -/
def hexUnit : Bytes → Except Fault Nat
  | a :: b :: c :: d :: rest =>
    match hexValue? a, hexValue? b, hexValue? c, hexValue? d with
    | some a, some b, some c, some d => .ok (((a * 16 + b) * 16 + c) * 16 + d)
    | _, _, _, _ => fail .invalidEscape rest
  | _ => fail .endInString []

/-- The first half of a pair of surrogates. -/
def isLeading (n : Nat) : Bool := 0xD800 ≤ n && n ≤ 0xDBFF

/-- The second half of a pair of surrogates. -/
def isTrailing (n : Nat) : Bool := 0xDC00 ≤ n && n ≤ 0xDFFF

/-- The byte that a short escape stands for. -/
def shortEscape? (b : UInt8) : Option UInt8 :=
  match Char.ofNat b.toNat with
  | '"' => some 0x22
  | '\\' => some 0x5C
  | '/' => some 0x2F
  | 'b' => some 0x08
  | 'f' => some 0x0C
  | 'n' => some 0x0A
  | 'r' => some 0x0D
  | 't' => some 0x09
  | _ => none

/-- What an escape stands for, and the number of its bytes behind the backslash. Surrogates must
come in pairs. -/
def escaped : Bytes → Except Fault (Bytes × Nat)
  | [] => fail .endInString []
  | e :: rest =>
    match shortEscape? e with
    | some b => .ok ([b], 1)
    | none =>
      if e ≠ 0x75 then fail .invalidEscape rest
      else do
        let first ← hexUnit rest
        if isTrailing first then fail .loneSurrogate (rest.drop 4)
        else if isLeading first then
          match rest.drop 4 with
          | [] | [0x5C] => fail .endInString []
          | 0x5C :: 0x75 :: more =>
            let second ← hexUnit more
            if isTrailing second then
              let code := (first - 0xD800) * 0x400 + (second - 0xDC00) + 0x10000
              return (String.utf8EncodeChar (Char.ofNat code), 11)
            else fail .loneSurrogate (more.drop 4)
          | 0x5C :: _ :: more => fail .unexpectedEndOfEscape more
          | _ :: more => fail .unexpectedEndOfEscape more
        else return (String.utf8EncodeChar (Char.ofNat first), 5)

/-- Reads a string up to its closing quote, after the bytes `read` (latest first). -/
def stringFrom (read : Bytes) (input : Bytes) : Except Fault (Bytes × Bytes) :=
  match input with
  | [] => fail .endInString []
  | b :: rest =>
    if b == 0x22 then .ok (read.reverse, input)
    else if b == 0x5C then
      match escaped rest with
      | .ok (bytes, count) => stringFrom (bytes.reverse ++ read) (rest.drop count)
      | .error fault => .error fault
    else if b < 0x20 then fail .controlCharacter rest
    else stringFrom (b :: read) rest
termination_by input.length
decreasing_by all_goals simp only [List.length_drop, List.length_cons]; omega

/-- A string behind its opening quote. That its bytes are UTF-8 is seen at the closing quote. -/
def stringBody : Scan String := fun input => do
  let (bytes, rest) ← stringFrom [] input
  match Utf8.toString? bytes with
  | .ok s => return (s, rest.drop 1)
  | .error _ => fail .invalidCodePoint rest

/-! ## Numbers -/

/-- A number: an integer of 64 bits, with a sign or without, or the text of a double. -/
inductive Number where
  | integer (n : Int)
  | float (text : String)
deriving DecidableEq, Repr

def isDigit (b : UInt8) : Bool := 0x30 ≤ b && b ≤ 0x39

def digitValue (b : UInt8) : Nat := b.toNat - 0x30

/-- Appends digits to a number as long as it stays below `2 ^ 64`; the digits from the first one
that does not fit are returned. -/
def absorb (n : Nat) : Bytes → Nat × Bytes
  | [] => (n, [])
  | d :: rest =>
    if n * 10 + digitValue d < Nat.pow 2 64 then absorb (n * 10 + digitValue d) rest else (n, d :: rest)

/-- `x · 10 ^ exponent` in steps that a double can hold, or `none` if it is too large. -/
def scale (x : Float) (exponent : Int) : Option Float :=
  if exponent.natAbs ≤ 308 then
    if 0 ≤ exponent then
      let y := x * Float.ofScientific 1 false exponent.toNat
      if y.isInf then none else some y
    else some (x / Float.ofScientific 1 false exponent.natAbs)
  else if x == 0.0 then some x
  else if 0 ≤ exponent then none
  else scale (x / Float.ofScientific 1 false 308) (exponent + 308)
termination_by exponent.natAbs
decreasing_by omega

/-- The parts of a number as they are read. -/
structure NumberParts where
  negative : Bool
  /-- The digits that count, as a number. -/
  significand : Nat
  /-- The power of ten that goes with it. -/
  exponent : Int
  /-- The number has a fraction or an exponent, or too many digits. -/
  inexact : Bool

/-- The number with these parts, or `none` if it is out of range. Minus zero is a double, and so
is an integer below the range of 64 bits. -/
def NumberParts.value? (p : NumberParts) : Option Number :=
  let float := (scale p.significand.toUInt64.toFloat p.exponent).map fun x =>
    Number.float (Decimal.text (if p.negative then -x else x))
  if p.inexact then float
  else if !p.negative then some (.integer p.significand)
  else if p.significand = 0 || Nat.pow 2 63 < p.significand then float
  else some (.integer (-p.significand))

/-- The number with these parts, which ends in front of `rest`. -/
def NumberParts.finish (p : NumberParts) (rest : Bytes) : Except Fault (Number × Bytes) :=
  match p.value? with
  | some n => .ok (n, rest)
  | none => fail .numberOutOfRange rest

/-- The largest exponent that is read digit by digit. -/
def maxExponent : Nat := Nat.pow 2 31 - 1

/-- Reads the digits of an exponent behind the digits that make up `e`. One that grows too large
ends the number: it is zero, or out of range at once. -/
def exponentDigits (p : NumberParts) (down : Bool) (e : Nat) : Bytes → Except Fault (Number × Bytes)
  | [] => { p with exponent := if down then p.exponent - e else p.exponent + e }.finish []
  | b :: rest =>
    if isDigit b then
      if maxExponent < e * 10 + digitValue b then
        if p.significand ≠ 0 && !down then fail .numberOutOfRange rest
        else .ok (.float (if p.negative then "-0.0" else "0.0"), rest.dropWhile isDigit)
      else exponentDigits p down (e * 10 + digitValue b) rest
    else { p with exponent := if down then p.exponent - e else p.exponent + e }.finish (b :: rest)

/-- Reads an exponent behind its letter. -/
def exponentPart (p : NumberParts) (input : Bytes) : Except Fault (Number × Bytes) :=
  let p := { p with inexact := true }
  let (down, digits) := match input with
    | 0x2B :: rest => (false, rest)
    | 0x2D :: rest => (true, rest)
    | _ => (false, input)
  match digits with
  | [] => fail .endInValue []
  | b :: rest =>
    if isDigit b then exponentDigits p down (digitValue b) rest else fail .invalidNumber rest

/-- Reads what follows the digits in front of an exponent. -/
def afterDigits (p : NumberParts) (input : Bytes) : Except Fault (Number × Bytes) :=
  match input with
  | 0x65 :: rest | 0x45 :: rest => exponentPart p rest
  | _ => p.finish input

/-- Reads a fraction behind its point. -/
def fractionPart (p : NumberParts) (input : Bytes) : Except Fault (Number × Bytes) :=
  let digits := input.takeWhile isDigit
  let rest := input.dropWhile isDigit
  match digits with
  | [] => if rest = [] then fail .endInValue [] else failAt .invalidNumber rest
  | _ =>
    let (significand, dropped) := absorb p.significand digits
    let counted : Nat := digits.length - dropped.length
    afterDigits ⟨p.negative, significand, p.exponent - counted, true⟩ rest

/-- Reads what follows the integral digits of a number. -/
def afterInteger (p : NumberParts) (input : Bytes) : Except Fault (Number × Bytes) :=
  match input with
  | 0x2E :: rest => fractionPart p rest
  | _ => afterDigits p input

/-- Reads a number behind its sign. -/
def numberBody (negative : Bool) (input : Bytes) : Except Fault (Number × Bytes) :=
  match input with
  | [] => fail .endInValue []
  | b :: rest =>
    if b == 0x30 then
      match rest with
      | d :: more =>
        if isDigit d then fail .invalidNumber more else afterInteger ⟨negative, 0, 0, false⟩ rest
      | [] => afterInteger ⟨negative, 0, 0, false⟩ rest
    else if isDigit b then
      let (significand, dropped) := absorb 0 (input.takeWhile isDigit)
      afterInteger ⟨negative, significand, dropped.length, dropped ≠ []⟩ (input.dropWhile isDigit)
    else fail .invalidNumber rest

/-- Reads the number in front. -/
def number : Scan Number := fun input =>
  match input with
  | 0x2D :: rest => numberBody true rest
  | _ => numberBody false input

/-! ## What stands there -/

/-- Reads as much of a value as it takes to say what it is: an array or an object is left as it
stands. -/
def found : Scan Found := fun input =>
  match input with
  | 0x6E :: rest => return (.null, ← ident ull rest)
  | 0x74 :: rest => return (.boolean true, ← ident rue rest)
  | 0x66 :: rest => return (.boolean false, ← ident alse rest)
  | 0x22 :: rest => do
    let (s, rest) ← stringBody rest
    return (.string s, rest)
  | 0x5B :: _ => return (.sequence, input)
  | 0x7B :: _ => return (.map, input)
  | b :: _ =>
    if b == 0x2D || isDigit b then do
      match ← number input with
      | (.integer n, rest) => return (.integer n, rest)
      | (.float text, rest) => return (.float text, rest)
    else failAt .expectedValue input
  | [] => failAt .expectedValue input

/-- The value in front, after blanks, is not what was expected. -/
def wrongType {α : Type} (expected : String) : Scan α := fun input => do
  match skipBlanks input with
  | [] => fail .endInValue []
  | input =>
    let (found, rest) ← found input
    fail (.wrongType found expected) rest

end SyntaxGateway.Json
