import SyntaxGateway.Json.Scan

/-!
# Skipping values

A member that no field asks for is checked to be JSON and dropped. It may be nested to any depth, as
the open arrays and objects are kept in a list; and since nobody reads its strings, neither their
encoding nor the pairing of surrogates is checked.
-/

namespace SyntaxGateway.Json

/-! ## Words -/

/-- Skips a string up to and with its closing quote. -/
def skipString : (fuel : Nat) → Bytes → Except Fault Bytes
  | 0, input => fail .endInString input
  | _ + 1, [] => fail .endInString []
  | fuel + 1, b :: rest =>
    if b == 0x22 then .ok rest
    else if b == 0x5C then
      match rest with
      | [] => fail .endInString []
      | e :: rest =>
        if (shortEscape? e).isSome then skipString fuel rest
        else if e == 0x75 then do
          let _ ← hexUnit rest
          skipString fuel (rest.drop 4)
        else fail .invalidEscape rest
    else if b < 0x20 then fail .controlCharacter (b :: rest)
    else skipString fuel rest

/-- Skips an exponent behind its letter. -/
def skipExponent (input : Bytes) : Except Fault Bytes :=
  let digits := match input with
    | 0x2B :: rest | 0x2D :: rest => rest
    | _ => input
  match digits with
  | [] => fail .invalidNumber []
  | b :: rest => if isDigit b then .ok (rest.dropWhile isDigit) else fail .invalidNumber rest

/-- Skips what follows the digits in front of an exponent. -/
def skipAfterDigits : Bytes → Except Fault Bytes
  | 0x65 :: rest | 0x45 :: rest => skipExponent rest
  | input => .ok input

/-- Skips what follows the integral digits of a number. -/
def skipAfterInteger : Bytes → Except Fault Bytes
  | 0x2E :: b :: rest =>
    if isDigit b then skipAfterDigits (rest.dropWhile isDigit) else fail .invalidNumber rest
  | [0x2E] => fail .invalidNumber []
  | input => skipAfterDigits input

/-- Skips a number behind its sign. -/
def skipNumber : Bytes → Except Fault Bytes
  | [] => fail .invalidNumber []
  | b :: rest =>
    if b == 0x30 then
      match rest with
      | d :: more => if isDigit d then fail .invalidNumber more else skipAfterInteger rest
      | [] => .ok []
    else if isDigit b then skipAfterInteger (rest.dropWhile isDigit)
    else fail .invalidNumber rest

/-! ## Values -/

/-- An open array or object. -/
inductive Frame where
  | array
  | object
deriving DecidableEq, Repr

def Frame.close : Frame → UInt8
  | .array => 0x5D
  | .object => 0x7D

/-- The text ends inside the frame. -/
def Frame.atEnd : Frame → Problem
  | .array => .endInList
  | .object => .endInObject

/-- Neither a comma nor the end of the frame follows a value. -/
def Frame.noSeparator : Frame → Problem
  | .array => .expectedCommaOrBracket
  | .object => .expectedCommaOrBrace

/-- Where a skip stands. -/
inductive SkipState where
  /-- In front of a value. -/
  | value
  /-- In front of an entry of the innermost frame: a value, with a key if it is an object. -/
  | entry
  /-- Behind the opening of the innermost frame. -/
  | opened
  /-- Behind a value. -/
  | done

/-- Skips up to the end of the outermost value, from a state with the open `frames`, innermost
first. Every third step takes a byte or more. -/
def skipFrom : (fuel : Nat) → SkipState → (frames : List Frame) → Bytes → Except Fault Bytes
  | 0, _, _, input => fail .endInValue input
  | fuel + 1, .value, frames, input =>
    match skipBlanks input with
    | [] => fail .endInValue []
    | b :: rest => do
      if b == 0x6E then skipFrom fuel .done frames (← ident ull rest)
      else if b == 0x74 then skipFrom fuel .done frames (← ident rue rest)
      else if b == 0x66 then skipFrom fuel .done frames (← ident alse rest)
      else if b == 0x2D then skipFrom fuel .done frames (← skipNumber rest)
      else if isDigit b then skipFrom fuel .done frames (← skipNumber (b :: rest))
      else if b == 0x22 then skipFrom fuel .done frames (← skipString (rest.length + 1) rest)
      else if b == 0x5B then skipFrom fuel .opened (.array :: frames) rest
      else if b == 0x7B then skipFrom fuel .opened (.object :: frames) rest
      else fail .expectedValue rest
  | fuel + 1, .entry, frames, input =>
    if frames.head? = some .object then
      match skipBlanks input with
      | [] => fail .endInObject []
      | 0x22 :: rest => do
        match skipBlanks (← skipString (rest.length + 1) rest) with
        | [] => fail .endInObject []
        | 0x3A :: rest => skipFrom fuel .value frames rest
        | rest => failAt .expectedColon rest
      | rest => failAt .keyNotString rest
    else skipFrom fuel .value frames input
  | _ + 1, .opened, [], input => .ok input
  | fuel + 1, .opened, frame :: frames, input =>
    match skipBlanks input with
    | [] => fail frame.atEnd []
    | b :: rest =>
      if b == frame.close then skipFrom fuel .done frames rest
      else skipFrom fuel .entry (frame :: frames) (b :: rest)
  | _ + 1, .done, [], input => .ok input
  | fuel + 1, .done, frame :: frames, input =>
    match skipBlanks input with
    | [] => fail frame.atEnd []
    | b :: rest =>
      if b == 0x2C then skipFrom fuel .entry (frame :: frames) rest
      else if b == frame.close then skipFrom fuel .done frames rest
      else fail frame.noSeparator rest

/-- Skips the value in front. -/
def skipValue (input : Bytes) : Except Fault Bytes :=
  skipFrom (3 * input.length + 3) .value [] input

end SyntaxGateway.Json
