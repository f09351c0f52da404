import SyntaxGateway.Toml.Quoted

/-!
# Words of TOML

Booleans, integers, floats and moments in time are words without blanks, apart from the blank that
may stand between a date and a time. Which float or which moment a word writes is of no interest
here, only whether it is one.
-/

namespace SyntaxGateway.Toml

/-! ## Integers -/

/-- The digits of a number without the underscores, each of which must stand between two digits. -/
def plainDigits? (isDigit : Char → Bool) : List Char → Option (List Char)
  | [] => none
  | [c] => if isDigit c then some [c] else none
  | c :: d :: rest =>
    if !isDigit c then none
    else if d = '_' then (plainDigits? isDigit rest).map (c :: ·)
    else (plainDigits? isDigit (d :: rest)).map (c :: ·)

/-- The number that digits write. -/
def numberOf (base : Nat) (digits : List Char) : Nat :=
  digits.foldl (fun n c => n * base + (hexValue? c).getD 0) 0

/-- A digit of a base up to sixteen. -/
def isDigitOf (base : Nat) (c : Char) : Bool := (hexValue? c).any (· < base)

/-- A sign and what follows it. -/
def sign : List Char → Bool × List Char
  | '-' :: rest => (true, rest)
  | '+' :: rest => (false, rest)
  | word => (false, word)

/-- The digits of an integer of base ten. A zero in front of other digits is not allowed. -/
def decimalDigits? (word : List Char) : Option (List Char) := do
  let digits ← plainDigits? (isDigitOf 10) word
  if 1 < digits.length && digits.head? = some '0' then none else some digits

/-- The integers that can be written. -/
def isInRange (n : Int) : Bool := -Nat.pow 2 63 ≤ n && n < Nat.pow 2 63

/-- The integer that a word writes, with or without a sign in base ten, or without one in base
sixteen, eight or two. -/
def integer? (word : List Char) : Option Int :=
  let based (base : Nat) (digits : List Char) : Option Int := do
    let n := numberOf base (← plainDigits? (isDigitOf base) digits)
    if n < Nat.pow 2 63 then some n else none
  match word with
  | '0' :: 'x' :: digits => based 16 digits
  | '0' :: 'o' :: digits => based 8 digits
  | '0' :: 'b' :: digits => based 2 digits
  | _ => do
    let (negative, digits) := sign word
    let n : Int := numberOf 10 (← decimalDigits? digits)
    let n := if negative then -n else n
    if isInRange n then some n else none

/-! ## Floats -/

/-- `digits · 10 ^ exponent` is too large for a double. -/
def overflows (digits : Nat) (exponent : Int) : Bool :=
  let limit := Nat.pow 2 1024 - Nat.pow 2 970
  let size : Int := (Nat.toDigits 10 digits).length + exponent
  if digits = 0 || size < 300 then false
  else if 320 < size then true
  else if 0 ≤ exponent then limit ≤ digits * Nat.pow 10 exponent.toNat
  else limit * Nat.pow 10 (-exponent).toNat ≤ digits

/-- A word is a float: the digits of an integer with a fraction or an exponent, or one of two names.
One that is too large is none. -/
def isFloat (word : List Char) : Bool :=
  let (negative, body) := sign word
  if body = "inf".toList || body = "nan".toList then true
  else
    let isExponent (c : Char) : Bool := c = 'e' || c = 'E'
    let mantissa := body.takeWhile (!isExponent ·)
    let whole := mantissa.takeWhile (· ≠ '.')
    let fraction : Option (Option (List Char)) :=
      match mantissa.dropWhile (· ≠ '.') with
      | [] => some none
      | _ :: digits => (plainDigits? (isDigitOf 10) digits).map some
    let exponent : Option (Option Int) :=
      match body.dropWhile (!isExponent ·) with
      | [] => some none
      | _ :: digits =>
        let (down, digits) := sign digits
        (plainDigits? (isDigitOf 10) digits).map fun digits =>
          some (if down then -numberOf 10 digits else numberOf 10 digits)
    match decimalDigits? whole, fraction, exponent with
    | some whole, some fraction, some exponent =>
      let digits := fraction.getD []
      (fraction.isSome || exponent.isSome) &&
        (negative ||
          !overflows (numberOf 10 (whole ++ digits)) (exponent.getD 0 - digits.length))
    | _, _, _ => false

/-! ## Moments -/

/-- The number that exactly `count` digits in front write. -/
def fixedNumber? (count : Nat) (word : List Char) : Option (Nat × List Char) :=
  let digits := word.take count
  if digits.length = count && digits.all (isDigitOf 10) then
    some (numberOf 10 digits, word.drop count)
  else none

/-- What follows a character. -/
def behind? (c : Char) : List Char → Option (List Char)
  | d :: rest => if d = c then some rest else none
  | [] => none

/-- The days of a month. -/
def daysOf (year month : Nat) : Nat :=
  if month = 2 then if year % 4 = 0 && (year % 100 ≠ 0 || year % 400 = 0) then 29 else 28
  else if [4, 6, 9, 11].contains month then 30
  else 31

/-- What follows a date. -/
def behindDate? (word : List Char) : Option (List Char) := do
  let (year, rest) ← fixedNumber? 4 word
  let (month, rest) ← fixedNumber? 2 (← behind? '-' rest)
  let (day, rest) ← fixedNumber? 2 (← behind? '-' rest)
  if 1 ≤ month && month ≤ 12 && 1 ≤ day && day ≤ daysOf year month then some rest else none

/-- What follows an hour and a minute. -/
def behindMinute? (word : List Char) : Option (List Char) := do
  let (hour, rest) ← fixedNumber? 2 word
  let (minute, rest) ← fixedNumber? 2 (← behind? ':' rest)
  if hour ≤ 23 && minute ≤ 59 then some rest else none

/-- What follows a time of day. -/
def behindTime? (word : List Char) : Option (List Char) := do
  let rest ← behindMinute? word
  let (second, rest) ← fixedNumber? 2 (← behind? ':' rest)
  if 60 < second then none
  else
    match rest with
    | '.' :: c :: rest => if isDigitOf 10 c then some (rest.dropWhile (isDigitOf 10)) else none
    | _ => some rest

/-- A word is nothing, or an offset from the time at Greenwich. -/
def isOffset (word : List Char) : Bool :=
  match word with
  | [] | ['Z'] | ['z'] => true
  | '+' :: rest | '-' :: rest => behindMinute? rest = some []
  | _ => false

/-- A word is a date, a time, or both with an offset or without. -/
def isMoment (word : List Char) : Bool :=
  match behindDate? word with
  | some [] => true
  | some (c :: rest) =>
    (c = 'T' || c = 't' || c = ' ') && ((behindTime? rest).map isOffset).getD false
  | none => behindTime? word = some []

/-- A word is a date without a time. -/
def isDate (word : List Char) : Bool := behindDate? word = some []

/-! ## Words -/

/-- A character of a word. -/
def isWordChar (c : Char) : Bool :=
  c.isAlphanum || c = '_' || c = '+' || c = '-' || c = '.' || c = ':'

/-- The word in front. A date takes the time behind a blank with it. -/
def word (input : List Char) : List Char × List Char :=
  let first := input.takeWhile isWordChar
  match input.dropWhile isWordChar with
  | ' ' :: c :: rest =>
    if isDate first && c.isDigit then
      (first ++ ' ' :: (c :: rest).takeWhile isWordChar, (c :: rest).dropWhile isWordChar)
    else (first, ' ' :: c :: rest)
  | rest => (first, rest)

end SyntaxGateway.Toml
