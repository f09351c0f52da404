/-!
# Floating-point numbers as decimals

The decimal with the fewest digits that reads back as a given double, and its text. A double stands
for all reals that round to it, an interval around its value; the ends belong to it when its
significand is even. A decimal with `d` digits lies on a grid of powers of ten, and the coarsest
grid with a point in the interval has the fewest digits. Of the two points next to the value the
nearer one is taken.

All this is done in exact arithmetic on natural numbers.
-/

namespace SyntaxGateway.Decimal

/-! ## Digits -/

/-- A positive decimal `digits · 10 ^ exponent`. -/
structure Short where
  digits : Nat
  exponent : Int
deriving DecidableEq, Repr

/-- The interval of the reals that round to a positive double, in units of `2 ^ scale`. -/
structure Interval where
  low : Nat
  value : Nat
  high : Nat
  scale : Int
  closed : Bool

/-- The interval of the double with the given exponent and fraction fields. Just above a power of
two the doubles below are twice as close as those above. -/
def Interval.ofFields (exponent fraction : Nat) : Interval :=
  let significand := if exponent = 0 then fraction else fraction + Nat.pow 2 52
  let scale : Int := max exponent 1 - 1075
  let below := if fraction = 0 ∧ 1 < exponent then 1 else 2
  ⟨4 * significand - below, 4 * significand, 4 * significand + 2, scale - 2, significand % 2 = 0⟩

/-- `n · 2 ^ scale` in units that make it a natural number beside multiples of `10 ^ k`. -/
def Interval.lift (i : Interval) (k : Int) (n : Nat) : Nat :=
  n * Nat.pow 2 i.scale.toNat * Nat.pow 10 (-k).toNat

/-- `10 ^ k` in the units of `lift`. -/
def Interval.grid (i : Interval) (k : Int) : Nat := Nat.pow 10 k.toNat * Nat.pow 2 (-i.scale).toNat

/-- The point `d · 10 ^ k` lies in the interval. -/
def Interval.contains (i : Interval) (k : Int) (d : Nat) : Bool :=
  let point := d * i.grid k
  if i.closed then i.lift k i.low ≤ point && point ≤ i.lift k i.high
  else i.lift k i.low < point && point < i.lift k i.high

/-- The point of the grid `10 ^ k` in the interval that is nearest to the value, the even one of two
that are equally near. -/
def Interval.nearest? (i : Interval) (k : Int) : Option Nat :=
  let value := i.lift k i.value
  let d := value / i.grid k
  let below := value - d * i.grid k
  let above := (d + 1) * i.grid k - value
  match d ≠ 0 && i.contains k d, i.contains k (d + 1) with
  | true, true =>
    if below < above then some d
    else if above < below then some (d + 1)
    else if d % 2 = 0 then some d
    else some (d + 1)
  | true, false => some d
  | false, true => some (d + 1)
  | false, false => none

/-- The first grid at or below `10 ^ k` with a point in the interval, among `grids` grids. -/
def Interval.shortestFrom (i : Interval) : (grids : Nat) → (k : Int) → Short
  | 0, k => ⟨0, k⟩
  | grids + 1, k =>
    match i.nearest? k with
    | some d => ⟨d, k⟩
    | none => i.shortestFrom grids (k - 1)

/-- The shortest decimal in the interval. No double reaches `10 ^ 309`, and every interval of a
double is wider than `10 ^ (-326)`. -/
def Interval.shortest (i : Interval) : Short := i.shortestFrom 640 309

/-! ## Text -/

/-- Exponents of the first digit for which a number is written without an exponent. -/
def plainExponents : Int × Int := (-5, 15)

/-- An exponent with its sign and at least two digits. -/
def exponentText (e : Int) : List Char :=
  let digits := Nat.toDigits 10 e.natAbs
  (if e < 0 then '-' else '+') :: (if digits.length < 2 then '0' :: digits else digits)

/-- The decimal as text. It always has a point or an exponent. -/
def Short.text (s : Short) : List Char :=
  let digits := Nat.toDigits 10 s.digits
  let leading := s.exponent + (digits.length - 1 : Nat)
  if plainExponents.1 ≤ leading ∧ leading ≤ plainExponents.2 then
    if 0 ≤ s.exponent then digits ++ List.replicate s.exponent.toNat '0' ++ ['.', '0']
    else if 0 ≤ leading then
      digits.take (leading.toNat + 1) ++ '.' :: digits.drop (leading.toNat + 1)
    else '0' :: '.' :: (List.replicate (-leading - 1).toNat '0' ++ digits)
  else
    match digits with
    | [d] => d :: 'e' :: exponentText leading
    | d :: rest => d :: '.' :: (rest ++ 'e' :: exponentText leading)
    | [] => []

/-- The text of a finite double. -/
def text (x : Float) : String :=
  let bits := x.toBits.toNat
  let fraction := bits % Nat.pow 2 52
  let exponent := bits / Nat.pow 2 52 % Nat.pow 2 11
  let sign := if bits / Nat.pow 2 63 = 1 then ['-'] else []
  String.ofList <| sign ++
    if fraction = 0 ∧ exponent = 0 then ['0', '.', '0']
    else (Interval.ofFields exponent fraction).shortest.text

end SyntaxGateway.Decimal
