/-!
# Punycode

Labels of hosts in ASCII. The ASCII characters of a label come first; the others follow as one
number per occurrence, in the order of their code points, that says how far to count through the
places and code points in between. The digits of a number have weights that adapt to the numbers
before it.
-/

namespace SyntaxGateway.Url.Punycode

/-- A digit of base 36. -/
def digit (d : Nat) : Char := if d < 26 then Char.ofNat (97 + d) else Char.ofNat (22 + d)

/-- The least value of a last digit at place `k`. -/
def threshold (k bias : Nat) : Nat := if k ≤ bias then 1 else min 26 (k - bias)

/-- The digits of a number, from place `k` on. -/
def digits (bias k n : Nat) : List Char :=
  let t := threshold k bias
  if n < t then [digit n]
  else digit (t + (n - t) % (36 - t)) :: digits bias (k + 36) ((n - t) / (36 - t))
termination_by n
decreasing_by
  have : 1 ≤ threshold k bias := by simp only [threshold]; split <;> omega
  exact Nat.lt_of_le_of_lt (Nat.div_le_self _ _) (by omega)

/-- Shrinks a number to the range of one digit, counting the places it takes. -/
def shrink (n k : Nat) : Nat × Nat := if 455 < n then shrink (n / 35) (k + 36) else (n, k)
termination_by n
decreasing_by omega

/-- The bias behind the number `delta`, with `count` characters written. -/
def adapt (delta count : Nat) (first : Bool) : Nat :=
  let n := if first then delta / 700 else delta / 2
  let (n, k) := shrink (n + n / count) 0
  k + 36 * n / (n + 38)

/-- Where the writing stands. -/
structure State where
  /-- What is written behind the ASCII characters. -/
  text : List Char
  delta : Nat
  bias : Nat
  /-- The number of characters written. -/
  count : Nat

/-- Passes a character on the round of the code point `m`; `ascii` characters were there before the
first round. -/
def pass (ascii m : Nat) (s : State) (c : Char) : State :=
  if c.toNat < m then { s with delta := s.delta + 1 }
  else if c.toNat = m then
    ⟨s.text ++ digits s.bias 36 s.delta, 0, adapt s.delta (s.count + 1) (s.count = ascii),
      s.count + 1⟩
  else s

/-- The rounds of the code points `ms`, which increase from `n` on. -/
def rounds (label : List Char) (ascii : Nat) : (ms : List Nat) → (n : Nat) → State → State
  | [], _, s => s
  | m :: ms, n, s =>
    let s := label.foldl (pass ascii m) { s with delta := s.delta + (m - n) * (s.count + 1) }
    rounds label ascii ms (m + 1) { s with delta := s.delta + 1 }

/-- The code points of a label beyond ASCII, in increasing order. -/
def codePoints (label : List Char) : List Nat :=
  ((label.map Char.toNat).filter (128 ≤ ·)).mergeSort.eraseDups

/-- A label in ASCII, without the mark in front. -/
def encode (label : List Char) : List Char :=
  let ascii := label.filter (·.toNat < 128)
  ascii ++ (if ascii.isEmpty then [] else ['-']) ++
    (rounds label ascii.length (codePoints label) 128 ⟨[], 0, 72, ascii.length⟩).text

end SyntaxGateway.Url.Punycode
