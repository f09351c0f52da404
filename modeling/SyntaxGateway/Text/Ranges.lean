/-!
# Sets of characters as ranges

A set of code points given by ranges in increasing order, and a search that halves the table.
-/

namespace SyntaxGateway.Text

/-- Some range between the places `low` and `high` of the table contains `n`. -/
def rangesContain (ranges : Array (Nat × Nat)) (n low high : Nat) : Bool :=
  if _h : low < high then
    let middle := (low + high) / 2
    match ranges[middle]? with
    | none => false
    | some (first, last) =>
      if n < first then rangesContain ranges n low middle
      else if last < n then rangesContain ranges n (middle + 1) high
      else true
  else false
termination_by high - low

/-- Some range of the table contains the code point of `c`. -/
def inRanges (ranges : Array (Nat × Nat)) (c : Char) : Bool :=
  rangesContain ranges c.toNat 0 ranges.size

end SyntaxGateway.Text
