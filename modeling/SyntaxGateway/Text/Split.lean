/-!
# Splitting text

The runs of characters between separators. There is one more run than there are separators, and runs
may be empty.
-/

namespace SyntaxGateway.Text

/-- The runs between the characters that are separators. -/
def splitBy (isSeparator : Char → Bool) : List Char → List (List Char)
  | [] => [[]]
  | c :: cs =>
    if isSeparator c then [] :: splitBy isSeparator cs
    else
      match splitBy isSeparator cs with
      | [] => [[c]]
      | run :: rest => (c :: run) :: rest

variable {isSeparator : Char → Bool} {cs : List Char}

theorem splitBy_ne_nil : splitBy isSeparator cs ≠ [] := by
  cases cs with
  | nil => simp [splitBy]
  | cons c cs =>
    simp only [splitBy]
    split
    · simp
    · split <;> simp

/-- Text without separators is one run. -/
theorem splitBy_eq_singleton (h : ∀ c ∈ cs, isSeparator c = false) :
    splitBy isSeparator cs = [cs] := by
  induction cs with
  | nil => rfl
  | cons c cs ih =>
    have hc := h c (by simp)
    simp [splitBy, hc, ih fun c hc => h c (by simp [hc])]

end SyntaxGateway.Text
