/-!
# Sets of characters

A character class is listed as inclusive ranges of code points.
-/

namespace DocWeave.Text

/-- Inclusive ranges of code points, in increasing order. -/
abbrev CharRanges := List (Nat × Nat)

/-- The character lies in one of the ranges. -/
def CharRanges.holds (ranges : CharRanges) (c : Char) : Bool :=
  ranges.any fun (lo, hi) => lo ≤ c.toNat && c.toNat ≤ hi

end DocWeave.Text
