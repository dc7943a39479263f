/-!
# Sets of code points

A property of characters is kept as ascending ranges of code points, both ends
included.
-/

namespace YangSchema.Text

abbrev CodeRanges := Array (Nat × Nat)

/-- Whether a character lies in one of the ranges. -/
def isWithinRanges (ranges : CodeRanges) (c : Char) : Bool :=
  ranges.any fun (first, last) => first ≤ c.toNat && c.toNat ≤ last

end YangSchema.Text
