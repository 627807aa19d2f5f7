/-!
# Sets of characters as ranges

A property of the Unicode standard is given as an ascending list of closed ranges of code points.
-/

namespace TolerantSyntax.Text

/-- Is the code point of `c` in one of the ranges? -/
def inRanges (ranges : List (Nat × Nat)) (c : Char) : Bool :=
  ranges.any (fun range => decide (range.1 ≤ c.toNat) && decide (c.toNat ≤ range.2))

end TolerantSyntax.Text
