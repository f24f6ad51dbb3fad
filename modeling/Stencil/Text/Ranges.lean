/-!
# Sets of characters given by ranges of code points

A property of characters is a list of closed ranges of code points; `inRanges` looks a character up in it.
-/

namespace Stencil.Text

/-- Whether the code point of `c` lies in one of the closed ranges. -/
def inRanges (ranges : List (Nat × Nat)) (c : Char) : Bool :=
  ranges.any fun (lo, hi) => lo ≤ c.toNat && c.toNat ≤ hi

/-- Whether `c` is one of the first 128 characters. -/
def isAscii (c : Char) : Bool := c.toNat < 128

end Stencil.Text
