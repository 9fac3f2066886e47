/-!
# Sets of characters

A set of characters is a list of ranges of code points.
-/

set_option autoImplicit false

namespace TernaryMachine.Text

/-- A set of characters. -/
structure CharSet where
  /-- The ranges of code points, first and last. -/
  ranges : List (Nat × Nat)

namespace CharSet

/-- Whether a character is in a set. -/
def contains (set : CharSet) (c : Char) : Bool :=
  let n := c.toNat
  set.ranges.any fun (first, last) => first ≤ n && n ≤ last

end CharSet

end TernaryMachine.Text
