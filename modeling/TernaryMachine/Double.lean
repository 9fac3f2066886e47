/-!
# Natural numbers as doubles

A double keeps 53 binary digits.  `Double.nearest` rounds a natural number to as many, and
`Double.limit` is where the doubles end: a number from there on rounds to infinity.
-/

set_option autoImplicit false

namespace TernaryMachine.Double

/-- The unit in the last of the 53 binary digits that are kept of a number. -/
def unit (n : Nat) : Nat := Nat.pow 2 (n.log2 - 52)

/-- A quotient rounded to the nearest integer; a tie goes to the even one. -/
def roundQuotient (n d : Nat) : Nat :=
  let quotient := n / d
  let twice := 2 * (n % d)
  if twice < d ∨ (twice = d ∧ quotient % 2 = 0) then quotient else quotient + 1

/-- The double nearest to a natural number, as if doubles had no end. -/
def nearest (n : Nat) : Nat := roundQuotient n (unit n) * unit n

/-- The least number that rounds to no finite double. -/
def limit : Nat := Nat.pow 2 1024 - Nat.pow 2 970

/-- Whether a number rounds to no finite double. -/
def isInfinite (n : Nat) : Bool := limit ≤ n

end TernaryMachine.Double
