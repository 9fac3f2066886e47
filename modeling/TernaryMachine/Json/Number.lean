import TernaryMachine.Double

/-!
# Numbers as JSON text writes them

A number keeps the parts that it is written in, because an integer and a decimal fraction of the
same value are different things to a reader of records.

A reader that turns a number into a double keeps as many digits from its start as fit into 64
bits, lets the rest stand for zeros, and multiplies the double of what it kept with the double of
a power of ten.  `NumberText.isHuge` tells whether it ends at infinity.  Because each of the two
is rounded, this is not quite the same as whether the number itself is beyond the doubles.
-/

set_option autoImplicit false

namespace TernaryMachine.Json

/-- A number in the parts that it is written in. -/
structure NumberText where
  /-- Whether a minus sign stands in front. -/
  negative : Bool
  /-- The digits before the point. -/
  whole : List Char
  /-- The digits behind the point, if there is one. -/
  fraction : Option (List Char)
  /-- The exponent, if there is one: whether it is negative, and its digits. -/
  exponent : Option (Bool × List Char)

/-- Reads digits behind a number as long as it stays below `2 ^ 64`; gives the number and the
digits that are left. -/
def takeDigits (n : Nat) : List Char → Nat × List Char
  | [] => (n, [])
  | digit :: rest =>
    let longer := 10 * n + (digit.toNat - '0'.toNat)
    if longer < UInt64.size then takeDigits longer rest else (n, digit :: rest)

namespace NumberText

/-- Whether the number is written as a plain integer. -/
def isInteger (n : NumberText) : Bool := n.fraction.isNone && n.exponent.isNone

/-- The power of ten that is written out. -/
def power (n : NumberText) : Int :=
  match n.exponent with
  | none => 0
  | some (true, digits) => -(Nat.ofDigitChars 10 digits 0 : Int)
  | some (false, digits) => Nat.ofDigitChars 10 digits 0

/-- The digits that are kept, as a number, and the power of ten to multiply it with.  Digits
before the point that are left out still count as places, those behind it do not; a fraction can
have digits that fit where the last one before the point did not. -/
def kept (n : NumberText) : Nat × Int :=
  let (whole, left) := takeDigits 0 n.whole
  let fraction := n.fraction.getD []
  let (significand, unread) := takeDigits whole fraction
  (significand, n.power + left.length - (fraction.length - unread.length : Nat))

/-- Whether a reader ends at infinity. -/
def isHuge (n : NumberText) : Bool :=
  let (significand, scale) := n.kept
  significand != 0 && 0 ≤ scale &&
    (308 < scale ||
      Double.isInfinite (Double.nearest significand * Double.nearest (Nat.pow 10 scale.toNat)))

/-- The unsigned 64-bit number that is meant, if it is written as one. -/
def unsigned? (n : NumberText) : Option UInt64 :=
  let value := Nat.ofDigitChars 10 n.whole 0
  if n.isInteger && !n.negative && value < UInt64.size then some (UInt64.ofNat value) else none

end NumberText

end TernaryMachine.Json
