import TernaryMachine.Trit
import TernaryMachine.Word

/-!
# Balanced ternary numerals

A numeral is a row of digits, most significant first.  `Numeral.digits` writes a word with as
few digits as possible, zero with one; `Numeral.parse` reads any row of digit glyphs, the empty
row as zero.  The digits are summed from the last one on in 128 bits, which are more than a word
has, and only the sum is compared with the range of words.  A place whose value is beyond 128 bits
is missed only by a digit that is not zero, so zeros in front never matter.

`value_digitsOf` says that the digits of an integer sum up to it.
-/

set_option autoImplicit false

namespace TernaryMachine

/-- Why a text is not the numeral of a word. -/
inductive NumeralError where
  /-- The first character that is no digit glyph, and the number of characters before it. -/
  | invalidDigit (ch : Char) (position : Nat)
  /-- All characters are digits, but the value fits in no word. -/
  | overflow (text : String)
  deriving DecidableEq, Repr

/-- The wording of a numeral error. -/
def NumeralError.message : NumeralError → String
  | invalidDigit ch position =>
    "invalid ternary digit '" ++ ch.toString ++ "' at position " ++ position.repr
  | overflow text => "ternary value '" ++ text ++ "' does not fit in a machine word"

namespace Numeral

/-- The lowest balanced ternary digit of an integer. -/
def lowest (n : Int) : Trit := Trit.ofResidue (n.bmod 3)

/-- What an integer leaves to its higher digits. -/
def higher (n : Int) : Int := (n - n.bmod 3) / 3

/-- Taking the lowest digit off an integer other than zero makes it smaller, so its row of digits
ends. -/
theorem natAbs_higher_lt {n : Int} (h : n ≠ 0) : (higher n).natAbs < n.natAbs := by
  simp only [higher, Int.bmod]
  omega

/-- The digits of an integer, least significant first, without zeros at the far end. -/
def digitsOf (n : Int) : List Trit :=
  if _h : n = 0 then [] else lowest n :: digitsOf (higher n)
termination_by n.natAbs
decreasing_by exact natAbs_higher_lt _h

/-- The digits of a word, most significant first; zero has one digit. -/
def digits (w : Word) : List Trit :=
  if w = 0 then [.zero] else (digitsOf w.toInt).reverse

/-- The numeral of a word with as few digits as possible. -/
def render (w : Word) : String := String.ofList ((digits w).map Trit.glyph)

/-- The integer that a row of digits stands for, most significant digit first. -/
def value (row : List Trit) : Int := row.foldl (fun sum t => 3 * sum + t.value) 0

/-- The least integer that fits in the 128 bits that digits are summed in. -/
def leastSum : Int := -170141183460469231731687303715884105728

/-- The greatest integer that fits in the 128 bits that digits are summed in. -/
def greatestSum : Int := 170141183460469231731687303715884105727

/-- An integer, if digits can be summed up to it. -/
def wide? (n : Int) : Option Int :=
  if leastSum ≤ n ∧ n ≤ greatestSum then some n else none

/-- Adds digits, least significant first, to the sum of those behind them.  `place` is what a one
stands for at the first of them, if that fits. -/
def addDigits (sum : Int) (place : Option Int) : List Trit → Option Int
  | [] => some sum
  | t :: rest =>
    let above := place.bind fun p => wide? (p * 3)
    if t.isZero then addDigits sum above rest
    else
      match place.bind fun p => wide? (sum + t.value * p) with
      | none => none
      | some sum => addDigits sum above rest

/-- The integer that a row of digits stands for, if 128 bits are enough to sum it up. -/
def total? (row : List Trit) : Option Int := addDigits 0 (some 1) row.reverse

/-- The digits that the characters spell, when `position` characters stand before them. -/
def readTrits (position : Nat) : List Char → Except NumeralError (List Trit)
  | [] => .ok []
  | c :: rest =>
    match Trit.ofChar? c with
    | none => .error (.invalidDigit c position)
    | some t => (readTrits (position + 1) rest).map (t :: ·)

/-- The word that a row of digit glyphs stands for. -/
def parse (text : String) : Except NumeralError Word :=
  match readTrits 0 text.toList with
  | .error e => .error e
  | .ok row =>
    match (total? row).bind Word.ofInt? with
    | none => .error (.overflow text)
    | some w => .ok w

/-- An integer is its lowest digit and three times what the higher ones stand for. -/
theorem lowest_add_higher (n : Int) : (lowest n).value + 3 * higher n = n := by
  have hlo : -1 ≤ n.bmod 3 := by
    simp only [Int.bmod]
    omega
  have hhi : n.bmod 3 ≤ 1 := by
    simp only [Int.bmod]
    omega
  have hdiv : 3 * higher n = n - n.bmod 3 := by
    simp only [higher, Int.bmod]
    omega
  rw [hdiv, lowest, Trit.value_ofResidue hlo hhi]
  omega

/-- A digit behind a row moves the others up by one place. -/
theorem value_append (row : List Trit) (t : Trit) :
    value (row ++ [t]) = 3 * value row + t.value := by
  simp [value]

/-- The digits of an integer have it as their value. -/
theorem value_digitsOf (n : Int) : value (digitsOf n).reverse = n := by
  fun_induction digitsOf n with
  | case1 => rfl
  | case2 n _ ih =>
    rw [List.reverse_cons, value_append, ih]
    have := lowest_add_higher n
    omega

end Numeral

end TernaryMachine
