/-!
# Balanced ternary digits

A `Trit` is one of the three digits minus, zero and plus, of value -1, 0 and 1.  Text writes
them `-`, `0` and `+`; two further glyphs are read, the typographic minus sign and `1`.

`Trit.ofChar?_glyph` says that every digit is read back from its own glyph, and
`Trit.value_neg` that negating a digit negates its value.
-/

set_option autoImplicit false

namespace TernaryMachine

/-- A digit of balanced ternary. -/
inductive Trit where
  | minus
  | zero
  | plus
  deriving DecidableEq, Repr

namespace Trit

/-- The digit that a fresh digit position holds is zero. -/
instance : Inhabited Trit := ⟨zero⟩

/-- The integer that a digit stands for. -/
def value : Trit → Int
  | minus => -1
  | zero => 0
  | plus => 1

/-- The glyph that a digit is written with. -/
def glyph : Trit → Char
  | minus => '-'
  | zero => '0'
  | plus => '+'

/-- The letter that names a digit in records and reports. -/
def letter : Trit → Char
  | minus => 'N'
  | zero => 'O'
  | plus => 'P'

/-- The typographic minus sign, read as another spelling of `-`. -/
def minusSign : Char := '\u2212'

/-- The digit that a glyph spells, if it spells one. -/
def ofChar? (c : Char) : Option Trit :=
  if c = '-' ∨ c = minusSign then some minus
  else if c = '0' then some zero
  else if c = '+' ∨ c = '1' then some plus
  else none

/-- The digit of the opposite value. -/
def negate : Trit → Trit
  | minus => plus
  | zero => zero
  | plus => minus

instance : Neg Trit := ⟨negate⟩

/-- Whether a digit is zero. -/
def isZero (t : Trit) : Bool := t == zero

/-- The digit with the value of a residue modulo three taken from -1, 0 and 1. -/
def ofResidue (r : Int) : Trit :=
  if r < 0 then minus else if r = 0 then zero else plus

/-- A digit is read back from its glyph. -/
@[simp]
theorem ofChar?_glyph (t : Trit) : ofChar? t.glyph = some t := by
  cases t <;> rfl

/-- The opposite digit has the opposite value. -/
@[simp]
theorem value_neg (t : Trit) : (-t).value = -t.value := by
  cases t <;> rfl

/-- Digits of one value are the same. -/
theorem value_injective {s t : Trit} (h : s.value = t.value) : s = t := by
  cases s <;> cases t <;> simp_all [value]

/-- A digit is worth at least minus one. -/
theorem neg_one_le_value (t : Trit) : -1 ≤ t.value := by
  cases t <;> decide

/-- A digit is worth at most one. -/
theorem value_le_one (t : Trit) : t.value ≤ 1 := by
  cases t <;> decide

/-- A digit is the one for its own value. -/
@[simp]
theorem ofResidue_value (t : Trit) : ofResidue t.value = t := by
  cases t <;> rfl

/-- The digit for one of the three values has that value. -/
theorem value_ofResidue {r : Int} (hlo : -1 ≤ r) (hhi : r ≤ 1) : (ofResidue r).value = r := by
  obtain rfl | rfl | rfl : r = -1 ∨ r = 0 ∨ r = 1 := by omega
  all_goals rfl

end Trit

end TernaryMachine
