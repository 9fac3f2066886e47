/-!
# Machine words

A machine word is a signed 64-bit integer whose arithmetic wraps around.  A word is also the
meaning of a numeral or an immediate operand, so there is one test, `Word.ofInt?`, for whether
an integer fits; `Word.toInt_of_ofInt?` says that the word it returns has that integer's value.
-/

set_option autoImplicit false

namespace TernaryMachine

/-- A machine word: a signed 64-bit integer with wrap-around arithmetic. -/
abbrev Word := Int64

namespace Word

/-- The least integer that fits in a word. -/
def least : Int := -9223372036854775808

/-- The greatest integer that fits in a word. -/
def greatest : Int := 9223372036854775807

/-- The word of value `n`, if `n` fits. -/
def ofInt? (n : Int) : Option Word :=
  if least ≤ n ∧ n ≤ greatest then some (Int64.ofInt n) else none

/-- The floor of a third of a word. -/
def floorThird (w : Word) : Word := Int64.ofInt (w.toInt / 3)

/-- A word in decimal. -/
def decimal (w : Word) : String := w.toInt.repr

/-- The word for an integer has it as its value. -/
theorem toInt_of_ofInt? {n : Int} {w : Word} (h : ofInt? n = some w) : w.toInt = n := by
  unfold ofInt? at h
  split at h
  · next hn =>
    obtain rfl := Option.some.inj h
    simp only [least, greatest] at hn
    rw [Int64.toInt_ofInt]
    exact Int.bmod_eq_of_le (by simp [Int64.size]; omega) (by simp [Int64.size]; omega)
  · simp at h

/-- A word is the one for its own value. -/
theorem ofInt?_toInt (w : Word) : ofInt? w.toInt = some w := by
  have hlo := w.le_toInt
  have hhi := w.toInt_lt
  have hfit : least ≤ w.toInt ∧ w.toInt ≤ greatest := by
    simp only [least, greatest]
    omega
  simp [ofInt?, hfit]

/-- There is no word for an integer just when it is below the least or above the greatest one. -/
theorem ofInt?_eq_none_iff {n : Int} : ofInt? n = none ↔ n < least ∨ greatest < n := by
  unfold ofInt?
  split <;> simp <;> omega

end Word

end TernaryMachine
