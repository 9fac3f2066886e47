import Mathlib.Algebra.Ring.Nat
import Mathlib.Data.List.Induction
import TernaryMachine.Numeral

/-!
# Every integer has one row of digits

`digitsOf_push` says what a further digit at the low end does: it is the lowest digit, and the rest
of the integer keeps its digits.  Put the other way round, a row of digits that does not lead with a
zero is the row of its own value (`digitsOf_value`), so two such rows of one value are equal.  Zeros
in front are without effect (`value_dropWhile_isZero`).

A row of `k` digits reaches every integer below half of `3 ^ k` (`length_digitsOf_le`).
-/

set_option autoImplicit false

namespace TernaryMachine.Numeral

/-- The balanced remainder of a number by three is its lowest digit. -/
theorem bmod_three (n : Int) (t : Trit) : (3 * n + t.value).bmod 3 = t.value := by
  have hlo := t.neg_one_le_value
  have hhi := t.value_le_one
  simp only [Int.bmod]
  omega

/-- The lowest digit is the one that was pushed last. -/
theorem lowest_push (n : Int) (t : Trit) : lowest (3 * n + t.value) = t := by
  rw [lowest, bmod_three, Trit.ofResidue_value]

/-- The higher digits are those that were pushed before. -/
theorem higher_push (n : Int) (t : Trit) : higher (3 * n + t.value) = n := by
  rw [higher, bmod_three]
  omega

/-- Zero has no digits. -/
theorem digitsOf_zero : digitsOf 0 = [] := by
  rw [digitsOf]
  rfl

/-- A further digit at the low end leaves the digits of the rest as they are. -/
theorem digitsOf_push {n : Int} {t : Trit} (h : 3 * n + t.value ≠ 0) :
    digitsOf (3 * n + t.value) = t :: digitsOf n := by
  rw [digitsOf, dif_neg h, lowest_push, higher_push]

/-! ## Rows that do not lead with a zero -/

/-- A row that does not start with a zero has a value other than zero. -/
theorem value_ne_zero {row : List Trit} (hne : row ≠ []) (hhead : row.head? ≠ some .zero) :
    value row ≠ 0 := by
  induction row using List.reverseRecOn with
  | nil => exact absurd rfl hne
  | append_singleton row t ih =>
    rw [value_append]
    have hlo := t.neg_one_le_value
    have hhi := t.value_le_one
    cases row with
    | nil =>
      have ht : t ≠ .zero := fun hzero => hhead (congrArg some hzero)
      have hvalue : t.value ≠ 0 := fun hzero => ht (Trit.value_injective hzero)
      show 3 * 0 + t.value ≠ 0
      omega
    | cons first rest =>
      have hrest := ih (List.cons_ne_nil _ _) hhead
      omega

/-- A row that does not lead with a zero is the row of its own value. -/
theorem digitsOf_value {row : List Trit} (hhead : row.head? ≠ some .zero) :
    digitsOf (value row) = row.reverse := by
  induction row using List.reverseRecOn with
  | nil => exact digitsOf_zero
  | append_singleton row t ih =>
    have hpush : value (row ++ [t]) ≠ 0 := value_ne_zero (by simp) hhead
    have hrow : row.head? ≠ some .zero := by
      cases row with
      | nil => exact nofun
      | cons first rest => exact hhead
    rw [value_append] at hpush ⊢
    rw [digitsOf_push hpush, ih hrow, List.reverse_append]
    rfl

/-! ## Zeros in front -/

/-- Zeros in front are worth nothing. -/
theorem value_dropWhile_isZero (row : List Trit) :
    value (row.dropWhile Trit.isZero) = value row := by
  induction row with
  | nil => rfl
  | cons t row ih =>
    cases t with
    | zero => exact ih
    | minus => rfl
    | plus => rfl

/-- Without its zeros in front, a row does not start with a zero. -/
theorem head?_dropWhile_isZero (row : List Trit) :
    (row.dropWhile Trit.isZero).head? ≠ some .zero := by
  intro hzero
  have hkept := List.head?_dropWhile_not Trit.isZero row
  rw [hzero] at hkept
  cases hkept

/-- The digits of the value of a row are the row without the zeros in front. -/
theorem digitsOf_value_reverse (row : List Trit) :
    (digitsOf (value row)).reverse = row.dropWhile Trit.isZero := by
  rw [← value_dropWhile_isZero, digitsOf_value (head?_dropWhile_isZero row), List.reverse_reverse]

/-- The highest digit of a number is not zero. -/
theorem head?_digitsOf_reverse (n : Int) : (digitsOf n).reverse.head? ≠ some .zero := by
  have hkept := digitsOf_value_reverse (digitsOf n).reverse
  rw [value_digitsOf] at hkept
  rw [hkept]
  exact head?_dropWhile_isZero _

/-! ## The number of digits -/

/-- A number below half a power of three has at most so many digits. -/
theorem length_digitsOf_le {n : Int} {k : Nat} (h : 2 * n.natAbs < 3 ^ k) :
    (digitsOf n).length ≤ k := by
  induction k generalizing n with
  | zero =>
    have hn : n = 0 := by omega
    rw [hn, digitsOf_zero]
    exact Nat.le_refl 0
  | succ k ih =>
    by_cases hn : n = 0
    · rw [hn, digitsOf_zero]
      exact Nat.zero_le _
    · have hsum := lowest_add_higher n
      have hlo := (lowest n).neg_one_le_value
      have hhi := (lowest n).value_le_one
      have hpow : 3 ^ (k + 1) = 3 * 3 ^ k := Nat.pow_succ'
      have hodd : 3 ^ k % 2 = 1 := by
        rw [Nat.pow_mod]
        simp
      -- Both sides are odd or even together, so the digit that is cut off costs no more than it
      -- may.
      have hrest : 2 * (higher n).natAbs < 3 ^ k := by omega
      rw [digitsOf, dif_neg hn, List.length_cons]
      exact Nat.succ_le_succ (ih hrest)

/-- The value of a word has at most 41 digits. -/
theorem length_digitsOf_toInt (w : Word) : (digitsOf w.toInt).length ≤ 41 := by
  have hlo := w.le_toInt
  have hhi := w.toInt_lt
  have hpow : 2 ^ 64 < 3 ^ 41 := by decide
  apply length_digitsOf_le
  omega

end TernaryMachine.Numeral
