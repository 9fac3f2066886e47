import TernaryMachine.Numeral

/-!
# Summing digits in bounded arithmetic

Digits are summed from the last one on, and neither the sum nor the value of a place may leave the
128 bits that there are.  Both limits are met only far above the words: a digit that is not zero
outweighs all digits behind it (`lt_natAbs_of_outweighs`), so a row that meets a limit has a value
that is out of range by itself.  Whatever comes in front of that digit makes it larger still.

So the limits neither refuse a row whose value fits nor let a wrong value through, however long the
row is: `total?_bind_ofInt?` has no condition on its length.
-/

set_option autoImplicit false

namespace TernaryMachine.Numeral

/-- An integer is held by the wide sum just when it is within its bounds. -/
theorem wide?_eq_some_iff {n w : Int} :
    wide? n = some w ↔ n = w ∧ leastSum ≤ n ∧ n ≤ greatestSum := by
  unfold wide?
  split <;> simp <;> omega

/-- An integer is lost to the wide sum just when it is beyond its bounds. -/
theorem wide?_eq_none_iff {n : Int} : wide? n = none ↔ n < leastSum ∨ greatestSum < n := by
  unfold wide?
  split <;> simp <;> omega

/-- What is refused is above the words by far. -/
theorem lt_natAbs_of_wide? {n : Int} (h : wide? n = none) :
    4 * (Word.greatest + 1) < (n.natAbs : Int) := by
  rw [wide?_eq_none_iff] at h
  simp only [leastSum, greatestSum] at h
  simp only [Word.greatest]
  omega

/-- The value of a place that is out of reach stays so further up. -/
theorem wide?_above {p : Int} (hp : 0 < p) :
    ((wide? p).bind fun p => wide? (p * 3)) = wide? (p * 3) := by
  cases h : wide? p with
  | some w =>
    obtain ⟨rfl, -⟩ := wide?_eq_some_iff.1 h
    rfl
  | none =>
    rw [wide?_eq_none_iff] at h
    symm
    apply wide?_eq_none_iff.2
    simp only [leastSum, greatestSum] at h ⊢
    omega

/-- A row, lowest digit first, is worth its first digit and three times the rest. -/
theorem value_reverse_cons (t : Trit) (rest : List Trit) :
    value (t :: rest).reverse = 3 * value rest.reverse + t.value := by
  rw [List.reverse_cons, value_append]

/-- A row whose lowest digit is not zero has a value other than zero. -/
theorem value_reverse_cons_ne_zero {t : Trit} (ht : t ≠ .zero) (rest : List Trit) :
    value (t :: rest).reverse ≠ 0 := by
  rw [value_reverse_cons]
  cases t with
  | zero => exact absurd rfl ht
  | minus => simp only [Trit.value]; omega
  | plus => simp only [Trit.value]; omega

/-- What stands at a place and above it outweighs what stands below, unless it is zero. -/
theorem lt_natAbs_of_outweighs {sum p v : Int} (hsum : 2 * sum.natAbs < p) (hv : v ≠ 0) :
    p < 2 * (sum + p * v).natAbs := by
  have hp : 0 ≤ p := by omega
  rcases Int.lt_or_gt_of_ne hv with hneg | hpos
  · have hle : p * v ≤ p * (-1) := Int.mul_le_mul_of_nonneg_left (by omega) hp
    omega
  · have hle : p * 1 ≤ p * v := Int.mul_le_mul_of_nonneg_left (by omega) hp
    omega

/-- Adding the lowest digit of a row at a place leaves the rest to be added at the next. -/
theorem add_value_cons (sum p : Int) (t : Trit) (rest : List Trit) :
    sum + p * value (t :: rest).reverse =
      sum + t.value * p + p * 3 * value rest.reverse := by
  rw [value_reverse_cons, Int.mul_add, ← Int.mul_assoc, Int.mul_comm p t.value]
  omega

/-- A sum that comes out is exact. -/
theorem eq_of_addDigits {sum p total : Int} {digits : List Trit} (hp : 0 < p)
    (h : addDigits sum (wide? p) digits = some total) : total = sum + p * value digits.reverse := by
  induction digits generalizing sum p with
  | nil =>
    cases h
    show total = total + p * 0
    omega
  | cons t rest ih =>
    have hp' : 0 < p * 3 := by omega
    simp only [addDigits, wide?_above hp] at h
    rw [add_value_cons]
    by_cases ht : t.isZero = true
    · rw [if_pos ht] at h
      rw [ih hp' h, eq_of_beq ht]
      show _ = sum + 0 * p + _
      omega
    · rw [if_neg ht] at h
      cases hplace : wide? p with
      | none => simp [hplace] at h
      | some w =>
        obtain ⟨rfl, -⟩ := wide?_eq_some_iff.1 hplace
        cases hsum : wide? (sum + t.value * p) with
        | none => simp [hplace, hsum] at h
        | some sum' =>
          obtain ⟨rfl, -⟩ := wide?_eq_some_iff.1 hsum
          simp only [hplace, Option.bind_some, hsum] at h
          exact ih hp' h

/-- A sum that does not come out belongs to a value that is out of range by far.  The invariant is
that the digits behind a place sum to less than half of it. -/
theorem lt_natAbs_of_addDigits {sum p : Int} {digits : List Trit} (hbehind : 2 * sum.natAbs < p)
    (h : addDigits sum (wide? p) digits = none) :
    Word.greatest + 1 < ((sum + p * value digits.reverse).natAbs : Int) := by
  induction digits generalizing sum p with
  | nil => cases h
  | cons t rest ih =>
    have hp : 0 < p := by omega
    have hlo := t.neg_one_le_value
    have hhi := t.value_le_one
    have hnext : 2 * (sum + t.value * p).natAbs < p * 3 := by
      cases t with
      | minus => show 2 * (sum + -1 * p).natAbs < p * 3; omega
      | zero => show 2 * (sum + 0 * p).natAbs < p * 3; omega
      | plus => show 2 * (sum + 1 * p).natAbs < p * 3; omega
    simp only [addDigits, wide?_above hp] at h
    by_cases ht : t.isZero = true
    · rw [if_pos ht] at h
      have hzero : sum + t.value * p = sum := by
        rw [eq_of_beq ht]
        show sum + 0 * p = sum
        omega
      rw [hzero] at hnext
      rw [add_value_cons, hzero]
      exact ih hnext h
    · rw [if_neg ht] at h
      have hne : t ≠ .zero := fun hzero => ht (hzero ▸ rfl)
      have htop := lt_natAbs_of_outweighs hbehind (value_reverse_cons_ne_zero hne rest)
      -- A limit is met here, and then the place alone is far above the words, or further up.
      cases hplace : wide? p with
      | none =>
        have hfar := lt_natAbs_of_wide? hplace
        omega
      | some w =>
        obtain ⟨rfl, -⟩ := wide?_eq_some_iff.1 hplace
        cases hsum : wide? (sum + t.value * p) with
        | none =>
          have hfar := lt_natAbs_of_wide? hsum
          omega
        | some sum' =>
          obtain ⟨rfl, -⟩ := wide?_eq_some_iff.1 hsum
          simp only [hplace, Option.bind_some, hsum] at h
          rw [add_value_cons]
          exact ih hnext h

/-- A sum that does not overflow is the value of the row. -/
theorem value_of_total? {row : List Trit} {n : Int} (h : total? row = some n) : n = value row := by
  have hsum := eq_of_addDigits (p := 1) Int.one_pos h
  rw [List.reverse_reverse] at hsum
  omega

/-- A row whose sum overflows has a value that no word has. -/
theorem ofInt?_value_eq_none {row : List Trit} (h : total? row = none) :
    Word.ofInt? (value row) = none := by
  have hbehind : 2 * (0 : Int).natAbs < (1 : Int) := by decide
  have hfar := lt_natAbs_of_addDigits hbehind h
  rw [List.reverse_reverse] at hfar
  apply Word.ofInt?_eq_none_iff.2
  simp only [Word.least, Word.greatest] at hfar ⊢
  omega

/-- The limits of the sum do not show in a word. -/
theorem total?_bind_ofInt? (row : List Trit) :
    (total? row).bind Word.ofInt? = Word.ofInt? (value row) := by
  cases h : total? row with
  | none => exact (ofInt?_value_eq_none h).symm
  | some n =>
    rw [value_of_total? h]
    rfl

end TernaryMachine.Numeral
