import TernaryMachine.Proofs.Machine.Arithmetic
import TernaryMachine.Proofs.Numeral.Digits

/-!
# Arithmetic on the digits shown

Two of the calculations can be done on the numeral of the accumulator, digit by digit.  A shift to
the left appends a zero, as a further digit at the low end leaves the others alone (`digits_push`).
A negation turns every digit round: the digits of an integer are those of its magnitude, turned
round if the integer is negative (`digitsOf_eq_signed`), so two integers of one magnitude differ in
that only (`digits_neg`).

The digits of a magnitude are remainders by three, where a remainder of two is written as a minus
and carried on.
-/

set_option autoImplicit false

namespace TernaryMachine

namespace Numeral

/-! ## Digits of a magnitude -/

/-- The digits of a natural number, least significant first. -/
def magnitudeDigits (n : Nat) : List Trit :=
  if n = 0 then []
  else if n % 3 = 0 then .zero :: magnitudeDigits (n / 3)
  else if n % 3 = 1 then .plus :: magnitudeDigits (n / 3)
  else .minus :: magnitudeDigits (n / 3 + 1)
termination_by n
decreasing_by all_goals omega

/-- A row of digits, each of them turned round if the row belongs to a negative integer. -/
def signed (negative : Bool) (row : List Trit) : List Trit :=
  if negative then row.map Trit.negate else row

/-- A number is what its lowest digit and the carry to the others make of it, with either sign. -/
theorem digitsOf_step {n : Nat} (rest : Nat) (t : Trit) (hn : n ≠ 0)
    (hsum : (n : Int) = 3 * rest + t.value) :
    digitsOf n = t :: digitsOf rest ∧ digitsOf (-n) = (-t) :: digitsOf (-rest) := by
  have hneg : (-n : Int) = 3 * (-rest) + (-t).value := by
    rw [Trit.value_neg]
    omega
  constructor
  · rw [hsum]
    exact digitsOf_push (by omega)
  · rw [hneg]
    exact digitsOf_push (by omega)

/-- The digits of a natural number are those of its magnitude, and the opposite digits are those of
its opposite. -/
theorem digitsOf_natCast (n : Nat) :
    digitsOf n = magnitudeDigits n ∧ digitsOf (-n) = (magnitudeDigits n).map Trit.negate := by
  fun_induction magnitudeDigits n with
  | case1 => exact ⟨digitsOf_zero, digitsOf_zero⟩
  | case2 n hn hzero ih =>
    obtain ⟨hpos, hneg⟩ := digitsOf_step (n / 3) .zero hn
      (by simp only [Trit.value]; omega)
    rw [hpos, hneg, ih.1, ih.2]
    exact ⟨rfl, rfl⟩
  | case3 n hn _ hone ih =>
    obtain ⟨hpos, hneg⟩ := digitsOf_step (n / 3) .plus hn
      (by simp only [Trit.value]; omega)
    rw [hpos, hneg, ih.1, ih.2]
    exact ⟨rfl, rfl⟩
  | case4 n hn hzero hone ih =>
    obtain ⟨hpos, hneg⟩ := digitsOf_step (n / 3 + 1) .minus hn
      (by simp only [Trit.value]; omega)
    rw [hpos, hneg, ih.1, ih.2]
    exact ⟨rfl, rfl⟩

/-- The digits of an integer are those of its magnitude, turned round if it is negative. -/
theorem digitsOf_eq_signed (n : Int) :
    digitsOf n = signed (n < 0) (magnitudeDigits n.natAbs) := by
  obtain ⟨hpos, hneg⟩ := digitsOf_natCast n.natAbs
  by_cases h : n < 0
  · have hn : n = -(n.natAbs : Int) := by omega
    simp only [signed, h, decide_true, if_true]
    rw [← hneg, ← hn]
  · have hn : n = (n.natAbs : Int) := by omega
    simp only [signed, h, decide_false, Bool.false_eq_true, if_false]
    rw [← hpos, ← hn]

/-- Digits negated twice are the digits. -/
theorem map_negate_negate (row : List Trit) :
    (row.map Trit.negate).map Trit.negate = row := by
  have hself : Trit.negate ∘ Trit.negate = id := by
    funext t
    cases t <;> rfl
  rw [List.map_map, hself, List.map_id]

/-- The opposite number has the opposite digits. -/
theorem digitsOf_neg (n : Int) : digitsOf (-n) = (digitsOf n).map Trit.negate := by
  rw [digitsOf_eq_signed (-n), digitsOf_eq_signed n, Int.natAbs_neg]
  rcases Int.lt_trichotomy n 0 with hneg | rfl | hpos
  · have hback : ¬ -n < 0 := by omega
    simp only [signed, hneg, hback, decide_true, decide_false, if_true, Bool.false_eq_true,
      if_false, map_negate_negate]
  · simp [signed, magnitudeDigits]
  · have hback : -n < 0 := by omega
    have hself : ¬ n < 0 := by omega
    simp only [signed, hself, hback, decide_true, decide_false, if_true, Bool.false_eq_true,
      if_false]

/-! ## Digits of words -/

/-- Only the word zero has the value zero. -/
theorem toInt_ne_zero {w : Word} (h : w ≠ 0) : w.toInt ≠ 0 :=
  fun hzero => h (Int64.toInt_inj.1 hzero)

/-- A further digit at the low end. -/
theorem digits_push {n w : Word} {t : Trit} (hn : n ≠ 0)
    (hw : w.toInt = 3 * n.toInt + t.value) : digits w = digits n ++ [t] := by
  have hzero := toInt_ne_zero hn
  have hlo := t.neg_one_le_value
  have hhi := t.value_le_one
  have hne : w ≠ 0 := by
    rintro rfl
    have hsum : (0 : Int) = 3 * n.toInt + t.value := hw
    omega
  rw [digits, digits, if_neg hne, if_neg hn, hw, digitsOf_push (by omega), List.reverse_cons]

/-- Every word but the least has its negative, with every digit turned round. -/
theorem digits_neg {w : Word} (h : w.toInt ≠ Word.least) :
    digits (-w) = (digits w).map Trit.negate := by
  by_cases hzero : w = 0
  · subst hzero
    rfl
  · have hneg : (-w).toInt = -w.toInt := by
      have hlo := w.le_toInt
      have hhi := w.toInt_lt
      unfold Word.least at h
      rw [Int64.toInt_neg]
      exact Int.bmod_eq_of_le (by omega) (by omega)
    have hne : -w ≠ 0 := by
      intro hback
      have hself := toInt_ne_zero hzero
      rw [hback] at hneg
      have hsum : (0 : Int) = -w.toInt := hneg
      omega
    rw [digits, digits, if_neg hne, if_neg hzero, hneg, digitsOf_neg, List.map_reverse]

end Numeral

namespace Machine

/-- **Shifts and negations act digit by digit.**  A word that is three times another one and a digit
has the digits of the other and that digit behind them, so a shift to the left appends a zero to the
digits of the accumulator.  The negative of a word has its digits turned round, so a negation turns
round each digit of the accumulator. -/
theorem digits_shift_and_flip :
    (∀ (n w : Word) (t : Trit), n ≠ 0 → w.toInt = 3 * n.toInt + t.value →
      Numeral.digits w = Numeral.digits n ++ [t]) ∧
    (∀ m : Machine, m.executes = true → m.item = .plain .shl → m.registers.acc ≠ 0 →
      Word.least ≤ 3 * m.registers.acc.toInt → 3 * m.registers.acc.toInt ≤ Word.greatest →
      Numeral.digits m.step.1.registers.acc = Numeral.digits m.registers.acc ++ [.zero]) ∧
    (∀ w : Word, w.toInt ≠ Word.least →
      Numeral.digits (-w) = (Numeral.digits w).map Trit.negate) ∧
    ∀ m : Machine, m.executes = true → m.item = .plain .neg →
      m.registers.acc.toInt ≠ Word.least →
      Numeral.digits m.step.1.registers.acc =
        (Numeral.digits m.registers.acc).map Trit.negate := by
  refine ⟨fun n w t => Numeral.digits_push, ?_, fun w => Numeral.digits_neg, ?_⟩
  · intro m hexecutes hitem hacc hlo hhi
    have hshl : m.item.arithmetic? = some .shl := by rw [hitem]; rfl
    have hword : m.step.1.registers.acc = m.registers.acc * 3 :=
      (step_of_arithmetic hexecutes hshl).1
    refine Numeral.digits_push hacc ?_
    have hexact := Arithmetic.shl.toInt_onWords m.registers.acc
    unfold Word.least at hlo
    unfold Word.greatest at hhi
    rw [Int.bmod_eq_of_le (by simp only [Arithmetic.exact]; omega)
      (by simp only [Arithmetic.exact]; omega)] at hexact
    rw [hword]
    simp only [Arithmetic.onWords, Arithmetic.exact] at hexact
    simp only [Trit.value]
    omega
  · intro m hexecutes hitem hacc
    have hneg : m.item.arithmetic? = some .neg := by rw [hitem]; rfl
    have hword : m.step.1.registers.acc = -m.registers.acc :=
      (step_of_arithmetic hexecutes hneg).1
    rw [hword]
    exact Numeral.digits_neg hacc

/-- A further digit makes the least word, the greatest word can be turned round, and a machine that
holds minus two shifts it to minus six and turns that round. -/
theorem digits_shift_and_flip_least :
    let m := (new { memorySize := .small }).loadWords [-1, 2, 6, 8]
    Numeral.digits (-9223372036854775808) =
      Numeral.digits (-3074457345618258603) ++ [.plus] ∧
    Numeral.digits (-9223372036854775807) =
      (Numeral.digits 9223372036854775807).map Trit.negate ∧
    Numeral.digits (after 2 m).registers.acc = [.minus, .plus, .zero] ∧
    Numeral.digits (after 3 m).registers.acc = [.plus, .minus, .zero] := by
  intro m
  obtain ⟨hpush, hshl, hnegative, hneg⟩ := digits_shift_and_flip
  have hshift := hshl (after 1 m) (by decide +kernel) (by decide +kernel) (by decide +kernel)
    (by decide +kernel) (by decide +kernel)
  have hflip := hneg (after 2 m) (by decide +kernel) (by decide +kernel) (by decide +kernel)
  have hfirst : Numeral.digits (after 1 m).registers.acc = [.minus, .plus] := by decide +kernel
  have hsecond : Numeral.digits (after 2 m).registers.acc = [.minus, .plus, .zero] := by
    rw [← show (after 1 m).step.1 = after 2 m from rfl, hshift, hfirst]
    rfl
  refine ⟨hpush _ _ .plus (by decide) (by decide), hnegative _ (by decide), hsecond, ?_⟩
  rw [← show (after 2 m).step.1 = after 3 m from rfl, hflip, hsecond]
  rfl

end Machine

end TernaryMachine
