import TernaryMachine.Word

/-!
# Decimal integers in text

Reading takes an optional sign and then decimal digits, nothing else: no blanks, no
separators; leading zeros do no harm.  An unsigned number takes no minus sign, not even on
zero.  A number that does not fit its machine type is not read.  `readNat?_repr` and
`readWord?_decimal` say that what is written in decimal is read back.
-/

set_option autoImplicit false

namespace TernaryMachine.Text

/-- The natural number that a non-empty run of decimal digits spells. -/
def readNat? (s : List Char) : Option Nat :=
  if s.isEmpty || !s.all Char.isDigit then none else some (Nat.ofDigitChars 10 s 0)

/-- The integer that decimal digits with an optional sign spell. -/
def readInt? : List Char → Option Int
  | '-' :: digits => (readNat? digits).map fun n => -(n : Int)
  | '+' :: digits => (readNat? digits).map fun n => (n : Int)
  | digits => (readNat? digits).map fun n => (n : Int)

/-- The word that decimal digits with an optional sign spell, if it fits. -/
def readWord? (s : List Char) : Option Word := (readInt? s).bind Word.ofInt?

/-- The unsigned 64-bit number that decimal digits with an optional plus sign spell. -/
def readUnsigned? (s : List Char) : Option UInt64 :=
  let digits := match s with
    | '+' :: rest => rest
    | _ => s
  (readNat? digits).bind fun n => if n < UInt64.size then some (UInt64.ofNat n) else none

/-- A printed natural number is read as itself. -/
theorem readNat?_repr (n : Nat) : readNat? n.repr.toList = some n := by
  have hall : (Nat.toDigits 10 n).all Char.isDigit = true := by
    rw [List.all_eq_true]
    intro c hc
    exact Nat.isDigit_of_mem_toDigits (by decide) (by decide) hc
  have hne : (Nat.toDigits 10 n).isEmpty = false := by
    rw [List.isEmpty_eq_false_iff]
    exact Nat.toDigits_ne_nil
  simp [readNat?, Nat.toList_repr, hall, hne, Nat.ofDigitChars_toDigits]

/-- A printed natural number starts with a digit. -/
theorem head_repr_isDigit {n : Nat} {c : Char} {rest : List Char}
    (h : n.repr.toList = c :: rest) : c.isDigit = true := by
  rw [Nat.toList_repr] at h
  exact Nat.isDigit_of_mem_toDigits (b := 10) (n := n) (by decide) (by decide) (by simp [h])

/-- A text that starts with a digit is read without a sign. -/
theorem readInt?_of_digit {c : Char} {rest : List Char} (h : c.isDigit = true) :
    readInt? (c :: rest) = (readNat? (c :: rest)).map fun n => (n : Int) := by
  unfold readInt?
  split
  · next heq =>
    obtain ⟨rfl, rfl⟩ := List.cons.inj heq
    exact absurd h (by decide)
  · next heq =>
    obtain ⟨rfl, rfl⟩ := List.cons.inj heq
    exact absurd h (by decide)
  · rfl

/-- A printed natural number is read as an integer, too. -/
theorem readInt?_repr_nat (n : Nat) : readInt? n.repr.toList = some (n : Int) := by
  have hread := readNat?_repr n
  cases hs : n.repr.toList with
  | nil => simp [hs, readNat?] at hread
  | cons c rest =>
    rw [readInt?_of_digit (head_repr_isDigit hs), ← hs, hread]
    rfl

/-- A printed integer is read as itself. -/
theorem readInt?_repr (n : Int) : readInt? n.repr.toList = some n := by
  cases n with
  | ofNat m => exact readInt?_repr_nat m
  | negSucc m =>
    have hneg : (Int.negSucc m).repr.toList = '-' :: (m + 1).repr.toList := by
      simp [Int.repr, String.toList_append]
    rw [hneg]
    simp only [readInt?, readNat?_repr]
    rfl

/-- A word printed in decimal is read as itself. -/
theorem readWord?_decimal (w : Word) : readWord? w.decimal.toList = some w := by
  simp [readWord?, Word.decimal, readInt?_repr, Word.ofInt?_toInt]

end TernaryMachine.Text
