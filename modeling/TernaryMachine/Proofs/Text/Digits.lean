import TernaryMachine.Text.Capital
import TernaryMachine.Text.Column
import TernaryMachine.Text.Decimal
import TernaryMachine.Proofs.Text.Split

/-!
# Digits in text

Decimal digits are neither blanks nor letters, so a run of them is one word and its own capital
form.  An address as listings show it is such a run, and different addresses show differently
(`address_injective`): the zeros in front do not change the number read back.
-/

set_option autoImplicit false

namespace TernaryMachine.Text

/-- The digits are ten code points in a row. -/
theorem toNat_of_isDigit {c : Char} (h : c.isDigit = true) : 48 ≤ c.toNat ∧ c.toNat ≤ 57 := by
  simp only [Char.isDigit, Bool.and_eq_true, decide_eq_true_eq] at h
  exact h

/-- A digit is no blank. -/
theorem isBlank_of_isDigit {c : Char} (h : c.isDigit = true) : isBlank c = false := by
  obtain ⟨hlo, hhi⟩ := toNat_of_isDigit h
  simp only [isBlank, Bool.or_eq_false_iff, Bool.and_eq_false_iff, decide_eq_false_iff_not,
    beq_eq_false_iff_ne]
  omega

/-- A digit is its own capital. -/
theorem toUpper_of_isDigit {c : Char} (h : c.isDigit = true) : c.toUpper = c := by
  obtain ⟨-, hhi⟩ := toNat_of_isDigit h
  have hletter : ¬ (97 ≤ c.toNat ∧ c.toNat ≤ 122) := by omega
  exact dif_neg hletter

/-- A digit is its own capital form. -/
theorem capital_of_isDigit {c : Char} (h : c.isDigit = true) : capital c = [c] := by
  obtain ⟨-, hhi⟩ := toNat_of_isDigit h
  have hascii : c.toNat < 0x80 := by omega
  rw [capital, if_pos hascii, toUpper_of_isDigit h]

/-- A row of digits is its own capital form. -/
theorem capitals_of_digits {s : List Char} (h : ∀ c ∈ s, c.isDigit = true) : capitals s = s := by
  induction s with
  | nil => rfl
  | cons c s ih =>
    have hc := capital_of_isDigit (h c List.mem_cons_self)
    have hs := ih fun d hd => h d (List.mem_cons_of_mem c hd)
    simp only [capitals, List.flatMap_cons] at hs ⊢
    rw [hc, hs]
    rfl

/-- Digits, one or more, are a token. -/
theorem isToken_of_digits {s : List Char} (hne : s ≠ []) (h : ∀ c ∈ s, c.isDigit = true) :
    IsToken s :=
  ⟨hne, fun c hc => isBlank_of_isDigit (h c hc)⟩

/-! ## Numbers -/

/-- A natural number is printed in digits. -/
theorem isDigit_of_mem_repr {n : Nat} {c : Char} (h : c ∈ n.repr.toList) : c.isDigit = true := by
  rw [Nat.toList_repr] at h
  exact Nat.isDigit_of_mem_toDigits (b := 10) (n := n) (by decide) (by decide) h

/-- A natural number is printed as something. -/
theorem repr_ne_nil (n : Nat) : n.repr.toList ≠ [] := by
  rw [Nat.toList_repr]
  exact Nat.toDigits_ne_nil

/-- A word in decimal is digits, with a minus sign in front if it is negative. -/
theorem decimal_eq (w : Word) :
    ∃ n : Nat, w.decimal.toList = n.repr.toList ∨ w.decimal.toList = '-' :: n.repr.toList := by
  unfold Word.decimal
  cases w.toInt with
  | ofNat n => exact ⟨n, .inl rfl⟩
  | negSucc n =>
    refine ⟨n + 1, .inr ?_⟩
    simp [Int.repr, String.toList_append]

/-! ## Addresses -/

/-- An address is its number with zeros in front, up to three characters. -/
theorem toList_address (a : Nat) :
    (address a).toList = List.replicate (3 - a.repr.length) '0' ++ a.repr.toList := by
  simp only [address, padLeft, String.toList_append, String.toList_ofList]

/-- An address is printed in digits. -/
theorem isDigit_of_mem_address {a : Nat} {c : Char} (h : c ∈ (address a).toList) :
    c.isDigit = true := by
  rw [toList_address] at h
  rcases List.mem_append.1 h with hzero | hdigit
  · rw [List.eq_of_mem_replicate hzero]
    decide
  · exact isDigit_of_mem_repr hdigit

/-- What is no digit does not stand in an address. -/
theorem not_mem_address {a : Nat} {c : Char} (h : c.isDigit = false) :
    c ∉ (address a).toList := by
  intro hmem
  rw [isDigit_of_mem_address hmem] at h
  cases h

/-- An address is printed as something. -/
theorem address_ne_nil (a : Nat) : (address a).toList ≠ [] := by
  rw [toList_address]
  exact List.append_ne_nil_of_right_ne_nil _ (repr_ne_nil a)

/-- An address is a token. -/
theorem isToken_address (a : Nat) : IsToken (address a).toList :=
  isToken_of_digits (address_ne_nil a) fun _ hc => isDigit_of_mem_address hc

/-- An address is read back as its number. -/
theorem readNat?_address (a : Nat) : readNat? (address a).toList = some a := by
  have hall : (address a).toList.all Char.isDigit = true :=
    List.all_eq_true.2 fun _ hc => isDigit_of_mem_address hc
  have hne : (address a).toList.isEmpty = false :=
    List.isEmpty_eq_false_iff.2 (address_ne_nil a)
  have hvalue : Nat.ofDigitChars 10 (address a).toList 0 = a := by
    rw [toList_address, Nat.ofDigitChars_append, Nat.ofDigitChars_replicate_zero, Nat.mul_zero,
      Nat.toList_repr, Nat.ofDigitChars_ten_toDigits]
  simp only [readNat?, hne, hall, hvalue]
  rfl

/-- Different addresses show differently. -/
theorem address_injective {a b : Nat} (h : address a = address b) : a = b := by
  have ha := readNat?_address a
  rw [h, readNat?_address b] at ha
  exact (Option.some.inj ha).symm

end TernaryMachine.Text
