import TernaryMachine.Proofs.Numeral.Reading
import TernaryMachine.Proofs.Text.Digits
import TernaryMachine.Text.Decimal

/-!
# What decimal integers spell

A text spells an integer in decimal when it is a row of digits, perhaps behind a sign, and an
unsigned number when the sign can only be a plus (`SpellsDecimal`, `SpellsUnsigned`); neither has
regard to range.  `readWord?_eq_some_iff` and `readUnsigned?_eq_some_iff` say that words and
unsigned numbers are read just as they are spelled.
-/

set_option autoImplicit false

namespace TernaryMachine.Text

/-- A text spells an integer in decimal: digits, perhaps behind a sign. -/
inductive SpellsDecimal : List Char → Int → Prop where
  | plain {digits : List Char} (hne : digits ≠ []) (hdigits : ∀ c ∈ digits, c.isDigit = true) :
      SpellsDecimal digits (Nat.ofDigitChars 10 digits 0)
  | plus {digits : List Char} (hne : digits ≠ []) (hdigits : ∀ c ∈ digits, c.isDigit = true) :
      SpellsDecimal ('+' :: digits) (Nat.ofDigitChars 10 digits 0)
  | minus {digits : List Char} (hne : digits ≠ []) (hdigits : ∀ c ∈ digits, c.isDigit = true) :
      SpellsDecimal ('-' :: digits) (-(Nat.ofDigitChars 10 digits 0 : Int))

/-- A text spells a natural number in decimal: digits, perhaps behind a plus sign. -/
inductive SpellsUnsigned : List Char → Nat → Prop where
  | plain {digits : List Char} (hne : digits ≠ []) (hdigits : ∀ c ∈ digits, c.isDigit = true) :
      SpellsUnsigned digits (Nat.ofDigitChars 10 digits 0)
  | plus {digits : List Char} (hne : digits ≠ []) (hdigits : ∀ c ∈ digits, c.isDigit = true) :
      SpellsUnsigned ('+' :: digits) (Nat.ofDigitChars 10 digits 0)

/-! ## Characters of numbers -/

/-- A decimal number is spelled in digits and signs. -/
theorem SpellsDecimal.isDigit_or_sign {s : List Char} {n : Int} (h : SpellsDecimal s n) {c : Char}
    (hc : c ∈ s) : c.isDigit = true ∨ c = '+' ∨ c = '-' := by
  cases h with
  | plain _ hdigits => exact .inl (hdigits c hc)
  | plus _ hdigits =>
    rcases List.mem_cons.1 hc with rfl | hc
    · exact .inr (.inl rfl)
    · exact .inl (hdigits c hc)
  | minus _ hdigits =>
    rcases List.mem_cons.1 hc with rfl | hc
    · exact .inr (.inr rfl)
    · exact .inl (hdigits c hc)

/-- A decimal number is a token. -/
theorem SpellsDecimal.isToken {s : List Char} {n : Int} (h : SpellsDecimal s n) : IsToken s := by
  refine ⟨?_, fun c hc => ?_⟩
  · cases h with
    | plain hne _ => exact hne
    | plus _ _ => exact List.cons_ne_nil _ _
    | minus _ _ => exact List.cons_ne_nil _ _
  · rcases h.isDigit_or_sign hc with hdigit | rfl | rfl
    · exact isBlank_of_isDigit hdigit
    · rfl
    · rfl

/-- An unsigned number is spelled in digits and a plus. -/
theorem SpellsUnsigned.isDigit_or_plus {s : List Char} {n : Nat} (h : SpellsUnsigned s n) {c : Char}
    (hc : c ∈ s) : c.isDigit = true ∨ c = '+' := by
  cases h with
  | plain _ hdigits => exact .inl (hdigits c hc)
  | plus _ hdigits =>
    rcases List.mem_cons.1 hc with rfl | hc
    · exact .inr rfl
    · exact .inl (hdigits c hc)

/-! ## Integers -/

/-- A natural number is read from digits, one or more, as their value. -/
theorem readNat?_eq_some_iff {s : List Char} {n : Nat} :
    readNat? s = some n ↔ s ≠ [] ∧ (∀ c ∈ s, c.isDigit = true) ∧ Nat.ofDigitChars 10 s 0 = n := by
  unfold readNat?
  cases s with
  | nil => simp
  | cons c rest => simp

/-- A text that spells an integer is read as it. -/
theorem readInt?_of_spellsDecimal {s : List Char} {n : Int} (h : SpellsDecimal s n) :
    readInt? s = some n := by
  cases h with
  | plain hne hdigits =>
    obtain ⟨c, rest, rfl⟩ := List.exists_cons_of_ne_nil hne
    rw [readInt?_of_digit (hdigits c List.mem_cons_self),
      readNat?_eq_some_iff.2 ⟨hne, hdigits, rfl⟩]
    rfl
  | plus hne hdigits =>
    simp only [readInt?, readNat?_eq_some_iff.2 ⟨hne, hdigits, rfl⟩]
    rfl
  | minus hne hdigits =>
    simp only [readInt?, readNat?_eq_some_iff.2 ⟨hne, hdigits, rfl⟩]
    rfl

/-- What is read behind a sign is digits, and the number is made from their value. -/
theorem digits_of_map_readNat? {digits : List Char} {f : Int → Int} {n : Int}
    (h : ((readNat? digits).bind fun m => some (m : Int)).map f = some n) :
    digits ≠ [] ∧ (∀ c ∈ digits, c.isDigit = true) ∧ n = f (Nat.ofDigitChars 10 digits 0) := by
  cases hread : readNat? digits with
  | none => simp [hread] at h
  | some m =>
    obtain ⟨hne, hdigits, rfl⟩ := readNat?_eq_some_iff.1 hread
    rw [hread] at h
    exact ⟨hne, hdigits, (Option.some.inj h).symm⟩

/-- What is read as an integer spells it. -/
theorem spellsDecimal_of_readInt? {s : List Char} {n : Int} (h : readInt? s = some n) :
    SpellsDecimal s n := by
  unfold readInt? at h
  split at h
  · obtain ⟨hne, hdigits, rfl⟩ := digits_of_map_readNat? h
    exact .minus hne hdigits
  · obtain ⟨hne, hdigits, rfl⟩ := digits_of_map_readNat? h
    exact .plus hne hdigits
  · obtain ⟨hne, hdigits, rfl⟩ := digits_of_map_readNat? h
    exact .plain hne hdigits

/-- A text is read as a word just when it spells the word's value. -/
theorem readWord?_eq_some_iff {s : List Char} {w : Word} :
    readWord? s = some w ↔ SpellsDecimal s w.toInt := by
  rw [readWord?, Option.bind_eq_some_iff]
  constructor
  · rintro ⟨n, hn, hfit⟩
    rw [← Word.ofInt?_eq_some_iff.1 hfit]
    exact spellsDecimal_of_readInt? hn
  · intro h
    exact ⟨w.toInt, readInt?_of_spellsDecimal h, Word.ofInt?_toInt w⟩

/-! ## Unsigned numbers -/

/-- Without a sign, an unsigned number is read from its digits, if it is in range. -/
theorem readUnsigned?_of_digits {digits : List Char} (hne : digits ≠ [])
    (hdigits : ∀ c ∈ digits, c.isDigit = true) :
    readUnsigned? digits = (readNat? digits).bind fun n =>
      if n < UInt64.size then some (UInt64.ofNat n) else none := by
  obtain ⟨c, rest, rfl⟩ := List.exists_cons_of_ne_nil hne
  unfold readUnsigned?
  split
  · next heq =>
    obtain ⟨rfl, rfl⟩ := List.cons.inj heq
    exact absurd (hdigits '+' List.mem_cons_self) (by decide)
  · rfl

/-- An unsigned number is in its own range. -/
theorem bind_ofNat_toNat (a : UInt64) :
    (some a.toNat).bind (fun n => if n < UInt64.size then some (UInt64.ofNat n) else none) =
      some a := by
  rw [Option.bind_some, if_pos a.toNat_lt, UInt64.ofNat_toNat]

/-- What is read as an unsigned number is digits with its value. -/
theorem spellsUnsigned_of_readNat? {digits : List Char} {a : UInt64}
    (h : ((readNat? digits).bind fun n =>
      if n < UInt64.size then some (UInt64.ofNat n) else none) = some a) :
    digits ≠ [] ∧ (∀ c ∈ digits, c.isDigit = true) ∧ Nat.ofDigitChars 10 digits 0 = a.toNat := by
  obtain ⟨n, hread, hfit⟩ := Option.bind_eq_some_iff.1 h
  obtain ⟨hne, hdigits, rfl⟩ := readNat?_eq_some_iff.1 hread
  refine ⟨hne, hdigits, ?_⟩
  split at hfit
  · next hlt =>
    rw [← Option.some.inj hfit, UInt64.toNat_ofNat_of_lt' hlt]
  · cases hfit

/-- A text is read as an unsigned number just when it spells it. -/
theorem readUnsigned?_eq_some_iff {s : List Char} {a : UInt64} :
    readUnsigned? s = some a ↔ SpellsUnsigned s a.toNat := by
  constructor
  · intro h
    unfold readUnsigned? at h
    split at h
    · obtain ⟨hne, hdigits, hvalue⟩ := spellsUnsigned_of_readNat? h
      rw [← hvalue]
      exact .plus hne hdigits
    · obtain ⟨hne, hdigits, hvalue⟩ := spellsUnsigned_of_readNat? h
      rw [← hvalue]
      exact .plain hne hdigits
  · intro h
    generalize hn : a.toNat = n at h
    cases h with
    | plain hne hdigits =>
      rw [readUnsigned?_of_digits hne hdigits, readNat?_eq_some_iff.2 ⟨hne, hdigits, rfl⟩, ← hn,
        bind_ofNat_toNat]
    | plus hne hdigits =>
      simp only [readUnsigned?]
      rw [readNat?_eq_some_iff.2 ⟨hne, hdigits, rfl⟩, ← hn, bind_ofNat_toNat]

end TernaryMachine.Text
