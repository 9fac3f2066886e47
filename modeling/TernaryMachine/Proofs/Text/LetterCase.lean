import TernaryMachine.Proofs.Text.Decimal
import TernaryMachine.Proofs.Text.Digits

/-!
# Letter case

What becomes of a text when its ASCII letters are made capitals (`upper`).  Lines, words and blanks
stay where they are, since none of them depends on letters; a decimal stays the number that it was,
since it has no letters; and the capital form of the text is the same.

All of the first kind follows from one observation, `toUpper_congr`: what is the same of all letters
is the same of a letter and its capital.
-/

set_option autoImplicit false

namespace TernaryMachine.Text

/-- A text with its ASCII letters as capitals. -/
def upper (s : List Char) : List Char := s.map Char.toUpper

/-- A string with its ASCII letters as capitals. -/
def upperString (s : String) : String := String.ofList (upper s.toList)

/-- The capitals of a text are those of its characters. -/
@[simp]
theorem upperString_ofList (s : List Char) :
    upperString (String.ofList s) = String.ofList (upper s) := by
  rw [upperString, String.toList_ofList]

/-! ## Characters -/

/-- The ASCII letters are two rows of 26 code points. -/
theorem isAlpha_iff {c : Char} :
    c.isAlpha = true ↔ 65 ≤ c.toNat ∧ c.toNat ≤ 90 ∨ 97 ≤ c.toNat ∧ c.toNat ≤ 122 := by
  have hupper : c.isUpper = true ↔ 65 ≤ c.toNat ∧ c.toNat ≤ 90 := decide_eq_true_iff
  have hlower : c.isLower = true ↔ 97 ≤ c.toNat ∧ c.toNat ≤ 122 := by
    show (decide ('a'.val ≤ c.val) && decide (c.val ≤ 'z'.val)) = true ↔ _
    rw [Bool.and_eq_true, decide_eq_true_iff, decide_eq_true_iff]
    rfl
  show (c.isUpper || c.isLower) = true ↔ _
  rw [Bool.or_eq_true, hupper, hlower]

/-- A letter is no blank. -/
theorem isBlank_of_isAlpha {c : Char} (h : c.isAlpha = true) : isBlank c = false := by
  have hrange := isAlpha_iff.1 h
  simp only [isBlank, Bool.or_eq_false_iff, Bool.and_eq_false_iff, decide_eq_false_iff_not,
    beq_eq_false_iff_ne]
  omega

/-- A character's capital is the character itself or, for a small ASCII letter, stands 32 code
points before. -/
theorem toUpper_cases (c : Char) :
    c.toUpper = c ∨ 97 ≤ c.toNat ∧ c.toNat ≤ 122 ∧ c.toUpper.toNat = c.toNat - 32 := by
  unfold Char.toUpper
  split
  · next hsmall =>
    obtain ⟨hlo, hhi⟩ := hsmall
    have hlo' : 97 ≤ c.toNat := hlo
    have hhi' : c.toNat ≤ 122 := hhi
    have hdistance : ('A'.val - 'a'.val).toNat = 4294967296 - 32 := by decide
    refine .inr ⟨hlo', hhi', ?_⟩
    show (c.val + ('A'.val - 'a'.val)).toNat = c.toNat - 32
    rw [UInt32.toNat_add, hdistance]
    show (c.toNat + (4294967296 - 32)) % 4294967296 = c.toNat - 32
    omega
  · exact .inl rfl

/-- What is the same of all letters is the same of a letter and its capital. -/
theorem toUpper_congr {β : Type} {f : Char → β} {b : β} (h : ∀ c, c.isAlpha = true → f c = b)
    (c : Char) : f c.toUpper = f c := by
  rcases toUpper_cases c with hself | ⟨hlo, hhi, hupper⟩
  · rw [hself]
  · have hletter : c.isAlpha = true := isAlpha_iff.2 (.inr ⟨hlo, hhi⟩)
    have hcapital : c.toUpper.isAlpha = true := isAlpha_iff.2 (.inl (by omega))
    rw [h c hletter, h _ hcapital]

/-- Only a mark itself has the mark for its capital. -/
theorem toUpper_eq_iff {mark : Char} (h : mark.isAlpha = false) (c : Char) :
    c.toUpper = mark ↔ c = mark := by
  refine iff_of_eq (toUpper_congr (f := fun c => c = mark) (b := False) ?_ c)
  rintro c hc
  refine eq_false ?_
  rintro rfl
  rw [h] at hc
  cases hc

/-- Whether a character is a mark can be asked of its capital. -/
theorem bne_toUpper {mark : Char} (h : mark.isAlpha = false) (c : Char) :
    (c.toUpper != mark) = (c != mark) := by
  rw [Bool.eq_iff_iff, bne_iff_ne, bne_iff_ne, Ne, toUpper_eq_iff h]

/-- Only `t` and its capital have the capital `T`, and `t` is no capital. -/
theorem eq_of_toUpper_eq_t {c : Char} (h : c.toUpper = 't' ∨ c.toUpper = 'T') :
    c = 't' ∨ c = 'T' := by
  rcases toUpper_cases c with hself | ⟨hlo, hhi, hupper⟩
  · rwa [hself] at h
  · rcases h with hsmall | hcapital
    · rw [hsmall] at hupper
      have hcode : 't'.toNat = 116 := rfl
      omega
    · rw [hcapital] at hupper
      have hcode : 'T'.toNat = 84 := rfl
      have hc : c.toNat = 't'.toNat := by
        show c.toNat = 116
        omega
      rw [← Char.ofNat_toNat c, hc]
      exact .inl (Char.ofNat_toNat 't')

/-- A character is a blank just when its capital is. -/
theorem isBlank_toUpper (c : Char) : isBlank c.toUpper = isBlank c :=
  toUpper_congr (fun _ hc => isBlank_of_isAlpha hc) c

/-- A character is a letter just when its capital is. -/
theorem isAlpha_toUpper (c : Char) : c.toUpper.isAlpha = c.isAlpha :=
  toUpper_congr (b := true) (fun _ hc => hc) c

/-- A character is a letter or digit just when its capital is. -/
theorem isAlphanum_toUpper (c : Char) : c.toUpper.isAlphanum = c.isAlphanum := by
  refine toUpper_congr (b := true) ?_ c
  intro c hc
  rw [Char.isAlphanum, hc, Bool.true_or]

/-- A character and its capital have the same capital form. -/
theorem capital_toUpper_self (c : Char) : capital c.toUpper = capital c := by
  by_cases hascii : c.toNat < 0x80
  · exact capital_toUpper hascii
  · rcases toUpper_cases c with hself | ⟨-, hhi, -⟩
    · rw [hself]
    · omega

/-! ## Texts -/

/-- What stands before a mark can be made capital before or after it is taken. -/
theorem takeWhile_upper {mark : Char} (h : mark.isAlpha = false) (s : List Char) :
    (upper s).takeWhile (· != mark) = upper (s.takeWhile (· != mark)) := by
  have hmark : (fun c => c != mark) ∘ Char.toUpper = fun c => c != mark := funext (bne_toUpper h)
  rw [upper, List.takeWhile_map, hmark, upper]

/-- What stands from a mark on can be made capital before or after it is taken. -/
theorem dropWhile_upper {mark : Char} (h : mark.isAlpha = false) (s : List Char) :
    (upper s).dropWhile (· != mark) = upper (s.dropWhile (· != mark)) := by
  have hmark : (fun c => c != mark) ∘ Char.toUpper = fun c => c != mark := funext (bne_toUpper h)
  rw [upper, List.dropWhile_map, hmark, upper]

/-- Making letters capital leaves which marks a text has. -/
theorem contains_upper {mark : Char} (h : mark.isAlpha = false) (s : List Char) :
    (upper s).contains mark = s.contains mark := by
  rw [Bool.eq_iff_iff, List.contains_iff_mem, List.contains_iff_mem, upper, List.mem_map]
  simp only [toUpper_eq_iff h, exists_eq_right]

/-- A text keeps its capital form when its ASCII letters are made capitals. -/
theorem capitals_upper (s : List Char) : capitals (upper s) = capitals s := by
  have hcapital : (fun c : Char => capital c.toUpper) = capital := funext capital_toUpper_self
  rw [capitals, upper, List.flatMap_map, hcapital, capitals]

/-- A text in capitals has the text's lines in capitals. -/
theorem lines_upper (s : List Char) : lines (upper s) = (lines s).map upper := by
  induction s with
  | nil => rfl
  | cons c s ih =>
    have hfeed : c.toUpper = '\n' ↔ c = '\n' := toUpper_eq_iff (by decide) c
    show lines (c.toUpper :: upper s) = _
    rw [lines, lines, ih]
    by_cases hc : c = '\n'
    · rw [if_pos (hfeed.2 hc), if_pos hc]
      rfl
    · rw [if_neg (mt hfeed.1 hc), if_neg hc]
      cases lines s <;> rfl

/-- A text can be trimmed before or after it is made capital. -/
theorem trim_upper (s : List Char) : trim (upper s) = upper (trim s) := by
  have hblank : isBlank ∘ Char.toUpper = isBlank := funext isBlank_toUpper
  simp only [trim, trimStart, trimEnd, upper, List.dropWhile_map, hblank, ← List.map_reverse]

/-- The words from one at hand on can be made capital before or after they are told apart. -/
theorem wordsFrom_upper (run s : List Char) :
    wordsFrom (upper run) (upper s) = (wordsFrom run s).map upper := by
  induction s generalizing run with
  | nil =>
    cases run with
    | nil => rfl
    | cons c run => simp [wordsFrom, upper]
  | cons c s ih =>
    show wordsFrom (upper run) (c.toUpper :: upper s) = _
    rw [wordsFrom, wordsFrom, isBlank_toUpper]
    split
    · cases run with
      | nil => exact ih []
      | cons d run =>
        have hrun : (upper (d :: run)).reverse = upper (d :: run).reverse := List.map_reverse.symm
        show (upper (d :: run)).reverse :: wordsFrom (upper []) (upper s) = _
        rw [hrun, ih []]
        rfl
    · exact ih (c :: run)

/-- A text in capitals has the text's words in capitals. -/
theorem words_upper (s : List Char) : words (upper s) = (words s).map upper :=
  wordsFrom_upper [] s

/-- A text without letters is its own capitals. -/
theorem upper_eq_self {s : List Char} (h : ∀ c ∈ s, c.isAlpha = false) : upper s = s := by
  have hself : ∀ c ∈ s, c.toUpper = id c := by
    intro c hc
    rcases toUpper_cases c with hsame | ⟨hlo, hhi, -⟩
    · exact hsame
    · have hletter : c.isAlpha = true := isAlpha_iff.2 (.inr ⟨hlo, hhi⟩)
      rw [h c hc] at hletter
      cases hletter
  rw [upper, List.map_congr_left hself, List.map_id]

/-- A decimal number is spelled without letters. -/
theorem SpellsDecimal.isAlpha_eq_false {s : List Char} {n : Int} (h : SpellsDecimal s n) {c : Char}
    (hc : c ∈ s) : c.isAlpha = false := by
  rcases h.isDigit_or_sign hc with hdigit | rfl | rfl
  · obtain ⟨hlo, hhi⟩ := toNat_of_isDigit hdigit
    rw [← Bool.not_eq_true, isAlpha_iff]
    omega
  · rfl
  · rfl

/-- Whether letters are capitals makes no difference to a number: it has none. -/
theorem spellsDecimal_upper {s : List Char} {n : Int} :
    SpellsDecimal (upper s) n ↔ SpellsDecimal s n := by
  constructor
  · intro h
    rwa [upper_eq_self] at h
    intro c hc
    rw [← isAlpha_toUpper]
    exact h.isAlpha_eq_false (List.mem_map_of_mem hc)
  · intro h
    rwa [upper_eq_self]
    exact fun c hc => h.isAlpha_eq_false hc

/-- Capitals make no difference to a decimal number. -/
theorem readWord?_upper (s : List Char) : readWord? (upper s) = readWord? s := by
  refine Option.ext fun w => ?_
  rw [readWord?_eq_some_iff, readWord?_eq_some_iff, spellsDecimal_upper]

end TernaryMachine.Text
