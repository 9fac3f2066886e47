import Mathlib.Tactic.Ring
import TernaryMachine.Proofs.Numeral.Reading

/-!
# Reading is exact at every length

The meaning of a numeral is said here without the digits and the sum that it is read with: five
characters are glyphs, each has a value, and a text of glyphs stands for the sum of these values,
each times the power of three of its place (`placeSum`).  `parse_exact` says that reading finds
just that, in a text of any length, or the first character that is no glyph.
-/

set_option autoImplicit false

namespace TernaryMachine.Numeral

/-- The characters that are read as digits, with what they stand for. -/
def glyphValues : List (Char × Int) :=
  [('-', -1), ('\u2212', -1), ('0', 0), ('+', 1), ('1', 1)]

/-- A character that is read as a digit. -/
def IsGlyph (c : Char) : Prop := (glyphValues.lookup c).isSome = true

instance (c : Char) : Decidable (IsGlyph c) := inferInstanceAs (Decidable (_ = true))

/-- What a glyph stands for. -/
def glyphValue (c : Char) : Int := (glyphValues.lookup c).getD 0

/-- The sum of a row of values, each times the power of three of its place; the last stands in
place 0. -/
def placeSum (values : List Int) : Int :=
  (values.reverse.zipIdx.map fun (v, place) => v * 3 ^ place).sum

/-! ## Glyphs and digits -/

/-- The table of glyphs gives each the value of the digit that it stands for. -/
theorem lookup_glyphValues (c : Char) :
    glyphValues.lookup c = (Trit.ofChar? c).map Trit.value := by
  unfold Trit.ofChar?
  split
  · next hminus => rcases hminus with rfl | rfl <;> rfl
  · next hminus =>
    split
    · next hzero => subst hzero; rfl
    · next hzero =>
      split
      · next hplus => rcases hplus with rfl | rfl <;> rfl
      · next hplus =>
        have hnone : glyphValues.lookup c = none := by
          rw [List.lookup_eq_none_iff]
          simp only [not_or, Trit.minusSign] at hminus hplus
          simp [glyphValues, hminus, hzero, hplus]
        exact hnone

/-- A glyph is what stands for a digit. -/
theorem isGlyph_iff {c : Char} : IsGlyph c ↔ ∃ t, Trit.ofChar? c = some t := by
  rw [IsGlyph, lookup_glyphValues, Option.isSome_map, Option.isSome_iff_exists]

/-- A glyph has the value of its digit. -/
theorem glyphValue_of_ofChar? {c : Char} {t : Trit} (h : Trit.ofChar? c = some t) :
    glyphValue c = t.value := by
  rw [glyphValue, lookup_glyphValues, h]
  rfl

/-- A text of glyphs has a row of digits with the same values. -/
theorem exists_row {text : List Char} (h : ∀ c ∈ text, IsGlyph c) :
    ∃ row : List Trit, text.map Trit.ofChar? = row.map some ∧
      text.map glyphValue = row.map Trit.value := by
  induction text with
  | nil => exact ⟨[], rfl, rfl⟩
  | cons c rest ih =>
    obtain ⟨t, ht⟩ := isGlyph_iff.1 (h c List.mem_cons_self)
    obtain ⟨row, hrow, hvalues⟩ := ih fun d hd => h d (List.mem_cons_of_mem c hd)
    refine ⟨t :: row, ?_, ?_⟩
    · rw [List.map_cons, List.map_cons, ht, hrow]
    · rw [List.map_cons, List.map_cons, glyphValue_of_ofChar? ht, hvalues]

/-- The values of digits, weighed from a place on, add up to the value of the row at that place. -/
theorem sum_zipIdx_value (k : Nat) (digits : List Trit) :
    (((digits.map Trit.value).zipIdx k).map fun (v, place) => v * 3 ^ place).sum =
      3 ^ k * value digits.reverse := by
  induction digits generalizing k with
  | nil =>
    show 0 = 3 ^ k * 0
    omega
  | cons t rest ih =>
    rw [List.map_cons, List.zipIdx_cons, List.map_cons, List.sum_cons, ih, value_reverse_cons]
    ring

/-- The sum over the places is the value of the row. -/
theorem placeSum_values (row : List Trit) : placeSum (row.map Trit.value) = value row := by
  have hsum := sum_zipIdx_value 0 row.reverse
  rw [List.reverse_reverse, List.map_reverse] at hsum
  rw [placeSum, hsum]
  omega

/-! ## What reading finds -/

/-- The first character that is no glyph is reported with its position. -/
theorem readTrits_of_first (position : Nat) {front : List Char} (hfront : ∀ d ∈ front, IsGlyph d)
    {c : Char} (hc : ¬ IsGlyph c) (rest : List Char) :
    readTrits position (front ++ c :: rest) =
      .error (.invalidDigit c (position + front.length)) := by
  induction front generalizing position with
  | nil =>
    have hnone : Trit.ofChar? c = none := by
      rw [Option.eq_none_iff_forall_ne_some]
      intro t ht
      exact hc (isGlyph_iff.2 ⟨t, ht⟩)
    simp only [List.nil_append, readTrits, hnone]
    rfl
  | cons d front ih =>
    obtain ⟨t, ht⟩ := isGlyph_iff.1 (hfront d List.mem_cons_self)
    have hmore := ih (position + 1) fun e he => hfront e (List.mem_cons_of_mem d he)
    have hlength : position + 1 + front.length = position + (d :: front).length := by
      rw [List.length_cons]
      omega
    simp only [List.cons_append, readTrits, ht, hmore, Except.map, hlength]

/-- A row of glyphs is read as its value, if a word has it, and else is too large. -/
theorem parse_of_row {text : String} {row : List Trit}
    (h : text.toList.map Trit.ofChar? = row.map some) :
    parse text =
      match Word.ofInt? (value row) with
      | none => .error (.overflow text)
      | some w => .ok w := by
  cases hword : Word.ofInt? (value row) with
  | none => simp only [parse, readTrits_of_map_ofChar? h, total?_bind_ofInt?, hword]
  | some w => simp only [parse, readTrits_of_map_ofChar? h, total?_bind_ofInt?, hword]

/-- **Reading is exact at every length.**  A text with a character that is no glyph is refused for
the first such character, with the number of characters in front of it, whatever the others sum up
to.  A text of glyphs is read as the word of its exact sum if that is in the range of words, and is
otherwise refused as too large: no limit of the summing shows, for however many digits. -/
theorem parse_exact (text : String) :
    (∀ front c rest, text.toList = front ++ c :: rest → (∀ d ∈ front, IsGlyph d) → ¬ IsGlyph c →
      parse text = .error (.invalidDigit c front.length)) ∧
    ((∀ c ∈ text.toList, IsGlyph c) →
      let sum := placeSum (text.toList.map glyphValue)
      (-2 ^ 63 ≤ sum ∧ sum < 2 ^ 63 → ∃ w, parse text = .ok w ∧ w.toInt = sum) ∧
      (sum < -2 ^ 63 ∨ 2 ^ 63 ≤ sum → parse text = .error (.overflow text))) := by
  constructor
  · intro front c rest htext hfront hc
    have hread := readTrits_of_first 0 hfront hc rest
    rw [← htext, Nat.zero_add] at hread
    simp only [parse, hread]
  · intro hglyphs sum
    obtain ⟨row, hrow, hvalues⟩ := exists_row hglyphs
    have hsum : sum = value row := by
      show placeSum (text.toList.map glyphValue) = value row
      rw [hvalues, placeSum_values]
    rw [parse_of_row hrow, ← hsum]
    constructor
    · intro hfits
      cases hword : Word.ofInt? sum with
      | some w => exact ⟨w, rfl, Word.toInt_of_ofInt? hword⟩
      | none =>
        have hout := Word.ofInt?_eq_none_iff.1 hword
        simp only [Word.least, Word.greatest] at hout
        omega
    · intro hout
      have hword : Word.ofInt? sum = none := by
        apply Word.ofInt?_eq_none_iff.2
        simp only [Word.least, Word.greatest]
        omega
      rw [hword]

/-- Ninety zeros in front of a one, a row whose digits leave the 128 bits on the way, and such a
row with characters behind it that are no glyphs. -/
theorem parse_exact_long :
    (∃ w, parse (String.ofList (List.replicate 90 '0' ++ ['1'])) = .ok w ∧ w.toInt = 1) ∧
    parse (String.ofList (List.replicate 82 '+')) =
      .error (.overflow (String.ofList (List.replicate 82 '+'))) ∧
    parse (String.ofList (List.replicate 82 '+' ++ ['2', '3'])) =
      .error (.invalidDigit '2' 82) := by
  have hplus : ∀ c ∈ List.replicate 82 '+', IsGlyph c := by
    intro c hc
    rw [List.eq_of_mem_replicate hc]
    rfl
  refine ⟨?_, ?_, ?_⟩
  · have hexact := (parse_exact (String.ofList (List.replicate 90 '0' ++ ['1']))).2
    have hglyphs : ∀ c ∈ List.replicate 90 '0' ++ ['1'], IsGlyph c := by
      intro c hc
      rcases List.mem_append.1 hc with hzero | hone
      · rw [List.eq_of_mem_replicate hzero]
        rfl
      · rw [List.mem_singleton.1 hone]
        rfl
    have hsum : placeSum ((List.replicate 90 '0' ++ ['1']).map glyphValue) = 1 := by
      decide +kernel
    rw [String.toList_ofList, hsum] at hexact
    exact (hexact hglyphs).1 (by decide)
  · have hexact := (parse_exact (String.ofList (List.replicate 82 '+'))).2
    rw [String.toList_ofList] at hexact
    exact (hexact hplus).2 (.inr (by decide +kernel))
  · have hexact := (parse_exact (String.ofList (List.replicate 82 '+' ++ ['2', '3']))).1
      (List.replicate 82 '+') '2' ['3'] String.toList_ofList hplus (by decide)
    rwa [List.length_replicate] at hexact

end TernaryMachine.Numeral
