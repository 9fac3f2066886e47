import TernaryMachine.Proofs.Numeral.Total

/-!
# What a numeral spells

A text spells an integer when each of its characters is the glyph of a digit and the digits sum up
to that integer; `Numeral.Spells` says so without regard to range.  `parse_eq_ok_iff` says that a
numeral is read as a word just when it spells the word's value.
-/

set_option autoImplicit false

namespace TernaryMachine

/-- The word for an integer is the one with that value. -/
theorem Word.ofInt?_eq_some_iff {n : Int} {w : Word} : ofInt? n = some w ↔ n = w.toInt := by
  constructor
  · intro h
    exact (toInt_of_ofInt? h).symm
  · rintro rfl
    exact ofInt?_toInt w

namespace Numeral

/-- A row of characters spells an integer: they are digit glyphs, and the digits have that sum. -/
def Spells (text : List Char) (n : Int) : Prop :=
  ∃ row : List Trit, text.map Trit.ofChar? = row.map some ∧ value row = n

/-- A row is told by its digits as options. -/
theorem map_some_injective {row other : List Trit} (h : row.map some = other.map some) :
    row = other :=
  (List.map_inj_right fun _ _ => Option.some.inj).1 h

/-- What is read from glyphs is what they stand for. -/
theorem map_ofChar?_of_readTrits {position : Nat} {text : List Char} {row : List Trit}
    (h : readTrits position text = .ok row) : text.map Trit.ofChar? = row.map some := by
  induction text generalizing position row with
  | nil =>
    cases h
    rfl
  | cons c rest ih =>
    cases hc : Trit.ofChar? c with
    | none => simp [readTrits, hc] at h
    | some t =>
      cases hrest : readTrits (position + 1) rest with
      | error e => simp [readTrits, hc, hrest, Except.map] at h
      | ok more =>
        simp only [readTrits, hc, hrest, Except.map, Except.ok.injEq] at h
        rw [← h, List.map_cons, List.map_cons, hc, ih hrest]

/-- Glyphs are read as what they stand for. -/
theorem readTrits_of_map_ofChar? {position : Nat} {text : List Char} {row : List Trit}
    (h : text.map Trit.ofChar? = row.map some) : readTrits position text = .ok row := by
  induction text generalizing position row with
  | nil =>
    cases row with
    | nil => rfl
    | cons t more => cases h
  | cons c rest ih =>
    cases row with
    | nil => cases h
    | cons t more =>
      obtain ⟨hc, hrest⟩ := List.cons.inj h
      have hmore : readTrits (position + 1) rest = .ok more := ih hrest
      simp only [readTrits, hc, hmore, Except.map]

/-- A text has at most one row of digits. -/
theorem spells_iff_of_map {text : List Char} {row : List Trit} {n : Int}
    (h : text.map Trit.ofChar? = row.map some) : Spells text n ↔ value row = n := by
  constructor
  · rintro ⟨other, hother, hsum⟩
    rw [map_some_injective (h.symm.trans hother)]
    exact hsum
  · intro hsum
    exact ⟨row, h, hsum⟩

/-- A numeral is read as a word just when it spells the word's value. -/
theorem parse_eq_ok_iff {text : String} {w : Word} :
    parse text = .ok w ↔ Spells text.toList w.toInt := by
  cases hread : readTrits 0 text.toList with
  | error e =>
    have hnone : ¬ Spells text.toList w.toInt := by
      rintro ⟨row, hrow, -⟩
      rw [readTrits_of_map_ofChar? hrow] at hread
      cases hread
    simp [parse, hread, hnone]
  | ok row =>
    rw [spells_iff_of_map (map_ofChar?_of_readTrits hread), ← Word.ofInt?_eq_some_iff]
    cases hfit : Word.ofInt? (value row) <;> simp [parse, hread, total?_bind_ofInt?, hfit]

end Numeral

end TernaryMachine
