import TernaryMachine.Proofs.Numeral.Digits
import TernaryMachine.Proofs.Numeral.Reading

/-!
# The canonical form of a numeral

A numeral may be spelled in many ways: with zeros in front, with the typographic minus sign, with
`1` for `+`.  `Numeral.canonical` undoes all three and nothing else.  It does not change what a text
spells (`spells_canonical`), and it leaves just the text that a word is written with
(`render_eq_canonical`).  So two texts are read as the same word just when they have one canonical
form.
-/

set_option autoImplicit false

namespace TernaryMachine.Numeral

/-- The usual glyph in place of its other spelling. -/
def plainGlyph (c : Char) : Char :=
  if c = Trit.minusSign then '-' else if c = '1' then '+' else c

/-- A text in usual glyphs without zeros in front; the empty row of digits is written as zero. -/
def canonical (text : String) : String :=
  match (text.toList.map plainGlyph).dropWhile (· == '0') with
  | [] => "0"
  | c :: rest => String.ofList (c :: rest)

/-! ## The canonical form spells the same -/

/-- The plain glyph stands for the same digit. -/
theorem ofChar?_plainGlyph (c : Char) : Trit.ofChar? (plainGlyph c) = Trit.ofChar? c := by
  unfold plainGlyph
  split
  · next h =>
    subst h
    rfl
  · split
    · next h =>
      subst h
      rfl
    · rfl

/-- In plain glyphs, a text spells the same. -/
theorem spells_map_plainGlyph (text : List Char) (n : Int) :
    Spells (text.map plainGlyph) n ↔ Spells text n := by
  have hmap : (text.map plainGlyph).map Trit.ofChar? = text.map Trit.ofChar? := by
    rw [List.map_map]
    exact List.map_congr_left fun c _ => ofChar?_plainGlyph c
  simp only [Spells, hmap]

/-- A zero in front makes no difference to what a text spells. -/
theorem spells_cons_zero (text : List Char) (n : Int) : Spells ('0' :: text) n ↔ Spells text n := by
  have hzero : Trit.ofChar? '0' = some .zero := rfl
  constructor
  · rintro ⟨row, hrow, hsum⟩
    cases row with
    | nil => cases hrow
    | cons t more =>
      obtain ⟨ht, hmore⟩ := List.cons.inj hrow
      rw [hzero] at ht
      cases ht
      exact ⟨more, hmore, hsum⟩
  · rintro ⟨row, hrow, hsum⟩
    refine ⟨.zero :: row, ?_, hsum⟩
    rw [List.map_cons, List.map_cons, hrow, hzero]

/-- Without the zeros in front, a text spells the same. -/
theorem spells_dropWhile_zero (text : List Char) (n : Int) :
    Spells (text.dropWhile (· == '0')) n ↔ Spells text n := by
  induction text with
  | nil => rfl
  | cons c rest ih =>
    by_cases hc : c = '0'
    · subst hc
      rw [spells_cons_zero, ← ih]
      rfl
    · rw [List.dropWhile_cons_of_neg (by simpa using hc)]

/-- The canonical form of a text spells the same. -/
theorem spells_canonical (text : String) (n : Int) :
    Spells (canonical text).toList n ↔ Spells text.toList n := by
  rw [← spells_map_plainGlyph text.toList, ← spells_dropWhile_zero (text.toList.map plainGlyph),
    canonical]
  split
  · next hnil =>
    rw [hnil]
    exact spells_cons_zero [] n
  · next c rest hcons => rw [hcons, String.toList_ofList]

/-- The canonical form of a text is read as the same word. -/
theorem parse_canonical (text : String) (w : Word) :
    parse (canonical text) = .ok w ↔ parse text = .ok w := by
  rw [parse_eq_ok_iff, parse_eq_ok_iff, spells_canonical]

/-! ## Writing is canonical -/

/-- The plain glyph of a digit's glyph is the one that the digit is written with. -/
theorem plainGlyph_of_ofChar? {c : Char} {t : Trit} (h : Trit.ofChar? c = some t) :
    plainGlyph c = t.glyph := by
  unfold Trit.ofChar? at h
  split at h
  · next hminus =>
    cases h
    rcases hminus with rfl | rfl <;> rfl
  · split at h
    · next hzero =>
      cases h
      subst hzero
      rfl
    · split at h
      · next hplus =>
        cases h
        rcases hplus with rfl | rfl <;> rfl
      · cases h

/-- A row of digits in plain glyphs is as it is written. -/
theorem map_plainGlyph {text : List Char} {row : List Trit}
    (h : text.map Trit.ofChar? = row.map some) : text.map plainGlyph = row.map Trit.glyph := by
  induction text generalizing row with
  | nil =>
    cases row with
    | nil => rfl
    | cons t more => cases h
  | cons c rest ih =>
    cases row with
    | nil => cases h
    | cons t more =>
      obtain ⟨hc, hrest⟩ := List.cons.inj h
      rw [List.map_cons, List.map_cons, plainGlyph_of_ofChar? hc, ih hrest]

/-- Zeros in front can be dropped before a row is written or after. -/
theorem dropWhile_map_glyph (row : List Trit) :
    (row.map Trit.glyph).dropWhile (· == '0') = (row.dropWhile Trit.isZero).map Trit.glyph := by
  have hzero : ((· == '0') ∘ Trit.glyph) = Trit.isZero := by
    funext t
    cases t <;> rfl
  rw [List.dropWhile_map, hzero]

/-- A word is written with the digits of its value, the highest first, and a single zero for zero.
-/
theorem digits_eq (w : Word) :
    digits w = if digitsOf w.toInt = [] then [.zero] else (digitsOf w.toInt).reverse := by
  have hzero : w = 0 ↔ digitsOf w.toInt = [] := by
    constructor
    · rintro rfl
      exact digitsOf_zero
    · intro hnil
      have hvalue := value_digitsOf w.toInt
      rw [hnil] at hvalue
      exact Int64.toInt_inj.1 hvalue.symm
  simp only [digits, hzero]

/-- A word is written in the canonical form of every text that is read as it. -/
theorem render_eq_canonical {text : String} {w : Word} (h : parse text = .ok w) :
    render w = canonical text := by
  obtain ⟨row, hrow, hvalue⟩ := parse_eq_ok_iff.1 h
  have hdigits : (digitsOf w.toInt).reverse = row.dropWhile Trit.isZero := by
    rw [← hvalue, digitsOf_value_reverse]
  have hplain : (text.toList.map plainGlyph).dropWhile (· == '0') =
      (digitsOf w.toInt).reverse.map Trit.glyph := by
    rw [map_plainGlyph hrow, dropWhile_map_glyph, hdigits]
  rw [render, digits_eq, canonical, hplain]
  by_cases hnil : digitsOf w.toInt = []
  · rw [if_pos hnil, hnil]
    rfl
  · rw [if_neg hnil]
    split
    · next hempty => exact absurd (by simpa using hempty) hnil
    · next c rest hcons => rw [hcons]

/-- A word is read back from its numeral. -/
theorem parse_render (w : Word) : parse (render w) = .ok w := by
  rw [parse_eq_ok_iff, render, String.toList_ofList]
  refine ⟨digits w, ?_, ?_⟩
  · rw [List.map_map]
    exact List.map_congr_left fun t _ => Trit.ofChar?_glyph t
  · rw [digits_eq]
    split
    · next hnil =>
      have hvalue := value_digitsOf w.toInt
      rwa [hnil] at hvalue
    · exact value_digitsOf w.toInt

/-- Numerals are written in plain glyphs. -/
theorem glyph_of_mem_render {w : Word} {c : Char} (h : c ∈ (render w).toList) :
    c = '-' ∨ c = '0' ∨ c = '+' := by
  rw [render, String.toList_ofList] at h
  obtain ⟨t, -, rfl⟩ := List.mem_map.1 h
  cases t
  · exact .inl rfl
  · exact .inr (.inl rfl)
  · exact .inr (.inr rfl)

/-- Only the numeral of zero starts with a zero. -/
theorem eq_zero_of_head?_render {w : Word} (h : (render w).toList.head? = some '0') : w = 0 := by
  by_contra hne
  rw [render, String.toList_ofList, digits, if_neg hne, List.head?_map] at h
  obtain ⟨t, ht, hglyph⟩ := Option.map_eq_some_iff.1 h
  have hzero : t = .zero := by
    cases t
    · cases hglyph
    · rfl
    · cases hglyph
  rw [hzero] at ht
  exact head?_digitsOf_reverse w.toInt ht

/-- A numeral has at most 41 digits. -/
theorem length_render (w : Word) : (render w).length ≤ 41 := by
  have hlength := length_digitsOf_toInt w
  rw [render, String.length_ofList, List.length_map, digits_eq]
  split
  · exact Nat.le_of_ble_eq_true rfl
  · rwa [List.length_reverse]

/-- **Numerals are canonical.**  A word is written with the three usual glyphs, without a zero in
front unless it is zero, in at most 41 places, and is read back.  A text that is read as a word is
that word's numeral but for other glyphs and zeros in front.  So a text is read as the same word as
another just when the two have one canonical form. -/
theorem numeral_canonical :
    (∀ w : Word,
      (∀ c ∈ (render w).toList, c = '-' ∨ c = '0' ∨ c = '+') ∧
      ((render w).toList.head? = some '0' → w = 0) ∧
      (render w).length ≤ 41 ∧
      parse (render w) = .ok w) ∧
    (∀ (text : String) (w : Word), parse text = .ok w → render w = canonical text) ∧
    ∀ (text other : String) (w : Word), parse text = .ok w →
      (parse other = .ok w ↔ canonical other = canonical text) := by
  refine ⟨?_, fun text w => render_eq_canonical, ?_⟩
  · intro w
    exact ⟨fun c => glyph_of_mem_render, eq_zero_of_head?_render, length_render w, parse_render w⟩
  · intro text other w htext
    constructor
    · intro hother
      rw [← render_eq_canonical hother, render_eq_canonical htext]
    · intro hsame
      rw [← parse_canonical, hsame, parse_canonical]
      exact htext

/-- Zeros in front and both other glyphs at once. -/
theorem numeral_canonical_mixed :
    parse "00\u22121" = .ok (-2) ∧ render (-2) = "-+" ∧ parse "0-+" = .ok (-2) := by
  have hread : parse "00\u22121" = .ok (-2) := by decide +kernel
  refine ⟨hread, ?_, ?_⟩
  · exact numeral_canonical.2.1 "00\u22121" (-2) hread
  · exact (numeral_canonical.2.2 "00\u22121" "0-+" (-2) hread).2 (by decide)

end TernaryMachine.Numeral
