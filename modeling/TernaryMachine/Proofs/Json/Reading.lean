import Mathlib.Data.List.Basic
import TernaryMachine.Proofs.Json.Grammar
import TernaryMachine.Proofs.Text.Digits

/-!
# Reading JSON text

Every spelling of a string is read as that string (`scanText_of_spells`), and an integer that is
spelled is read if it is an unsigned 64-bit number (`scanUnsigned_repr`) and refused otherwise, as
any other value is (`scanUnsigned_refuses`).  Each reads up to the last character of the spelling,
so what stands behind is left as it is; behind a number that must be something that does not go on
with it (`EndsNumber`).
-/

set_option autoImplicit false

namespace TernaryMachine.Json

/-! ## Gaps -/

/-- A gap is passed over. -/
theorem skipSpace_append {gap : List Char} (h : IsGap gap) (s : List Char) :
    skipSpace (gap ++ s) = skipSpace s :=
  List.dropWhile_append_of_pos h

/-- What is no space is not passed over. -/
theorem skipSpace_cons {c : Char} (h : isSpace c = false) (s : List Char) :
    skipSpace (c :: s) = c :: s := by
  rw [skipSpace, List.dropWhile_cons_of_neg]
  rw [h]
  decide

/-- Of a gap, nothing is left. -/
theorem skipSpace_gap {gap : List Char} (h : IsGap gap) : skipSpace gap = [] := by
  have hnil := skipSpace_append h []
  rwa [List.append_nil] at hnil

/-! ## Strings -/

/-- Four hexadecimal digits are read as the unit that they spell. -/
theorem scanHex_of_spells {digits : List Char} {n : Nat} (h : SpellsUnit digits n)
    (rest : List Char) : scanHex (digits ++ rest) = .ok (n, rest) := by
  cases h with
  | @mk a b c d _ _ _ _ ha hb hc hd =>
    have hbytes : ¬ a.utf8Size + b.utf8Size + c.utf8Size + d.utf8Size < 4 := by
      have hsize := fun e : Char => e.utf8Size_pos
      have := hsize a
      have := hsize b
      have := hsize c
      have := hsize d
      omega
    simp [scanHex, ha, hb, hc, hd, hbytes]

/-- A short escape is read as the character that it stands for. -/
theorem scanPiece_short (strict : Bool) {letter c : Char} (h : (letter, c) ∈ shortEscapes)
    (rest : List Char) : scanPiece strict ('\\' :: letter :: rest) = .ok (some c, rest) := by
  simp only [shortEscapes, List.mem_cons, Prod.mk.injEq, List.not_mem_nil, or_false] at h
  rcases h with ⟨rfl, rfl⟩ | ⟨rfl, rfl⟩ | ⟨rfl, rfl⟩ | ⟨rfl, rfl⟩ | ⟨rfl, rfl⟩ | ⟨rfl, rfl⟩ |
    ⟨rfl, rfl⟩ | ⟨rfl, rfl⟩ <;> rfl

/-- A character that stands for itself is read as itself. -/
theorem scanPiece_plain (strict : Bool) {c : Char} (hquote : c ≠ '"') (hslash : c ≠ '\\')
    (hcontrol : 0x20 ≤ c.toNat) (rest : List Char) :
    scanPiece strict (c :: rest) = .ok (some c, rest) := by
  unfold scanPiece
  split
  · next heq => cases heq
  · next heq => exact absurd (List.cons.inj heq).1 hquote
  · next heq => exact absurd (List.cons.inj heq).1 hslash
  · next heq => exact absurd (List.cons.inj heq).1 hslash
  · next heq => exact absurd (List.cons.inj heq).1 hslash
  · next heq =>
    obtain ⟨rfl, rfl⟩ := List.cons.inj heq
    exact if_neg (by omega)

/-- A unit outside the surrogates is read as a character of its own. -/
theorem scanCodePoint_unit {digits : List Char} {n : Nat} (h : SpellsUnit digits n)
    (hn : n < 0xD800 ∨ 0xDFFF < n) (rest : List Char) :
    scanCodePoint (digits ++ rest) = .ok (Char.ofNat n, rest) := by
  have hlow : ¬ (0xDC00 ≤ n ∧ n ≤ 0xDFFF) := by omega
  have hhigh : n < 0xD800 ∨ 0xDBFF < n := by omega
  simp only [scanCodePoint, scanHex_of_spells h, if_neg hlow, if_pos hhigh]

/-- Two surrogates, a high and a low one, are read as one character. -/
theorem scanCodePoint_pair {digits digits' : List Char} {high low : Nat}
    (h : SpellsUnit digits high) (h' : SpellsUnit digits' low)
    (hhigh : 0xD800 ≤ high ∧ high ≤ 0xDBFF) (hlow : 0xDC00 ≤ low ∧ low ≤ 0xDFFF)
    (rest : List Char) :
    scanCodePoint (digits ++ '\\' :: 'u' :: (digits' ++ rest)) =
      .ok (Char.ofNat (0x10000 + (high - 0xD800) * 0x400 + (low - 0xDC00)), rest) := by
  have hfirst : ¬ (0xDC00 ≤ high ∧ high ≤ 0xDFFF) := by omega
  have hsurrogate : ¬ (high < 0xD800 ∨ 0xDBFF < high) := by omega
  have hsecond : ¬ (low < 0xDC00 ∨ 0xDFFF < low) := by omega
  simp only [scanCodePoint, scanHex_of_spells h, scanHex_of_spells h', if_neg hfirst,
    if_neg hsurrogate, if_neg hsecond]

/-- Behind a backslash and the letter `u`, a code point is read. -/
theorem scanPiece_escaped {s rest : List Char} {c : Char} (h : scanCodePoint s = .ok (c, rest)) :
    scanPiece true ('\\' :: 'u' :: s) = .ok (some c, rest) := by
  rw [scanPiece, if_pos rfl, h]
  rfl

/-- What spells a character is read as it. -/
theorem scanPiece_of_spells {t : List Char} {c : Char} (h : SpellsChar t c) (rest : List Char) :
    scanPiece true (t ++ rest) = .ok (some c, rest) := by
  cases h with
  | plain hquote hslash hcontrol => exact scanPiece_plain true hquote hslash hcontrol rest
  | short h => exact scanPiece_short true h rest
  | unit h hn => exact scanPiece_escaped (scanCodePoint_unit h hn rest)
  | pair h h' hhigh hlow =>
    rw [List.append_assoc]
    exact scanPiece_escaped (scanCodePoint_pair h h' hhigh hlow rest)

/-- What spells a text is read as it, up to the quotation mark. -/
theorem scanPieces_of_spells {t s : List Char} (h : SpellsText t s) (rest : List Char) {bound : Nat}
    (hbound : s.length < bound) :
    scanPieces true bound (t ++ '"' :: rest) = .ok (s, rest) := by
  induction h generalizing bound with
  | nil =>
    obtain ⟨bound, rfl⟩ := Nat.exists_eq_succ_of_ne_zero (Nat.ne_zero_of_lt hbound)
    rfl
  | @cons t more s c hc hmore ih =>
    obtain ⟨bound, rfl⟩ := Nat.exists_eq_succ_of_ne_zero (Nat.ne_zero_of_lt hbound)
    have hbound : s.length < bound := Nat.lt_of_succ_lt_succ hbound
    rw [scanPieces, List.append_assoc, scanPiece_of_spells hc]
    simp only [ih hbound]
    rfl

/-- A text is no longer than what spells it. -/
theorem length_le_of_spellsText {t s : List Char} (h : SpellsText t s) : s.length ≤ t.length := by
  induction h with
  | nil => exact Nat.le_refl 0
  | cons hc _ ih =>
    rw [List.length_cons, List.length_append]
    cases hc <;> simp only [List.length_cons, List.length_append] <;> omega

/-- Every spelling of a string is read as that string. -/
theorem scanText_of_spells {t s : List Char} (h : SpellsText t s) (rest : List Char) :
    scanText true (t ++ '"' :: rest) = .ok (s, rest) := by
  apply scanPieces_of_spells h
  have hlength := length_le_of_spellsText h
  rw [List.length_append]
  omega

/-! ## Numbers -/

/-- A text that does not go on with a number in front of it. -/
def EndsNumber (s : List Char) : Prop :=
  ∀ c ∈ s.head?, c.isDigit = false ∧ c ≠ '.' ∧ c ≠ 'e' ∧ c ≠ 'E'

/-- A mark between values ends a number. -/
theorem endsNumber_mark {mark : Char} (h : mark = ',' ∨ mark = ']' ∨ mark = '\x7d')
    (s : List Char) : EndsNumber (mark :: s) := by
  intro c hc
  cases hc
  rcases h with rfl | rfl | rfl <;> decide

/-- A number ends before a gap, too. -/
theorem endsNumber_append {gap s : List Char} (hgap : IsGap gap) (hs : EndsNumber s) :
    EndsNumber (gap ++ s) := by
  cases gap with
  | nil => exact hs
  | cons c gap =>
    intro d hd
    cases hd
    have hspace := hgap c List.mem_cons_self
    simp only [isSpace, Bool.or_eq_true, beq_iff_eq] at hspace
    rcases hspace with ((rfl | rfl) | rfl) | rfl <;> decide

/-- Only zero is printed with a zero in front. -/
theorem eq_zero_of_head?_toDigits {n : Nat} (h : (Nat.toDigits 10 n).head? = some '0') :
    n = 0 := by
  induction n using Nat.strongRecOn with
  | _ n ih =>
    by_cases hn : n < 10
    · rw [Nat.toDigits_of_lt_base hn] at h
      have hdigit : ∀ k < 10, Nat.digitChar k = '0' → k = 0 := by decide
      exact hdigit n hn (Option.some.inj h)
    · rw [Nat.toDigits_of_base_le (by decide) (by omega),
        List.head?_append_of_ne_nil _ Nat.toDigits_ne_nil] at h
      have hzero := ih (n / 10) (by omega) h
      omega

/-- A printed number starts with a digit. -/
theorem exists_digit_repr (n : Nat) :
    ∃ c digits, n.repr.toList = c :: digits ∧ c.isDigit = true := by
  obtain ⟨c, digits, hrepr⟩ := List.exists_cons_of_ne_nil (Text.repr_ne_nil n)
  refine ⟨c, digits, hrepr, Text.isDigit_of_mem_repr (n := n) ?_⟩
  rw [hrepr]
  exact List.mem_cons_self

/-- The digits of a number are read up to where the number ends. -/
theorem scanDigits_repr (atEnd : ScanError) (n : Nat) {rest : List Char} (h : EndsNumber rest) :
    scanDigits atEnd (n.repr.toList ++ rest) = .ok (n.repr.toList, rest) := by
  have hdigits : ∀ c ∈ n.repr.toList, c.isDigit = true := fun _ hc => Text.isDigit_of_mem_repr hc
  have htake : rest.takeWhile Char.isDigit = [] := by
    cases rest with
    | nil => rfl
    | cons c rest => simp [(h c rfl).1]
  have hdrop : rest.dropWhile Char.isDigit = rest := by
    cases rest with
    | nil => rfl
    | cons c rest => simp [(h c rfl).1]
  have hsplit : (n.repr.toList ++ rest).takeWhile Char.isDigit = n.repr.toList ∧
      (n.repr.toList ++ rest).dropWhile Char.isDigit = rest := by
    rw [List.takeWhile_append_of_pos hdigits, List.dropWhile_append_of_pos hdigits, htake, hdrop,
      List.append_nil]
    exact ⟨rfl, rfl⟩
  obtain ⟨c, digits, hrepr, hc⟩ := exists_digit_repr n
  rw [hrepr, List.cons_append] at hsplit ⊢
  simp only [scanDigits, if_pos hc, hsplit]

/-- Where a number ends, it has no fraction. -/
theorem scanFraction_end (atEnd : ScanError) {rest : List Char} (h : EndsNumber rest) :
    scanFraction atEnd rest = .ok (none, rest) := by
  unfold scanFraction
  split
  · exact absurd rfl (h '.' rfl).2.1
  · rfl

/-- Where a number ends, it has no exponent. -/
theorem scanExponent_end (atEnd : ScanError) {rest : List Char} (h : EndsNumber rest) :
    scanExponent atEnd rest = .ok (none, rest) := by
  unfold scanExponent
  split
  · exact absurd rfl (h 'e' rfl).2.2.1
  · exact absurd rfl (h 'E' rfl).2.2.2
  · exact absurd rfl (h 'e' rfl).2.2.1
  · exact absurd rfl (h 'E' rfl).2.2.2
  · exact absurd rfl (h 'e' rfl).2.2.1
  · exact absurd rfl (h 'E' rfl).2.2.2
  · rfl

/-- The digits of a number are read up to what ends it. -/
theorem scanWhole_repr (atEnd : ScanError) (n : Nat) {rest : List Char} (h : EndsNumber rest) :
    scanWhole atEnd (n.repr.toList ++ rest) = .ok (n.repr.toList, rest) := by
  have hlead : ¬ (n.repr.toList.head? = some '0' ∧ n.repr.toList.length ≠ 1) := by
    rintro ⟨hhead, hlength⟩
    rw [Nat.toList_repr] at hhead
    rw [eq_zero_of_head?_toDigits hhead] at hlength
    exact hlength rfl
  simp only [scanWhole, scanDigits_repr atEnd n h, if_neg hlead]

/-- A number without a sign is read with its digits for its only part. -/
theorem scanNumber_repr (atEnd : ScanError) (n : Nat) {rest : List Char} (h : EndsNumber rest) :
    scanNumber atEnd (n.repr.toList ++ rest) = .ok (⟨false, n.repr.toList, none, none⟩, rest) := by
  have hnegative : ((n.repr.toList ++ rest).head? == some '-') = false := by
    obtain ⟨c, digits, hrepr, hc⟩ := exists_digit_repr n
    rw [hrepr, List.cons_append, List.head?_cons, beq_eq_false_iff_ne, Ne, Option.some_inj]
    rintro rfl
    cases hc
  simp only [scanNumber, hnegative, Bool.false_eq_true, if_false, scanWhole_repr atEnd n h,
    scanFraction_end atEnd h, scanExponent_end atEnd h]
  rfl

/-- A number behind a minus sign is read with the sign. -/
theorem scanNumber_minus (atEnd : ScanError) (n : Nat) {rest : List Char} (h : EndsNumber rest) :
    scanNumber atEnd ('-' :: (n.repr.toList ++ rest)) =
      .ok (⟨true, n.repr.toList, none, none⟩, rest) := by
  simp only [scanNumber, List.head?_cons, beq_self_eq_true, if_true, List.drop_succ_cons,
    List.drop_zero, scanWhole_repr atEnd n h, scanFraction_end atEnd h, scanExponent_end atEnd h]
  rfl

/-- A negative number is written behind a minus sign. -/
theorem toList_repr_negSucc (n : Nat) :
    (Int.negSucc n).repr.toList = '-' :: (n + 1).repr.toList := by
  simp [Int.repr, String.toList_append]

/-- A row of digits is an unsigned number when it is in range. -/
theorem unsigned?_repr (n : Nat) :
    (NumberText.mk false n.repr.toList none none).unsigned? =
      if n < UInt64.size then some (UInt64.ofNat n) else none := by
  simp [NumberText.unsigned?, NumberText.isInteger]

/-- A digit is no space. -/
theorem isSpace_of_isDigit {c : Char} (h : c.isDigit = true) : isSpace c = false := by
  obtain ⟨hlo, -⟩ := Text.toNat_of_isDigit h
  simp only [isSpace, Bool.or_eq_false_iff, beq_eq_false_iff_ne]
  refine ⟨⟨⟨?_, ?_⟩, ?_⟩, ?_⟩ <;> rintro rfl <;> exact absurd hlo (by decide)

/-- An integer starts with a digit or a minus sign. -/
theorem exists_head_repr (n : Int) :
    ∃ c digits, n.repr.toList = c :: digits ∧ (c = '-' ∨ c.isDigit = true) := by
  cases n with
  | ofNat n =>
    obtain ⟨c, digits, hrepr, hc⟩ := exists_digit_repr n
    exact ⟨c, digits, hrepr, .inr hc⟩
  | negSucc n => exact ⟨'-', _, toList_repr_negSucc n, .inl rfl⟩

/-- What a number starts with is no space, no mark, no letter and no quote. -/
theorem ne_of_starts_number {c : Char} (h : c = '-' ∨ c.isDigit = true) :
    isSpace c = false ∧ (c ≠ '[' ∧ c ≠ ']' ∧ c ≠ '\x7b' ∧ c ≠ '\x7d') ∧
      c ≠ 'n' ∧ c ≠ 't' ∧ c ≠ 'f' ∧ c ≠ '"' := by
  rcases h with rfl | hdigit
  · decide
  · refine ⟨isSpace_of_isDigit hdigit, ?_⟩
    refine ⟨⟨?_, ?_, ?_, ?_⟩, ?_, ?_, ?_, ?_⟩ <;> rintro rfl <;> exact absurd hdigit (by decide)

/-- A printed natural number is read when it is in range, and else refused. -/
theorem scanUnsigned_integer {gap : List Char} (hgap : IsGap gap) (n : Nat) {rest : List Char}
    (h : EndsNumber rest) :
    scanUnsigned (gap ++ (n.repr.toList ++ rest)) =
      if n < UInt64.size then .ok (UInt64.ofNat n, rest)
      else .error (mismatch (n.repr.toList ++ rest)) := by
  have hnumber := scanNumber_repr .truncated n h
  obtain ⟨c, digits, hrepr, hc⟩ := exists_digit_repr n
  have hskip : skipSpace (gap ++ (n.repr.toList ++ rest)) = n.repr.toList ++ rest := by
    rw [skipSpace_append hgap, hrepr, List.cons_append, skipSpace_cons (isSpace_of_isDigit hc)]
  rw [scanUnsigned]
  simp only [hskip, hnumber, unsigned?_repr]
  rw [hrepr, List.cons_append]
  simp only [if_pos hc]
  split_ifs <;> rfl

/-- An integer of 64 bits is read as it is spelled. -/
theorem scanUnsigned_repr {gap : List Char} (hgap : IsGap gap) (n : UInt64) {rest : List Char}
    (h : EndsNumber rest) :
    scanUnsigned (gap ++ (n.toNat.repr.toList ++ rest)) = .ok (n, rest) := by
  rw [scanUnsigned_integer hgap n.toNat h, if_pos n.toNat_lt, UInt64.ofNat_toNat]

/-- What does not start with a digit is no unsigned number. -/
theorem scanUnsigned_of_head {gap : List Char} (hgap : IsGap gap) {c : Char}
    (hspace : isSpace c = false) (hdigit : c.isDigit = false) (rest : List Char) :
    scanUnsigned (gap ++ c :: rest) = .error (mismatch (c :: rest)) := by
  rw [scanUnsigned]
  simp only [skipSpace_append hgap, skipSpace_cons hspace, hdigit, Bool.false_eq_true, if_false]

/-- No other value is read in the place of an integer of 64 bits. -/
theorem scanUnsigned_refuses {gap t : List Char} {value : Json} (hgap : IsGap gap)
    (h : Spells t value) (hvalue : ∀ n : UInt64, value ≠ .nat n.toNat) {rest : List Char}
    (hrest : EndsNumber rest) : ∃ e, scanUnsigned (gap ++ (t ++ rest)) = .error e := by
  cases h with
  | null => exact ⟨_, scanUnsigned_of_head hgap (by decide) (by decide) _⟩
  | true => exact ⟨_, scanUnsigned_of_head hgap (by decide) (by decide) _⟩
  | false => exact ⟨_, scanUnsigned_of_head hgap (by decide) (by decide) _⟩
  | text _ => exact ⟨_, scanUnsigned_of_head hgap (by decide) (by decide) _⟩
  | empty _ => exact ⟨_, scanUnsigned_of_head hgap (by decide) (by decide) _⟩
  | array _ => exact ⟨_, scanUnsigned_of_head hgap (by decide) (by decide) _⟩
  | bare _ => exact ⟨_, scanUnsigned_of_head hgap (by decide) (by decide) _⟩
  | object _ => exact ⟨_, scanUnsigned_of_head hgap (by decide) (by decide) _⟩
  | int n =>
    cases n with
    | ofNat n =>
      have hlarge : ¬ n < UInt64.size := by
        intro hn
        apply hvalue (UInt64.ofNat n)
        rw [UInt64.toNat_ofNat_of_lt' hn]
        rfl
      exact ⟨_, (scanUnsigned_integer hgap n hrest).trans (if_neg hlarge)⟩
    | negSucc n =>
      rw [toList_repr_negSucc]
      exact ⟨_, scanUnsigned_of_head hgap (by decide) (by decide) _⟩

/-! ## Truth values -/

/-- What spells a truth value is read as it. -/
theorem scanBool_of_spells {gap t : List Char} {b : Bool} (hgap : IsGap gap)
    (h : Spells t (.bool b)) (rest : List Char) :
    scanBool (gap ++ (t ++ rest)) = .ok (b, rest) := by
  have hskip : skipSpace (gap ++ (t ++ rest)) = t ++ rest := by
    rw [skipSpace_append hgap]
    cases h <;> exact skipSpace_cons (by decide) _
  rw [scanBool, hskip]
  cases h <;> rfl

/-- What starts with neither `t` nor `f` is no truth value. -/
theorem scanBool_of_head {gap : List Char} (hgap : IsGap gap) {c : Char}
    (hspace : isSpace c = false) (ht : c ≠ 't') (hf : c ≠ 'f') (rest : List Char) :
    scanBool (gap ++ c :: rest) = .error (mismatch (c :: rest)) := by
  unfold scanBool
  simp only [skipSpace_append hgap, skipSpace_cons hspace]
  split
  · next heq => exact absurd (List.cons.inj heq).1 ht
  · next heq => exact absurd (List.cons.inj heq).1 hf
  · rfl

/-- No other value is read in the place of a truth value. -/
theorem scanBool_refuses {gap t : List Char} {value : Json} (hgap : IsGap gap)
    (h : Spells t value) (hvalue : ∀ b, value ≠ .bool b) (rest : List Char) :
    ∃ e, scanBool (gap ++ (t ++ rest)) = .error e := by
  cases h with
  | null => exact ⟨_, scanBool_of_head hgap (by decide) (by decide) (by decide) _⟩
  | true => exact absurd rfl (hvalue Bool.true)
  | false => exact absurd rfl (hvalue Bool.false)
  | text _ => exact ⟨_, scanBool_of_head hgap (by decide) (by decide) (by decide) _⟩
  | empty _ => exact ⟨_, scanBool_of_head hgap (by decide) (by decide) (by decide) _⟩
  | array _ => exact ⟨_, scanBool_of_head hgap (by decide) (by decide) (by decide) _⟩
  | bare _ => exact ⟨_, scanBool_of_head hgap (by decide) (by decide) (by decide) _⟩
  | object _ => exact ⟨_, scanBool_of_head hgap (by decide) (by decide) (by decide) _⟩
  | int n =>
    obtain ⟨c, digits, hrepr, hc⟩ := exists_head_repr n
    obtain ⟨hspace, -, -, ht, hf, -⟩ := ne_of_starts_number hc
    rw [hrepr]
    exact ⟨_, scanBool_of_head hgap hspace ht hf _⟩

/-! ## Members -/

/-- A member with what stands behind it, cut at its marks. -/
theorem exists_member {t : List Char} {key : String} {value : Json}
    (h : SpellsMember t (key, value)) (rest : List Char) :
    ∃ name gap front text back, SpellsText name key.toList ∧ IsGap gap ∧ IsGap front ∧
      Spells text value ∧ IsGap back ∧
      skipSpace (t ++ rest) =
        '"' :: (name ++ '"' :: (gap ++ ':' :: (front ++ (text ++ (back ++ rest))))) := by
  cases h with
  | @mk before name gap _ _ _ hbefore hname hgap helement =>
    cases helement with
    | @mk front text back _ hfront htext hback =>
      refine ⟨name, gap, front, text, back, hname, hgap, hfront, htext, hback, ?_⟩
      simp only [List.append_assoc, List.cons_append]
      rw [skipSpace_append hbefore, skipSpace_cons (by decide)]

/-- Behind a member of an object comes a comma and more members, or the closing brace. -/
theorem spellsMembers_cons {t : List Char} {member : String × Json}
    {members : List (String × Json)} (h : SpellsMembers t (member :: members)) :
    ∃ first, SpellsMember first member ∧
      ((members = [] ∧ t = first) ∨
        ∃ rest, SpellsMembers rest members ∧ t = first ++ ',' :: rest) := by
  cases h with
  | one h => exact ⟨t, h, .inl ⟨rfl, rfl⟩⟩
  | more h hrest => exact ⟨_, h, .inr ⟨_, hrest, rfl⟩⟩

/-- There are no more members than characters that spell them. -/
theorem length_le_of_spellsMembers {t : List Char} {members : List (String × Json)}
    (h : SpellsMembers t members) : members.length ≤ t.length := by
  induction members generalizing t with
  | nil => exact Nat.zero_le _
  | cons member more ih =>
    obtain ⟨first, hfirst, ⟨rfl, rfl⟩ | ⟨rest, hrest, rfl⟩⟩ := spellsMembers_cons h
    · cases hfirst
      simp only [List.length_cons, List.length_append, List.length_nil]
      omega
    · have hlength := ih hrest
      simp only [List.length_cons, List.length_append]
      omega

/-- An object with what stands around it, cut at its braces. -/
theorem exists_object {t : List Char} {members : List (String × Json)}
    (h : SpellsElement t (.object members)) :
    ∃ front inner back, IsGap front ∧ IsGap back ∧
      ((members = [] ∧ IsGap inner) ∨ SpellsMembers inner members) ∧
      t = front ++ '\x7b' :: (inner ++ '\x7d' :: back) := by
  cases h with
  | @mk front t back _ hfront ht hback =>
    cases ht with
    | @bare gap hgap => exact ⟨front, gap, back, hfront, hback, .inl ⟨rfl, hgap⟩, by simp⟩
    | @object inner _ hinner => exact ⟨front, inner, back, hfront, hback, .inr hinner, by simp⟩

end TernaryMachine.Json
