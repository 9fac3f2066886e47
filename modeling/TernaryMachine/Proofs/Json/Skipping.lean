import Mathlib.Data.List.DropRight
import TernaryMachine.Proofs.Json.Reading

/-!
# Passing over JSON text

A value that nobody asks for is passed over from its first character to its last, whatever it is
(`skipValue_spelled`).  Passing over text counts its moves.  A value takes three moves for each of
its characters at most (`Passed`), which is what `skipValue` allows it.
-/

set_option autoImplicit false

namespace TernaryMachine.Json

/-! ## Strings and numbers -/

/-- A spelling of a code unit is passed over without regard to surrogates. -/
theorem scanPiece_escape {digits : List Char} {n : Nat} (h : SpellsUnit digits n)
    (rest : List Char) :
    scanPiece false ('\\' :: 'u' :: (digits ++ rest)) = .ok (some 'u', rest) := by
  rw [scanPiece, if_neg (by decide), scanHex_of_spells h]
  rfl

/-- A piece that is read is the first of those that are. -/
theorem scanPieces_of_piece {s rest more left : List Char} {c : Char} {bound : Nat}
    (hpiece : scanPiece false s = .ok (some c, rest))
    (hmore : scanPieces false bound rest = .ok (more, left)) :
    scanPieces false (bound + 1) s = .ok (c :: more, left) := by
  simp only [scanPieces, hpiece, hmore]
  rfl

/-- The spelling of a character is passed over in front of anything that is, in no more pieces
than it has characters. -/
theorem exists_scanPieces_append {t : List Char} {c : Char} (h : SpellsChar t c) :
    ∃ front : List Char, front.length ≤ t.length ∧ ∀ {bound : Nat} {s more left : List Char},
      scanPieces false bound s = .ok (more, left) →
      scanPieces false (bound + front.length) (t ++ s) = .ok (front ++ more, left) := by
  cases h with
  | plain hquote hslash hcontrol =>
    refine ⟨[c], Nat.le_refl 1, ?_⟩
    intro bound s more left hmore
    exact scanPieces_of_piece (scanPiece_plain false hquote hslash hcontrol s) hmore
  | short h =>
    refine ⟨[c], Nat.le_succ 1, ?_⟩
    intro bound s more left hmore
    exact scanPieces_of_piece (scanPiece_short false h s) hmore
  | unit h _ =>
    refine ⟨['u'], ?_, ?_⟩
    · simp only [List.length_cons, List.length_nil]
      omega
    · intro bound s more left hmore
      exact scanPieces_of_piece (scanPiece_escape h s) hmore
  | pair h h' _ _ =>
    refine ⟨['u', 'u'], ?_, ?_⟩
    · simp only [List.length_append, List.length_cons, List.length_nil]
      omega
    · intro bound s more left hmore
      have hlow := scanPieces_of_piece (scanPiece_escape h' s) hmore
      rw [List.append_assoc]
      exact scanPieces_of_piece (scanPiece_escape h _) hlow

/-- The characters of a string are passed over, in no more pieces than they are. -/
theorem exists_scanPieces {t s : List Char} (h : SpellsText t s) (rest : List Char) :
    ∃ letters : List Char, letters.length ≤ t.length ∧ ∀ bound,
      scanPieces false (bound + 1 + letters.length) (t ++ '"' :: rest) = .ok (letters, rest) := by
  induction h with
  | nil => exact ⟨[], Nat.le_refl 0, fun _ => rfl⟩
  | @cons t more s c hc _ ih =>
    obtain ⟨letters, hletters, hscan⟩ := ih
    obtain ⟨front, hfront, happend⟩ := exists_scanPieces_append hc
    refine ⟨front ++ letters, ?_, ?_⟩
    · rw [List.length_append, List.length_append]
      omega
    · intro bound
      rw [List.length_append, Nat.add_comm front.length, ← Nat.add_assoc, List.append_assoc]
      exact happend (hscan bound)

/-- A string is passed over up to its closing quote. -/
theorem exists_scanText {t s : List Char} (h : SpellsText t s) (rest : List Char) :
    ∃ letters, scanText false (t ++ '"' :: rest) = .ok (letters, rest) := by
  obtain ⟨letters, hletters, hscan⟩ := exists_scanPieces h rest
  refine ⟨letters, ?_⟩
  have hbound : (t ++ '"' :: rest).length + 1 =
      (t.length - letters.length + rest.length + 1) + 1 + letters.length := by
    rw [List.length_append, List.length_cons]
    omega
  rw [scanText, hbound]
  exact hscan _

/-! ## Values without parts -/

/-- An integer is passed over up to what ends it. -/
theorem exists_scanNumber (atEnd : ScanError) (n : Int) {rest : List Char} (h : EndsNumber rest) :
    ∃ number, scanNumber atEnd (n.repr.toList ++ rest) = .ok (number, rest) := by
  cases n with
  | ofNat n => exact ⟨_, scanNumber_repr atEnd n h⟩
  | negSucc n =>
    rw [toList_repr_negSucc]
    exact ⟨_, scanNumber_minus atEnd (n + 1) h⟩

/-- A number that can be read is passed over. -/
theorem skipScalar_number {c : Char} {s rest : List Char} (hc : c = '-' ∨ c.isDigit = true)
    {number : NumberText} (h : scanNumber .malformed (c :: s) = .ok (number, rest)) :
    skipScalar (c :: s) = .ok rest := by
  obtain ⟨-, -, hn, ht, hf, hquote⟩ := ne_of_starts_number hc
  unfold skipScalar
  split
  · next heq => cases heq
  · next heq => exact absurd (List.cons.inj heq).1 hn
  · next heq => exact absurd (List.cons.inj heq).1 ht
  · next heq => exact absurd (List.cons.inj heq).1 hf
  · next heq => exact absurd (List.cons.inj heq).1 hquote
  · next heq =>
    obtain ⟨rfl, rfl⟩ := List.cons.inj heq
    rw [if_pos hc, h]
    rfl

/-- Whether a value has no parts. -/
def IsScalar : Json → Prop
  | .array _ | .object _ => False
  | _ => True

/-- A value without parts starts with none of the marks and is passed over. -/
theorem skipScalar_spelled {t : List Char} {value : Json} (hvalue : IsScalar value)
    (h : Spells t value) {rest : List Char} (hrest : EndsNumber rest) :
    ∃ c more, t = c :: more ∧ isSpace c = false ∧ (c ≠ '[' ∧ c ≠ ']' ∧ c ≠ '\x7b' ∧ c ≠ '\x7d') ∧
      skipScalar (t ++ rest) = .ok rest := by
  cases h with
  | null => exact ⟨_, _, rfl, by decide, by decide, rfl⟩
  | true => exact ⟨_, _, rfl, by decide, by decide, rfl⟩
  | false => exact ⟨_, _, rfl, by decide, by decide, rfl⟩
  | @text t s h =>
    obtain ⟨letters, hscan⟩ := exists_scanText h rest
    refine ⟨_, _, rfl, by decide, by decide, ?_⟩
    show (scanText false (t ++ ['"'] ++ rest)).map _ = _
    rw [List.append_assoc, List.singleton_append, hscan]
    rfl
  | int n =>
    obtain ⟨c, digits, hrepr, hc⟩ := exists_head_repr n
    obtain ⟨number, hscan⟩ := exists_scanNumber .malformed n hrest
    rw [hrepr] at hscan ⊢
    obtain ⟨hspace, hmarks, -⟩ := ne_of_starts_number hc
    exact ⟨c, digits, rfl, hspace, hmarks, skipScalar_number hc hscan⟩
  | empty _ => exact hvalue.elim
  | array _ => exact hvalue.elim
  | bare _ => exact hvalue.elim
  | object _ => exact hvalue.elim

/-! ## Moves -/

/-- Behind a gap that was passed over there is no other. -/
theorem skipSpace_skipSpace (s : List Char) : skipSpace (skipSpace s) = skipSpace s :=
  List.dropWhile_idempotent _ s

/-- A gap makes no difference to the key behind it. -/
theorem skipKey_skipSpace (s : List Char) : skipKey (skipSpace s) = skipKey s := by
  simp only [skipKey, skipSpace_skipSpace]

/-- A gap makes no difference to the value behind it. -/
theorem skipWithin_skipSpace (closing : List Char) (bound : Nat) (s : List Char) :
    skipWithin closing bound (skipSpace s) = skipWithin closing bound s := by
  cases bound with
  | zero => rfl
  | succ bound => simp only [skipWithin, skipSpace_skipSpace]

/-- A gap makes no difference to the element or member behind it. -/
theorem skipOpened_skipSpace (close : Char) (closing : List Char) (bound : Nat) (s : List Char) :
    skipOpened close closing bound (skipSpace s) = skipOpened close closing bound s := by
  cases bound with
  | zero => rfl
  | succ bound => simp only [skipOpened, skipKey_skipSpace, skipWithin_skipSpace]

/-- A value that is passed over, with spaces in front of it, in three moves for each of its
characters at most. -/
def Passed (t : List Char) : Prop :=
  ∃ moves ≤ 3 * t.length, ∀ {gap rest : List Char} (closing : List Char) (bound : Nat),
    IsGap gap → EndsNumber rest →
    skipWithin closing (bound + moves) (gap ++ (t ++ rest)) = skipBehind closing bound rest

/-- Parts that are passed over together with the bracket that closes them; `close` is that
bracket. -/
def PassedOpen (close : Char) (t : List Char) : Prop :=
  ∃ moves ≤ 3 * t.length + 2, ∀ (closing : List Char) (bound : Nat) (rest : List Char),
    skipOpened close closing (bound + moves) (t ++ close :: rest) = skipBehind closing bound rest

/-- The brackets that open and close a value with parts. -/
inductive Brackets : Char → Char → Prop where
  | array : Brackets '[' ']'
  | object : Brackets '\x7b' '\x7d'

section

variable {gap rest closing : List Char} {opening close : Char} {bound : Nat}

/-- Behind a comma, the bracket that is open goes on. -/
theorem skipBehind_comma (hgap : IsGap gap) :
    skipBehind (close :: closing) (bound + 1) (gap ++ ',' :: rest) =
      skipOpened close closing bound rest := by
  rw [skipBehind, skipSpace_append hgap, skipSpace_cons (by decide)]
  rfl

/-- The bracket that is open is closed. -/
theorem skipBehind_close (hbrackets : Brackets opening close) (hgap : IsGap gap) :
    skipBehind (close :: closing) (bound + 1) (gap ++ close :: rest) =
      skipBehind closing bound rest := by
  cases hbrackets <;>
  · rw [skipBehind, skipSpace_append hgap, skipSpace_cons (by decide)]
    exact if_pos rfl

/-- Brackets with nothing between them are passed over at once. -/
theorem skipWithin_nil (hbrackets : Brackets opening close) (hgap : IsGap gap)
    {inner : List Char} (hinner : IsGap inner) :
    skipWithin closing (bound + 1) (gap ++ opening :: (inner ++ close :: rest)) =
      skipBehind closing bound rest := by
  cases hbrackets <;>
  · rw [skipWithin, skipSpace_append hgap, skipSpace_cons (by decide)]
    simp only [skipSpace_append hinner]
    rw [skipSpace_cons (by decide)]
    rfl

/-- A bracket with anything but its closing one behind it is open. -/
theorem skipWithin_opening (hbrackets : Brackets opening close) (hgap : IsGap gap)
    {s more : List Char} {c : Char} (hhead : skipSpace s = c :: more) (hc : c ≠ close) :
    skipWithin closing (bound + 1) (gap ++ opening :: s) = skipOpened close closing bound s := by
  cases hbrackets <;>
  · rw [skipWithin, skipSpace_append hgap, skipSpace_cons (by decide)]
    simp only [hhead]
    rw [← skipOpened_skipSpace, hhead]
    split
    · next heq => exact absurd (List.cons.inj heq).1 hc
    · rfl

/-- A value without parts is passed over at once. -/
theorem skipWithin_scalar (hgap : IsGap gap) {s : List Char} {c : Char}
    (hspace : isSpace c = false) (harray : c ≠ '[') (hobject : c ≠ '\x7b')
    (hskip : skipScalar (c :: s) = .ok rest) :
    skipWithin closing (bound + 1) (gap ++ c :: s) = skipBehind closing bound rest := by
  rw [skipWithin, skipSpace_append hgap, skipSpace_cons hspace]
  split
  · next heq => exact absurd (List.cons.inj heq).1 harray
  · next heq => exact absurd (List.cons.inj heq).1 hobject
  · rw [hskip]

/-- The name of a member is passed over with its colon. -/
theorem skipKey_spelled (hgap : IsGap gap) {name key between : List Char}
    (hname : SpellsText name key) (hbetween : IsGap between) :
    skipKey (gap ++ '"' :: (name ++ '"' :: (between ++ ':' :: rest))) = .ok rest := by
  obtain ⟨letters, hscan⟩ := exists_scanText hname (between ++ ':' :: rest)
  rw [skipKey, skipSpace_append hgap, skipSpace_cons (by decide)]
  simp only [hscan, skipSpace_append hbetween, skipSpace_cons (c := ':') (by decide)]

/-- In an array, a value comes next. -/
theorem skipOpened_array {s : List Char} :
    skipOpened ']' closing (bound + 1) s = skipWithin (']' :: closing) bound s := by
  rw [skipOpened, if_neg (by decide)]

/-- In an object, a value comes next behind the key. -/
theorem skipOpened_object {s left : List Char} (hkey : skipKey s = .ok left) :
    skipOpened '\x7d' closing (bound + 1) s = skipWithin ('\x7d' :: closing) bound left := by
  rw [skipOpened, if_pos rfl, hkey]

end

/-! ## Values -/

/-- The text of a value starts with no space and no closing bracket. -/
theorem exists_head_of_spells {t : List Char} {value : Json} (h : Spells t value) :
    ∃ c more, t = c :: more ∧ isSpace c = false ∧ c ≠ ']' := by
  cases h with
  | null => exact ⟨_, _, rfl, by decide, by decide⟩
  | true => exact ⟨_, _, rfl, by decide, by decide⟩
  | false => exact ⟨_, _, rfl, by decide, by decide⟩
  | text _ => exact ⟨_, _, rfl, by decide, by decide⟩
  | empty _ => exact ⟨_, _, rfl, by decide, by decide⟩
  | array _ => exact ⟨_, _, rfl, by decide, by decide⟩
  | bare _ => exact ⟨_, _, rfl, by decide, by decide⟩
  | object _ => exact ⟨_, _, rfl, by decide, by decide⟩
  | int n =>
    obtain ⟨c, digits, hrepr, hc⟩ := exists_head_repr n
    obtain ⟨hspace, ⟨-, hclose, -⟩, -⟩ := ne_of_starts_number hc
    exact ⟨c, digits, hrepr, hspace, hclose⟩

/-- A value without parts is passed over wherever it stands. -/
theorem passed_scalar {t : List Char} {value : Json} (h : Spells t value)
    (hvalue : IsScalar value) : Passed t := by
  obtain ⟨c, more, rfl, -⟩ := exists_head_of_spells h
  refine ⟨1, ?_, ?_⟩
  · rw [List.length_cons]
    omega
  · intro gap rest closing bound hgap hrest
    obtain ⟨c', more', heq, hspace, ⟨harray, -, hobject, -⟩, hskip⟩ :=
      skipScalar_spelled hvalue h hrest
    obtain ⟨rfl, rfl⟩ := List.cons.inj heq
    exact skipWithin_scalar hgap hspace harray hobject hskip

/-! ## Parts -/

/-- A part behind a bracket or a comma, which is passed over once the value `v` in it is. -/
def OpensTo (close : Char) (t v : List Char) : Prop :=
  ∃ front back, IsGap front ∧ IsGap back ∧ v.length ≤ t.length ∧
    ∀ (closing : List Char) (bound : Nat) (s : List Char),
      skipOpened close closing (bound + 1) (t ++ s) =
        skipWithin (close :: closing) bound (front ++ (v ++ (back ++ s)))

section

variable {opening close : Char} {t v : List Char}

/-- The element of an array opens to its value. -/
theorem opensTo_element {value : Json} (h : SpellsElement t value) :
    ∃ v, Spells v value ∧ OpensTo ']' t v := by
  cases h with
  | @mk front v back _ hfront hv hback =>
    refine ⟨v, hv, front, back, hfront, hback, ?_, ?_⟩
    · simp only [List.length_append]
      omega
    · intro closing bound s
      simp only [List.append_assoc]
      exact skipOpened_array

/-- The member of an object opens to its value. -/
theorem opensTo_member {key : String} {value : Json} (h : SpellsMember t (key, value)) :
    ∃ v, Spells v value ∧ OpensTo '\x7d' t v := by
  cases h with
  | mk hbefore hname hbetween helement =>
    cases helement with
    | @mk front v back _ hfront hv hback =>
      refine ⟨v, hv, front, back, hfront, hback, ?_, ?_⟩
      · simp only [List.length_append, List.length_cons]
        omega
      · intro closing bound s
        apply skipOpened_object
        simp only [List.append_assoc, List.cons_append]
        exact skipKey_spelled hbefore hname hbetween

/-- The last part is passed over with the bracket behind it. -/
theorem OpensTo.last (h : OpensTo close t v) (hv : Passed v)
    (hbrackets : Brackets opening close) : PassedOpen close t := by
  obtain ⟨front, back, hfront, hback, hlength, hopen⟩ := h
  obtain ⟨moves, hmoves, hpass⟩ := hv
  refine ⟨moves + 2, by omega, ?_⟩
  intro closing bound rest
  have hclose : close = ']' ∨ close = '\x7d' := by
    cases hbrackets
    · exact .inl rfl
    · exact .inr rfl
  have hends : EndsNumber (back ++ close :: rest) :=
    endsNumber_append hback (endsNumber_mark (.inr hclose) rest)
  have hbound : bound + (moves + 2) = bound + 1 + moves + 1 := by omega
  rw [hbound, hopen, hpass _ _ hfront hends, skipBehind_close hbrackets hback]

/-- A part with a comma behind it is passed over with the parts that follow. -/
theorem OpensTo.more (h : OpensTo close t v) (hv : Passed v) {rest : List Char}
    (hrest : PassedOpen close rest) : PassedOpen close (t ++ ',' :: rest) := by
  obtain ⟨front, back, hfront, hback, hlength, hopen⟩ := h
  obtain ⟨moves, hmoves, hpass⟩ := hv
  obtain ⟨more, hmore, hpass'⟩ := hrest
  refine ⟨moves + 2 + more, ?_, ?_⟩
  · rw [List.length_append, List.length_cons]
    omega
  · intro closing bound left
    have hends : EndsNumber (back ++ ',' :: (rest ++ close :: left)) :=
      endsNumber_append hback (endsNumber_mark (.inl rfl) _)
    have hbound : bound + (moves + 2 + more) = bound + more + 1 + moves + 1 := by omega
    rw [hbound, List.append_assoc, List.cons_append, hopen, hpass _ _ hfront hends,
      skipBehind_comma hback, hpass']

/-- Brackets with parts between them are passed over if the parts are. -/
theorem passed_block (hbrackets : Brackets opening close) (hinner : PassedOpen close t)
    (hhead : ∀ s, ∃ c more, skipSpace (t ++ s) = c :: more ∧ c ≠ close) :
    Passed (opening :: t ++ [close]) := by
  obtain ⟨moves, hmoves, hpass⟩ := hinner
  refine ⟨moves + 1, ?_, ?_⟩
  · simp only [List.length_append, List.length_cons, List.length_nil]
    omega
  · intro gap rest closing bound hgap _
    obtain ⟨c, more, hskip, hc⟩ := hhead (close :: rest)
    rw [← Nat.add_assoc, List.append_assoc, List.cons_append, List.singleton_append,
      skipWithin_opening hbrackets hgap hskip hc, hpass]

/-- Brackets with nothing but spaces between them are passed over. -/
theorem passed_empty (hbrackets : Brackets opening close) (hinner : IsGap t) :
    Passed (opening :: t ++ [close]) := by
  refine ⟨1, ?_, ?_⟩
  · simp only [List.length_append, List.length_cons, List.length_nil]
    omega
  · intro gap rest closing bound hgap _
    rw [List.append_assoc, List.cons_append, List.singleton_append,
      skipWithin_nil hbrackets hgap hinner]

end

/-! ## Every value -/

/-- An element starts with no closing bracket. -/
theorem exists_head_of_spellsElement {t : List Char} {value : Json} (h : SpellsElement t value)
    (s : List Char) : ∃ c more, skipSpace (t ++ s) = c :: more ∧ c ≠ ']' := by
  cases h with
  | @mk front _ back _ hfront hv _ =>
    obtain ⟨c, more, rfl, hspace, hc⟩ := exists_head_of_spells hv
    refine ⟨c, more ++ (back ++ s), ?_, hc⟩
    rw [List.append_assoc, List.append_assoc, skipSpace_append hfront, List.cons_append,
      skipSpace_cons hspace]

/-- Elements start with no closing bracket. -/
theorem exists_head_of_spellsItems {t : List Char} {items : List Json} (h : SpellsItems t items)
    (s : List Char) : ∃ c more, skipSpace (t ++ s) = c :: more ∧ c ≠ ']' := by
  cases h with
  | one h => exact exists_head_of_spellsElement h s
  | more h _ =>
    rw [List.append_assoc]
    exact exists_head_of_spellsElement h _

/-- A member starts with a quote, and so with no closing brace. -/
theorem exists_head_of_spellsMember {t : List Char} {member : String × Json}
    (h : SpellsMember t member) (s : List Char) :
    ∃ c more, skipSpace (t ++ s) = c :: more ∧ c ≠ '\x7d' := by
  obtain ⟨key, value⟩ := member
  obtain ⟨name, gap, front, text, back, -, -, -, -, -, hskip⟩ := exists_member h s
  exact ⟨_, _, hskip, by decide⟩

/-- Members start with no closing brace. -/
theorem exists_head_of_spellsMembers {t : List Char} {members : List (String × Json)}
    (h : SpellsMembers t members) (s : List Char) :
    ∃ c more, skipSpace (t ++ s) = c :: more ∧ c ≠ '\x7d' := by
  cases h with
  | one h => exact exists_head_of_spellsMember h s
  | more h _ =>
    rw [List.append_assoc]
    exact exists_head_of_spellsMember h _

mutual

/-- Every value is passed over. -/
theorem passed_of_spells : (value : Json) → {t : List Char} → Spells t value → Passed t
  | .null, _, h => passed_scalar h trivial
  | .bool _, _, h => passed_scalar h trivial
  | .int _, _, h => passed_scalar h trivial
  | .text _, _, h => passed_scalar h trivial
  | .array items, _, h => by
    cases h with
    | empty hgap => exact passed_empty .array hgap
    | array h =>
      exact passed_block .array (passedOpen_of_spellsItems items h) (exists_head_of_spellsItems h)
  | .object members, _, h => by
    cases h with
    | bare hgap => exact passed_empty .object hgap
    | object h =>
      exact passed_block .object (passedOpen_of_spellsMembers members h)
        (exists_head_of_spellsMembers h)

/-- The elements of an array are passed over. -/
theorem passedOpen_of_spellsItems : (items : List Json) → {t : List Char} →
    SpellsItems t items → PassedOpen ']' t
  | [], _, h => nomatch h
  | value :: rest, _, h => by
    cases h with
    | one h =>
      obtain ⟨v, hv, hopen⟩ := opensTo_element h
      exact hopen.last (passed_of_spells value hv) .array
    | more h hrest =>
      obtain ⟨v, hv, hopen⟩ := opensTo_element h
      exact hopen.more (passed_of_spells value hv) (passedOpen_of_spellsItems rest hrest)

/-- The members of an object are passed over. -/
theorem passedOpen_of_spellsMembers : (members : List (String × Json)) → {t : List Char} →
    SpellsMembers t members → PassedOpen '\x7d' t
  | [], _, h => nomatch h
  | (_, value) :: rest, _, h => by
    cases h with
    | one h =>
      obtain ⟨v, hv, hopen⟩ := opensTo_member h
      exact hopen.last (passed_of_spells value hv) .object
    | more h hrest =>
      obtain ⟨v, hv, hopen⟩ := opensTo_member h
      exact hopen.more (passed_of_spells value hv) (passedOpen_of_spellsMembers rest hrest)

end

/-- Every value is passed over from its first character to its last. -/
theorem skipValue_spelled {gap t rest : List Char} {value : Json} (hgap : IsGap gap)
    (h : Spells t value) (hrest : EndsNumber rest) :
    skipValue (gap ++ (t ++ rest)) = .ok rest := by
  obtain ⟨moves, hmoves, hpass⟩ := passed_of_spells value h
  have hbound : 3 * (gap ++ (t ++ rest)).length + 3 =
      3 * (gap.length + t.length + rest.length) - moves + 2 + 1 + moves := by
    simp only [List.length_append]
    omega
  rw [skipValue, hbound, hpass _ _ hgap hrest]
  rfl

end TernaryMachine.Json
