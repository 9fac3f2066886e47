import TernaryMachine.Expression.Condition
import TernaryMachine.Proofs.Text.LetterCase
import TernaryMachine.Proofs.Text.Words

/-!
# The two sides of a condition

What a text spells on either side of an operator, as rules and without regard to how it is read: a
probe in front (`Probe.Spells`), whose letters may be small or capitals, and a word behind
(`Expression.SpellsValue`).  Both are read just as the rules say, and what spells neither is refused
for what is wrong with it: `Probe.parse_eq_ok_iff`, `Probe.parse_eq_error_iff`,
`Expression.parseValue_eq_ok_iff` and `Expression.parseValue_eq_error_iff`.
-/

set_option autoImplicit false

namespace TernaryMachine

/-! ## Small letters -/

namespace Text

/-- A letter's small form is the letter itself or, for an ASCII capital, stands 32 code points
behind. -/
theorem toLower_cases (c : Char) :
    c.toLower = c ∨ 65 ≤ c.toNat ∧ c.toNat ≤ 90 ∧ c.toLower.toNat = c.toNat + 32 := by
  unfold Char.toLower
  split
  · next hcapital =>
    obtain ⟨hlo, hhi⟩ := hcapital
    have hlo' : 65 ≤ c.toNat := hlo
    have hhi' : c.toNat ≤ 90 := hhi
    refine .inr ⟨hlo', hhi', ?_⟩
    show (c.val + 32).toNat = c.val.toNat + 32
    rw [UInt32.toNat_add]
    exact Nat.mod_eq_of_lt (by show c.toNat + 32 < _; omega)
  · exact .inl rfl

/-- What stands before the letters is its own small form. -/
theorem toLower_of_lt {c : Char} (h : c.toNat < 65) : c.toLower = c := by
  rcases toLower_cases c with hself | ⟨hlo, -, -⟩
  · exact hself
  · omega

/-- What has a small form before the small letters is its own small form. -/
theorem toLower_of_toLower_lt {c : Char} (h : c.toLower.toNat < 97) : c.toLower = c := by
  rcases toLower_cases c with hself | ⟨hlo, -, hlower⟩
  · exact hself
  · omega

/-- A character is a blank just when its small form is one. -/
theorem isBlank_toLower (c : Char) : isBlank c.toLower = isBlank c := by
  rcases toLower_cases c with hself | ⟨hlo, hhi, hlower⟩
  · rw [hself]
  · have hcapital : c.isAlpha = true := isAlpha_iff.2 (.inl ⟨hlo, hhi⟩)
    have hsmall : c.toLower.isAlpha = true := isAlpha_iff.2 (.inr (by omega))
    rw [isBlank_of_isAlpha hcapital, isBlank_of_isAlpha hsmall]

/-- Trimming goes with small letters. -/
theorem trim_map_toLower (s : List Char) :
    trim (s.map Char.toLower) = (trim s).map Char.toLower := by
  have hblank : isBlank ∘ Char.toLower = isBlank := funext isBlank_toLower
  simp only [trim, trimStart, trimEnd, List.dropWhile_map, hblank, ← List.map_reverse]

/-- Whether letters are small makes no difference to a number. -/
theorem spellsUnsigned_map_toLower {s : List Char} {n : Nat} :
    SpellsUnsigned (s.map Char.toLower) n ↔ SpellsUnsigned s n := by
  have hsmall : ∀ c : Char, c.isDigit = true ∨ c = '+' → c.toNat < 65 := by
    rintro c (hdigit | rfl)
    · obtain ⟨-, hhi⟩ := toNat_of_isDigit hdigit
      omega
    · decide
  have hself : (∀ c ∈ s, c.toLower = c) → s.map Char.toLower = s := fun h =>
    (List.map_congr_left h).trans (List.map_id s)
  constructor
  · intro h
    rwa [hself] at h
    intro c hc
    have hlower := hsmall _ (h.isDigit_or_plus (List.mem_map_of_mem hc))
    exact toLower_of_toLower_lt (by omega)
  · intro h
    rwa [hself]
    intro c hc
    exact toLower_of_lt (hsmall c (h.isDigit_or_plus hc))

end Text

/-! ## Probes -/

namespace Probe

/-- A text without the blanks around it is `mem`, in small letters or capitals, with something in
square brackets. -/
def Brackets (s inner : List Char) : Prop :=
  ∃ opening, opening.map Char.toLower = "mem[".toList ∧ Text.trim s = opening ++ inner ++ [']']

/-- A text spells a probe. -/
inductive Spells : List Char → Probe → Prop where
  | accumulator {s : List Char} (htext : (Text.trim s).map Char.toLower = "acc".toList) :
      Spells s .accumulator
  | memory {s inner : List Char} {address : UInt64} (htext : Brackets s inner)
      (hinner : Text.SpellsUnsigned (Text.trim inner) address.toNat) : Spells s (.memory address)

/-- What is wrong with a text that spells no probe. -/
inductive Misspells : List Char → ExpressionError → Prop where
  | location {s : List Char} (hacc : (Text.trim s).map Char.toLower ≠ "acc".toList)
      (hmem : ∀ inner, ¬ Brackets s inner) :
      Misspells s (.unknownLocation (String.ofList (Text.trim s)))
  | address {s inner : List Char} (htext : Brackets s inner)
      (hinner : ∀ address : UInt64, ¬ Text.SpellsUnsigned (Text.trim inner) address.toNat) :
      Misspells s (.badAddress (String.ofList ((Text.trim inner).map Char.toLower)))

/-- The reader takes off the word `mem` with its brackets, and nothing else. -/
theorem bracketed?_eq_some_iff {s inner : List Char} :
    bracketed? s = some inner ↔ s = "mem[".toList ++ inner ++ [']'] := by
  unfold bracketed?
  constructor
  · intro h
    dsimp only at h
    split at h
    · next hparts =>
      obtain ⟨hopening, hclosing⟩ := hparts
      obtain ⟨rest, rfl⟩ := List.isPrefixOf_iff_prefix.1 hopening
      rw [List.drop_left] at h hclosing
      obtain ⟨front, rfl⟩ := List.getLast?_eq_some_iff.1 hclosing
      rw [List.dropLast_concat] at h
      rw [Option.some.inj h, List.append_assoc]
    · cases h
  · rintro rfl
    rw [List.append_assoc]
    simp

/-- In small letters, brackets are found just where the grammar has them. -/
theorem bracketed?_map_toLower {s lowered : List Char} :
    bracketed? ((Text.trim s).map Char.toLower) = some lowered ↔
      ∃ inner, Brackets s inner ∧ inner.map Char.toLower = lowered := by
  rw [bracketed?_eq_some_iff]
  constructor
  · intro h
    obtain ⟨front, last, htext, hfront, hlast⟩ := List.map_eq_append_iff.1 h
    obtain ⟨opening, inner, rfl, hopening, hinner⟩ := List.map_eq_append_iff.1 hfront
    obtain ⟨c, rest, rfl, hc, hrest⟩ := List.map_eq_cons_iff.1 hlast
    obtain rfl := List.map_eq_nil_iff.1 hrest
    -- The closing bracket is no letter, so it was a bracket before the letters were made small.
    have hself : c.toLower = c := Text.toLower_of_toLower_lt (by rw [hc]; decide)
    rw [hself] at hc
    exact ⟨inner, ⟨opening, hopening, by rw [htext, hc]⟩, hinner⟩
  · rintro ⟨inner, ⟨opening, hopening, htext⟩, rfl⟩
    rw [htext, List.map_append, List.map_append, hopening]
    rfl

/-- A text in brackets is not the accumulator's name. -/
theorem Brackets.ne_acc {s inner : List Char} (h : Brackets s inner) :
    (Text.trim s).map Char.toLower ≠ "acc".toList := by
  obtain ⟨opening, hopening, htext⟩ := h
  intro hacc
  have hlength := congrArg List.length hacc
  rw [htext, List.append_assoc, List.map_append, hopening, List.length_append] at hlength
  have hshort : "acc".toList.length < "mem[".toList.length := by decide
  omega

/-- A text in brackets is a probe into memory when an address stands in them, and else a bad
address. -/
theorem parse_of_brackets {s inner : List Char} (h : Brackets s inner) :
    parse s =
      match Text.readUnsigned? ((Text.trim inner).map Char.toLower) with
      | none => .error (.badAddress (String.ofList ((Text.trim inner).map Char.toLower)))
      | some address => .ok (.memory address) := by
  have hbracketed : bracketed? ((Text.trim s).map Char.toLower) = some (inner.map Char.toLower) :=
    bracketed?_map_toLower.2 ⟨inner, h, rfl⟩
  cases hread : Text.readUnsigned? ((Text.trim inner).map Char.toLower) <;>
    simp only [parse, if_neg h.ne_acc, hbracketed, Text.trim_map_toLower, hread]

/-- A text that is neither the accumulator's name nor in brackets is an unknown location. -/
theorem parse_of_no_brackets {s : List Char}
    (hacc : (Text.trim s).map Char.toLower ≠ "acc".toList) (hmem : ∀ inner, ¬ Brackets s inner) :
    parse s = .error (.unknownLocation (String.ofList (Text.trim s))) := by
  have hbracketed : bracketed? ((Text.trim s).map Char.toLower) = none := by
    rw [Option.eq_none_iff_forall_ne_some]
    intro lowered h
    obtain ⟨inner, hinner, -⟩ := bracketed?_map_toLower.1 h
    exact hmem inner hinner
  simp only [parse, if_neg hacc, hbracketed]

/-- An address in small letters is read as the text spells it. -/
theorem readUnsigned?_toLower {s : List Char} {address : UInt64} :
    Text.readUnsigned? (s.map Char.toLower) = some address ↔
      Text.SpellsUnsigned s address.toNat := by
  rw [Text.readUnsigned?_eq_some_iff, Text.spellsUnsigned_map_toLower]

/-- A probe is read just when it is spelled. -/
theorem parse_eq_ok_iff {s : List Char} {probe : Probe} :
    parse s = .ok probe ↔ Spells s probe := by
  constructor
  · intro h
    by_cases hacc : (Text.trim s).map Char.toLower = "acc".toList
    · simp only [parse, if_pos hacc] at h
      cases h
      exact .accumulator hacc
    · by_cases hmem : ∃ inner, Brackets s inner
      · obtain ⟨inner, hinner⟩ := hmem
        rw [parse_of_brackets hinner] at h
        split at h
        · cases h
        · next address hread =>
          cases h
          exact .memory hinner (readUnsigned?_toLower.1 hread)
      · rw [parse_of_no_brackets hacc (not_exists.1 hmem)] at h
        cases h
  · rintro (hacc | ⟨htext, hinner⟩)
    · simp only [parse, if_pos hacc]
    · rw [parse_of_brackets htext, readUnsigned?_toLower.2 hinner]

/-- A text that names no probe is refused for what is wrong with it. -/
theorem parse_eq_error_iff {s : List Char} {e : ExpressionError} :
    parse s = .error e ↔ Misspells s e := by
  constructor
  · intro h
    by_cases hacc : (Text.trim s).map Char.toLower = "acc".toList
    · simp only [parse, if_pos hacc] at h
      cases h
    · by_cases hmem : ∃ inner, Brackets s inner
      · obtain ⟨inner, hinner⟩ := hmem
        rw [parse_of_brackets hinner] at h
        split at h
        · next hread =>
          cases h
          refine .address hinner fun address haddress => ?_
          rw [readUnsigned?_toLower.2 haddress] at hread
          cases hread
        · cases h
      · rw [parse_of_no_brackets hacc (not_exists.1 hmem)] at h
        cases h
        exact .location hacc (not_exists.1 hmem)
  · rintro (⟨hacc, hmem⟩ | ⟨htext, hinner⟩)
    · exact parse_of_no_brackets hacc hmem
    · have hread : Text.readUnsigned? ((Text.trim _).map Char.toLower) = none :=
        Option.eq_none_iff_forall_ne_some.2 fun address haddress =>
          hinner address (readUnsigned?_toLower.1 haddress)
      rw [parse_of_brackets htext, hread]

end Probe

/-! ## Words -/

namespace Expression

/-- A text spells a word, in decimal or marked as balanced ternary. -/
inductive SpellsValue : List Char → Word → Prop where
  | ternary {s row : List Char} {mark : Char} {w : Word} (hmark : mark = 't' ∨ mark = 'T')
      (htext : Text.trim s = '0' :: mark :: row) (hrow : Numeral.Spells row w.toInt) :
      SpellsValue s w
  | decimal {s : List Char} {w : Word} (htext : Text.SpellsDecimal (Text.trim s) w.toInt) :
      SpellsValue s w

/-- Behind a zero and the letter `t`, a value is read as a numeral. -/
theorem parseValue_of_marked {s row : List Char} {mark : Char} (hmark : mark = 't' ∨ mark = 'T')
    (htext : Text.trim s = '0' :: mark :: row) :
    parseValue s =
      match (Numeral.parse (String.ofList row)).toOption with
      | some w => .ok w
      | none => .error (.badValue (String.ofList (Text.trim s))) := by
  rcases hmark with rfl | rfl <;>
    cases hread : (Numeral.parse (String.ofList row)).toOption <;>
      simp only [parseValue, htext, hread]

/-- Without that mark, a value is read as a decimal number. -/
theorem parseValue_of_unmarked {s : List Char}
    (htext : ∀ mark row, mark = 't' ∨ mark = 'T' → Text.trim s ≠ '0' :: mark :: row) :
    parseValue s =
      match Text.readWord? (Text.trim s) with
      | some w => .ok w
      | none => .error (.badValue (String.ofList (Text.trim s))) := by
  unfold parseValue
  generalize Text.trim s = trimmed at htext
  dsimp only
  split
  · next w hread =>
    split at hread
    · exact absurd rfl (htext 't' _ (.inl rfl))
    · exact absurd rfl (htext 'T' _ (.inr rfl))
    · rw [hread]
  · next hread =>
    split at hread
    · exact absurd rfl (htext 't' _ (.inl rfl))
    · exact absurd rfl (htext 'T' _ (.inr rfl))
    · rw [hread]

/-- A row of glyphs is read as a word just when it spells the word's value. -/
theorem parse_ofList_toOption_eq_some_iff {row : List Char} {w : Word} :
    (Numeral.parse (String.ofList row)).toOption = some w ↔ Numeral.Spells row w.toInt := by
  have hparse : Numeral.parse (String.ofList row) = .ok w ↔ Numeral.Spells row w.toInt := by
    rw [Numeral.parse_eq_ok_iff, String.toList_ofList]
  rw [← hparse]
  cases Numeral.parse (String.ofList row) with
  | error e => simp [Except.toOption]
  | ok v => simp [Except.toOption]

/-- A word is read just when it is spelled. -/
theorem parseValue_eq_ok_iff {s : List Char} {w : Word} :
    parseValue s = .ok w ↔ SpellsValue s w := by
  constructor
  · intro h
    by_cases hmark : ∃ mark row, (mark = 't' ∨ mark = 'T') ∧ Text.trim s = '0' :: mark :: row
    · obtain ⟨mark, row, hmark, htext⟩ := hmark
      rw [parseValue_of_marked hmark htext] at h
      split at h
      · next v hread =>
        cases h
        exact .ternary hmark htext (parse_ofList_toOption_eq_some_iff.1 hread)
      · cases h
    · rw [parseValue_of_unmarked fun mark row hm htext => hmark ⟨mark, row, hm, htext⟩] at h
      split at h
      · next v hread =>
        cases h
        exact .decimal (Text.readWord?_eq_some_iff.1 hread)
      · cases h
  · rintro (⟨hmark, htext, hrow⟩ | htext)
    · rw [parseValue_of_marked hmark htext, parse_ofList_toOption_eq_some_iff.2 hrow]
    · have hread := Text.readWord?_eq_some_iff.2 htext
      rw [parseValue_of_unmarked, hread]
      rintro mark row (rfl | rfl) hmarked
      · rw [hmarked] at hread
        cases hread
      · rw [hmarked] at hread
        cases hread

/-- A text that spells no word is refused. -/
theorem parseValue_eq_error_iff {s : List Char} {e : ExpressionError} :
    parseValue s = .error e ↔
      (∀ w, ¬ SpellsValue s w) ∧ e = .badValue (String.ofList (Text.trim s)) := by
  simp only [← parseValue_eq_ok_iff]
  unfold parseValue
  dsimp only
  split
  · simp
  · simp [eq_comm]

end Expression

end TernaryMachine
