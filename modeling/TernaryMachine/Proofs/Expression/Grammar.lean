import Mathlib.Data.List.Infix
import TernaryMachine.Proofs.Expression.Operand

/-!
# The grammar of conditions

A text is a condition when a probe stands in front of an operator and a word behind it
(`Condition.Parts`); every other text has something wrong with it (`Condition.Misspells`).

The reader looks for one operator after the other, in the order of a table, and not from the front
of the text.  It finds the right one all the same: neither a probe nor a word holds a character of
an operator, so the operator is all that is left of the text without the other characters
(`Condition.filter_isMark`), and no operator that stands earlier in the table is part of it
(`Comparison.exists_earlier`).
-/

set_option autoImplicit false

namespace TernaryMachine

/-! ## Operators -/

namespace Comparison

/-- The characters that operators are made of. -/
def marks : List Char := ['=', '!', '>', '<']

/-- Whether a character may stand in an operator. -/
def isMark (c : Char) : Bool := marks.contains c

/-- A class of characters that leaves out the marks has no mark in it. -/
theorem isMark_eq_false {p : Char → Bool} (hmarks : marks.all (fun m => !p m) = true) {c : Char}
    (hc : p c = true) : isMark c = false := by
  rw [isMark, List.contains_eq_mem, decide_eq_false_iff_not]
  intro hmem
  have hnot := List.all_eq_true.1 hmarks c hmem
  rw [hc] at hnot
  cases hnot

/-- The symbols of comparisons are spelled in marks. -/
theorem isMark_of_mem_symbol {op : Comparison} {c : Char} (h : c ∈ op.symbol.toList) :
    isMark c = true := by
  have hall : op.symbol.toList.all isMark = true := by cases op <;> rfl
  exact List.all_eq_true.1 hall c h

/-- A symbol is all marks. -/
theorem filter_symbol (op : Comparison) : op.symbol.toList.filter isMark = op.symbol.toList :=
  List.filter_eq_self.2 fun _ => isMark_of_mem_symbol

/-- No symbol is empty. -/
theorem symbol_ne_nil (op : Comparison) : op.symbol.toList ≠ [] := by
  cases op <;> decide

/-- No operator that is looked for earlier is part of one that is looked for later. -/
theorem exists_earlier (op : Comparison) :
    ∃ earlier later, all = earlier ++ op :: later ∧
      ∀ other ∈ earlier, ¬ other.symbol.toList <:+: op.symbol.toList := by
  cases op with
  | eq => exact ⟨[], [ne, ge, le, gt, lt], rfl, by decide⟩
  | ne => exact ⟨[eq], [ge, le, gt, lt], rfl, by decide⟩
  | ge => exact ⟨[eq, ne], [le, gt, lt], rfl, by decide⟩
  | le => exact ⟨[eq, ne, ge], [gt, lt], rfl, by decide⟩
  | gt => exact ⟨[eq, ne, ge, le], [lt], rfl, by decide⟩
  | lt => exact ⟨[eq, ne, ge, le, gt], [], rfl, by decide⟩

/-- A text without characters of operators. -/
def Unmarked (s : List Char) : Prop := ∀ c ∈ s, isMark c = false

/-- Whether a text is without marks can be tested. -/
theorem unmarked_of_all {s : List Char} (h : s.all (fun c => !isMark c) = true) : Unmarked s :=
  fun c hc => by simpa using List.all_eq_true.1 h c hc

/-- Blanks are no marks. -/
theorem Unmarked.of_trim {s : List Char} (h : Unmarked (Text.trim s)) : Unmarked s := by
  have hblank : ∀ c, Text.isBlank c = true → isMark c = false := fun c hc =>
    isMark_eq_false (p := Text.isBlank) rfl hc
  obtain ⟨front, back, hs, hfront, hback⟩ := Text.eq_append_trim s
  intro c hc
  rw [hs, List.mem_append, List.mem_append] at hc
  rcases hc with (hc | hc) | hc
  · exact hblank c (hfront c hc)
  · exact h c hc
  · exact hblank c (hback c hc)

/-- A digit is no mark. -/
theorem isMark_of_isDigit {c : Char} (h : c.isDigit = true) : isMark c = false :=
  isMark_eq_false (p := Char.isDigit) rfl h

end Comparison

open Comparison (isMark isMark_eq_false isMark_of_isDigit Unmarked unmarked_of_all)

/-- What is spelled in small letters without marks has none in capitals either. -/
theorem Probe.isMark_of_map_toLower {s : List Char} {name : String}
    (hname : Unmarked name.toList) (h : s.map Char.toLower = name.toList) : Unmarked s := by
  intro c hc
  have hlower : isMark c.toLower = false := hname _ (h ▸ List.mem_map_of_mem hc)
  exact isMark_eq_false (p := fun c => !isMark c.toLower) rfl (by rw [hlower]; rfl)

/-- A text that spells a probe is without marks. -/
theorem Probe.Spells.unmarked {s : List Char} {probe : Probe} (h : probe.Spells s) :
    Unmarked s := by
  apply Unmarked.of_trim
  cases h with
  | accumulator htext => exact isMark_of_map_toLower (unmarked_of_all rfl) htext
  | memory htext hinner =>
    obtain ⟨opening, hopening, hbrackets⟩ := htext
    rw [hbrackets]
    intro c hc
    rw [List.mem_append, List.mem_append] at hc
    rcases hc with (hc | hc) | hc
    · exact isMark_of_map_toLower (unmarked_of_all rfl) hopening c hc
    · refine Unmarked.of_trim (fun d hd => ?_) c hc
      rcases hinner.isDigit_or_plus hd with hdigit | rfl
      · exact isMark_of_isDigit hdigit
      · rfl
    · rw [List.mem_singleton.1 hc]
      rfl

/-- A numeral is without marks. -/
theorem Numeral.Spells.unmarked {row : List Char} {n : Int} (h : Numeral.Spells row n) :
    Unmarked row := by
  obtain ⟨digits, hdigits, -⟩ := h
  intro c hc
  have hmem : Trit.ofChar? c ∈ digits.map some := hdigits ▸ List.mem_map_of_mem hc
  obtain ⟨t, -, ht⟩ := List.mem_map.1 hmem
  exact isMark_eq_false (p := fun c => (Trit.ofChar? c).isSome) rfl (by rw [← ht]; rfl)

/-- A text that spells a value is without marks. -/
theorem Expression.SpellsValue.unmarked {s : List Char} {w : Word} (h : SpellsValue s w) :
    Unmarked s := by
  apply Unmarked.of_trim
  cases h with
  | ternary hmark htext hrow =>
    rw [htext]
    intro c hc
    rcases List.mem_cons.1 hc with rfl | hc
    · rfl
    · rcases List.mem_cons.1 hc with rfl | hc
      · rcases hmark with rfl | rfl <;> rfl
      · exact hrow.unmarked c hc
  | decimal htext =>
    intro c hc
    rcases htext.isDigit_or_sign hc with hdigit | rfl | rfl
    · exact isMark_of_isDigit hdigit
    · rfl
    · rfl

/-! ## Conditions -/

namespace Condition

/-- A text is put together from the probe, the operator and the word of a condition. -/
structure Parts (c : Condition) (s before behind : List Char) : Prop where
  text : s = before ++ c.op.symbol.toList ++ behind
  probe : c.probe.Spells before
  value : Expression.SpellsValue behind c.value

/-- Where a text is divided, be it a condition or not: no operator that is looked for earlier stands
in it, and this one does not stand further in front. -/
structure Division (op : Comparison) (s before behind : List Char) : Prop where
  text : s = before ++ op.symbol.toList ++ behind
  foremost : ∀ front back, s = front ++ op.symbol.toList ++ back → before.length ≤ front.length
  earliest : ∃ earlier later, Comparison.all = earlier ++ op :: later ∧
    ∀ other ∈ earlier, ¬ other.symbol.toList <:+: s

/-- What is wrong with a text that is no condition: the operator first of all, then the probe, and
the word only behind a probe. -/
inductive Misspells : List Char → ExpressionError → Prop where
  | operator {s : List Char} (hnone : ∀ op : Comparison, ¬ op.symbol.toList <:+: s) :
      Misspells s (.missingOperator (String.ofList (Text.trim s)))
  | probe {op : Comparison} {s before behind : List Char} {e : ExpressionError}
      (hdivision : Division op s before behind) (hprobe : Probe.Misspells before e) :
      Misspells s e
  | value {op : Comparison} {probe : Probe} {s before behind : List Char}
      (hdivision : Division op s before behind) (hprobe : probe.Spells before)
      (hvalue : ∀ w, ¬ Expression.SpellsValue behind w) :
      Misspells s (.badValue (String.ofList (Text.trim behind)))

/-- A text cannot be cut at a symbol just when the symbol is no part of it. -/
theorem cut?_symbol_eq_none_iff {op : Comparison} {s : List Char} :
    Text.cut? op.symbol.toList s = none ↔ ¬ op.symbol.toList <:+: s := by
  rw [Text.cut?_eq_none_iff]
  constructor
  · rintro h ⟨before, behind, rfl⟩
    exact h before behind rfl
  · rintro h before behind rfl
    exact h ⟨before, behind, rfl⟩

/-- A text cannot be divided just when no symbol is part of it. -/
theorem divide?_eq_none_iff {s : List Char} :
    divide? s = none ↔ ∀ op : Comparison, ¬ op.symbol.toList <:+: s := by
  simp only [divide?, List.findSome?_eq_none_iff, Option.map_eq_none_iff, cut?_symbol_eq_none_iff]
  exact ⟨fun h op => h op op.mem_all, fun h op _ => h op⟩

/-- The reader divides a text at the operator that stands first in the table, where it stands first.
-/
theorem divide?_eq_some_iff {op : Comparison} {s before behind : List Char} :
    divide? s = some (op, before, behind) ↔ Division op s before behind := by
  simp only [divide?, List.findSome?_eq_some_iff, Option.map_eq_none_iff, cut?_symbol_eq_none_iff]
  constructor
  · rintro ⟨earlier, found, later, hall, hfound, hearlier⟩
    obtain ⟨⟨front, back⟩, hcut, hparts⟩ := Option.map_eq_some_iff.1 hfound
    obtain ⟨rfl, rfl, rfl⟩ := by simpa using hparts
    obtain ⟨htext, hforemost⟩ := Text.cut?_eq_some_iff.1 hcut
    exact ⟨htext, hforemost, earlier, later, hall, hearlier⟩
  · rintro ⟨htext, hforemost, earlier, later, hall, hearlier⟩
    refine ⟨earlier, op, later, hall, ?_, hearlier⟩
    rw [Text.cut?_eq_some_iff.2 ⟨htext, hforemost⟩]
    rfl

section

variable {op other : Comparison} {before behind : List Char}
  (hbefore : Unmarked before) (hbehind : Unmarked behind)

include hbefore hbehind

/-- Between two texts without marks, a symbol is all the marks there are. -/
theorem filter_isMark :
    (before ++ op.symbol.toList ++ behind).filter isMark = op.symbol.toList := by
  have hnone : ∀ {s}, Unmarked s → s.filter isMark = [] := fun hs =>
    List.filter_eq_nil_iff.2 fun c hc => by simp [hs c hc]
  rw [List.filter_append, List.filter_append, hnone hbefore, hnone hbehind, op.filter_symbol,
    List.nil_append, List.append_nil]

/-- An operator that stands in the text is part of the one between the two parts. -/
theorem infix_symbol (h : other.symbol.toList <:+: before ++ op.symbol.toList ++ behind) :
    other.symbol.toList <:+: op.symbol.toList := by
  have hfilter := h.filter isMark
  rwa [other.filter_symbol, filter_isMark hbefore hbehind] at hfilter

/-- Between two parts without marks, the operator is found. -/
theorem divide?_of_unmarked :
    divide? (before ++ op.symbol.toList ++ behind) = some (op, before, behind) := by
  obtain ⟨m, marks, hsymbol⟩ := List.exists_cons_of_ne_nil op.symbol_ne_nil
  have hm : m ∉ before := fun hmem => by
    have hsymbol' : m ∈ op.symbol.toList := hsymbol ▸ List.mem_cons_self
    exact absurd (hbefore m hmem) (by simp [Comparison.isMark_of_mem_symbol hsymbol'])
  have hcut : Text.cut? op.symbol.toList (before ++ op.symbol.toList ++ behind) =
      some (before, behind) := by
    rw [hsymbol]
    exact Text.cut?_of_not_mem hm behind
  obtain ⟨htext, hforemost⟩ := Text.cut?_eq_some_iff.1 hcut
  -- What is looked for earlier would have to be part of this operator, and that the table excludes.
  obtain ⟨earlier, later, hall, hearlier⟩ := op.exists_earlier
  exact divide?_eq_some_iff.2 ⟨htext, hforemost, earlier, later, hall, fun other hmem hinfix =>
    hearlier other hmem (infix_symbol hbefore hbehind hinfix)⟩

end

/-- A condition is divided into its own parts. -/
theorem Parts.divide? {c : Condition} {s before behind : List Char}
    (h : c.Parts s before behind) : divide? s = some (c.op, before, behind) := by
  rw [h.text]
  exact divide?_of_unmarked h.probe.unmarked h.value.unmarked

/-- A condition is read just when it is spelled. -/
theorem parse_eq_ok_iff {s : List Char} {c : Condition} :
    parse s = .ok c ↔ ∃ before behind, c.Parts s before behind := by
  constructor
  · intro h
    unfold parse at h
    split at h
    · cases h
    · next op before behind hdivide =>
      split at h
      · cases h
      · next probe hprobe =>
        split at h
        · cases h
        · next value hvalue =>
          cases h
          exact ⟨before, behind, (divide?_eq_some_iff.1 hdivide).text,
            Probe.parse_eq_ok_iff.1 hprobe, Expression.parseValue_eq_ok_iff.1 hvalue⟩
  · rintro ⟨before, behind, h⟩
    simp only [parse, h.divide?, Probe.parse_eq_ok_iff.2 h.probe,
      Expression.parseValue_eq_ok_iff.2 h.value]

/-- A text is put together in one way only. -/
theorem Parts.unique {c c' : Condition} {s before behind before' behind' : List Char}
    (h : c.Parts s before behind) (h' : c'.Parts s before' behind') :
    c = c' ∧ before = before' ∧ behind = behind' := by
  have hcondition : parse s = .ok c := parse_eq_ok_iff.2 ⟨before, behind, h⟩
  rw [parse_eq_ok_iff.2 ⟨before', behind', h'⟩] at hcondition
  have hdivide := h.divide?
  rw [h'.divide?] at hdivide
  simp only [Option.some.injEq, Prod.mk.injEq] at hdivide
  exact ⟨(Except.ok.inj hcondition).symm, hdivide.2.1.symm, hdivide.2.2.symm⟩

/-- A text that is no condition is refused for what is wrong with it. -/
theorem parse_eq_error_iff {s : List Char} {e : ExpressionError} :
    parse s = .error e ↔ Misspells s e := by
  constructor
  · intro h
    unfold parse at h
    split at h
    · next hdivide =>
      cases h
      exact .operator (divide?_eq_none_iff.1 hdivide)
    · next op before behind hdivide =>
      rw [divide?_eq_some_iff] at hdivide
      split at h
      · next e' hprobe =>
        cases h
        exact .probe hdivide (Probe.parse_eq_error_iff.1 hprobe)
      · next probe hprobe =>
        split at h
        · next e' hvalue =>
          obtain ⟨hnone, rfl⟩ := Expression.parseValue_eq_error_iff.1 hvalue
          cases h
          exact .value hdivide (Probe.parse_eq_ok_iff.1 hprobe) hnone
        · cases h
  · rintro (hnone | ⟨hdivision, hprobe⟩ | ⟨hdivision, hprobe, hvalue⟩)
    · simp only [parse, divide?_eq_none_iff.2 hnone]
    · simp only [parse, divide?_eq_some_iff.2 hdivision, Probe.parse_eq_error_iff.2 hprobe]
    · simp only [parse, divide?_eq_some_iff.2 hdivision, Probe.parse_eq_ok_iff.2 hprobe,
        Expression.parseValue_eq_error_iff.2 ⟨hvalue, rfl⟩]

/-- The conditions are the texts that are put together from a probe, an operator and a word, each
in one way only, and every other text is refused for what is wrong with it. -/
theorem parse_decides_grammar (s : List Char) :
    (∀ c, parse s = .ok c ↔ ∃ before behind, c.Parts s before behind) ∧
      (∀ (c c' : Condition) before before' behind behind', c.Parts s before behind →
        c'.Parts s before' behind' → c = c' ∧ before = before' ∧ behind = behind') ∧
      ∀ e, parse s = .error e ↔ Misspells s e :=
  ⟨fun _ => parse_eq_ok_iff, fun _ _ _ _ _ _ h h' => h.unique h', fun _ => parse_eq_error_iff⟩

/-- An operator of two characters is not taken for the one that it starts with. -/
theorem parse_decides_grammar_two_marks :
    (⟨.memory 4, .ge, -2⟩ : Condition).Parts "Mem[ +4]>= -2".toList "Mem[ +4]".toList
        " -2".toList ∧
      parse "Mem[ +4]>= -2".toList = .ok ⟨.memory 4, .ge, -2⟩ ∧
      ∀ (c : Condition) before behind,
        c.Parts "Mem[ +4]>= -2".toList before behind → c.op = .ge := by
  have hprobe : (Probe.memory 4).Spells "Mem[ +4]".toList := Probe.parse_eq_ok_iff.1 (by decide)
  have hvalue : Expression.SpellsValue " -2".toList (-2) :=
    Expression.parseValue_eq_ok_iff.1 (by decide)
  have hparts : (⟨.memory 4, .ge, -2⟩ : Condition).Parts "Mem[ +4]>= -2".toList
      "Mem[ +4]".toList " -2".toList := ⟨by decide, hprobe, hvalue⟩
  obtain ⟨hread, hunique, -⟩ := parse_decides_grammar "Mem[ +4]>= -2".toList
  refine ⟨hparts, (hread _).2 ⟨_, _, hparts⟩, fun c before behind h => ?_⟩
  obtain ⟨rfl, -, -⟩ := hunique _ _ _ _ _ _ hparts h
  rfl

end Condition

end TernaryMachine
