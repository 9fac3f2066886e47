import TernaryMachine.Expression.Watch
import TernaryMachine.Proofs.Expression.Grammar

/-!
# Expressions as they are shown

Probes, conditions and watches are shown in the words they are read from.  A probe and a word are
shown as one token each, so blanks around them do not matter to what they spell
(`Probe.spells_of_trim`, `Expression.spellsValue_of_trim`), and no ` as ` stands in the text of a
probe: a watch is divided at the first one behind it, whatever its label holds.
-/

set_option autoImplicit false

namespace TernaryMachine

namespace Probe

/-- The text of a probe is a token. -/
theorem isToken_text (q : Probe) : Text.IsToken q.text.toList := by
  cases q with
  | accumulator => exact Text.isToken_of_all (by decide) rfl
  | memory address =>
    have hnumber : Text.IsToken address.toNat.repr.toList :=
      Text.isToken_of_digits (Text.repr_ne_nil _) fun _ hc => Text.isDigit_of_mem_repr hc
    have hopening : Text.IsToken "MEM[".toList := Text.isToken_of_all (by decide) rfl
    have hclosing : Text.IsToken "]".toList := Text.isToken_of_all (by decide) rfl
    rw [text, String.toList_append, String.toList_append]
    exact (hopening.append hnumber).append hclosing

/-- A text that is a probe's own but for blanks around it spells the probe. -/
theorem spells_of_trim {s : List Char} {q : Probe} (h : Text.trim s = q.text.toList) :
    q.Spells s := by
  cases q with
  | accumulator =>
    refine .accumulator ?_
    rw [h]
    rfl
  | memory address =>
    have hnumber : Text.IsToken address.toNat.repr.toList :=
      Text.isToken_of_digits (Text.repr_ne_nil _) fun _ hc => Text.isDigit_of_mem_repr hc
    have hbrackets : Brackets s address.toNat.repr.toList := by
      refine ⟨"MEM[".toList, by decide, ?_⟩
      rw [h]
      simp [text]
    refine .memory hbrackets ?_
    obtain ⟨hne, hdigits, hvalue⟩ := Text.readNat?_eq_some_iff.1 (Text.readNat?_repr address.toNat)
    have hspells : Text.SpellsUnsigned address.toNat.repr.toList
        (Nat.ofDigitChars 10 address.toNat.repr.toList 0) := .plain hne hdigits
    rwa [hvalue, ← hnumber.trim] at hspells

end Probe

/-- A text that is a word in decimal but for blanks around it spells the word. -/
theorem Expression.spellsValue_of_trim {s : List Char} {w : Word}
    (h : Text.trim s = w.decimal.toList) : SpellsValue s w := by
  refine .decimal ?_
  rw [h]
  exact Text.readWord?_eq_some_iff.1 (Text.readWord?_decimal w)

/-- A condition is read back from the text it is shown as. -/
theorem Condition.parse_text (c : Condition) : parse c.text.toList = .ok c := by
  have hvalue : Text.IsToken c.value.decimal.toList :=
    (Text.readWord?_eq_some_iff.1 (Text.readWord?_decimal c.value)).isToken
  have hblank : ∀ c ∈ [' '], Text.isBlank c = true := List.all_eq_true.1 rfl
  have hbefore : Text.trim (c.probe.text.toList ++ [' ']) = c.probe.text.toList :=
    Text.trim_append_blanks_token (List.forall_mem_nil _) hblank c.probe.isToken_text
  have hbehind : Text.trim ([' '] ++ (c.value.decimal.toList ++ [])) = c.value.decimal.toList :=
    Text.trim_append_blanks_token hblank (List.forall_mem_nil _) hvalue
  refine parse_eq_ok_iff.2 ⟨_, _, ?_, Probe.spells_of_trim hbefore,
    Expression.spellsValue_of_trim hbehind⟩
  simp [text]

namespace Watch

/-- The text of a probe is a watch without a label. -/
theorem parse_text (q : Probe) : parse q.text.toList = .ok ⟨q, none⟩ := by
  have hblank : ' ' ∉ q.text.toList := q.isToken_text.not_mem_blank rfl
  have hcut : Text.cut? " as ".toList q.text.toList = none := by
    rw [Text.cut?_eq_none_iff]
    intro before behind h
    rw [h] at hblank
    exact hblank (by simp)
  simp only [parse, hcut, Probe.parse_eq_ok_iff.2 (Probe.spells_of_trim q.isToken_text.trim)]
  rfl

/-- The first ` as ` is the one behind the probe. -/
theorem parse_labelled (q : Probe) {label : String} (h : Text.trim label.toList = label.toList) :
    parse (q.text ++ " as " ++ label).toList = .ok ⟨q, some label⟩ := by
  have hcut : Text.cut? " as ".toList (q.text ++ " as " ++ label).toList =
      some (q.text.toList, label.toList) := by
    rw [String.toList_append, String.toList_append]
    exact Text.cut?_of_not_mem (q.isToken_text.not_mem_blank rfl) label.toList
  simp only [parse, hcut, Probe.parse_eq_ok_iff.2 (Probe.spells_of_trim q.isToken_text.trim), h,
    String.ofList_toList]
  rfl

end Watch

/-- Conditions and watches are read back from the texts they are shown as; a label is kept as it is
when no blank stands at either end of it. -/
theorem expressions_read_back :
    (∀ c : Condition, Condition.parse c.text.toList = .ok c) ∧
      ∀ q : Probe, Watch.parse q.text.toList = .ok ⟨q, none⟩ ∧
        ∀ label : String, (∀ c ∈ label.toList.head?, Text.isBlank c = false) →
          (∀ c ∈ label.toList.getLast?, Text.isBlank c = false) →
          Watch.parse (q.text ++ " as " ++ label).toList = .ok ⟨q, some label⟩ :=
  ⟨Condition.parse_text, fun q => ⟨Watch.parse_text q, fun _ hfirst hlast =>
    Watch.parse_labelled q (Text.trim_eq_self hfirst hlast)⟩⟩

/-- A label may hold ` as ` itself, and it may be empty. -/
theorem expressions_read_back_labelled :
    Watch.parse "MEM[7] as x as y".toList = .ok ⟨.memory 7, some "x as y"⟩ ∧
      Watch.parse "ACC as ".toList = .ok ⟨.accumulator, some ""⟩ :=
  ⟨(expressions_read_back.2 (.memory 7)).2 "x as y" (by rintro _ ⟨⟩; rfl) (by rintro _ ⟨⟩; rfl),
    (expressions_read_back.2 .accumulator).2 "" (by rintro _ ⟨⟩) (by rintro _ ⟨⟩)⟩

end TernaryMachine
