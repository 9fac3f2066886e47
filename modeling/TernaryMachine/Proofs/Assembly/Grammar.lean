import Mathlib.Data.List.TakeWhile
import TernaryMachine.Proofs.Assembly.Line
import TernaryMachine.Proofs.Numeral.Reading
import TernaryMachine.Proofs.Text.Capitals
import TernaryMachine.Proofs.Text.LetterCase
import TernaryMachine.Proofs.Text.Words

/-!
# The grammar of assembly text

What a line of assembly text spells, as rules and without regard to how lines are read: an operand
is a marked ternary literal, a decimal integer or an identifier (`Operand.Spells`), a statement is
none, one or two words (`Statement.Spells`), and a line is a label and a statement in front of a
comment, of which each may be missing (`Line.Spells`).

Each kind is read just as the rules say: `Operand.parse_eq_ok_iff`, `Statement.parse_eq_ok_iff` and
`Line.spells_iff`.
-/

set_option autoImplicit false

namespace TernaryMachine

namespace Text

/-- A text has a front before the first place of a mark and a rest behind it, or no such place. -/
inductive Divides (mark : Char) : List Char → List Char → Option (List Char) → Prop where
  | whole {s : List Char} (h : mark ∉ s) : Divides mark s s none
  | marked {front rest : List Char} (h : mark ∉ front) :
      Divides mark (front ++ mark :: rest) front (some rest)

end Text

/-- The names of an opcode. -/
def Opcode.Named (name : String) (op : Opcode) : Prop :=
  name = op.mnemonic ∨ (name, op) ∈ Opcode.aliases

/-- A word of text spells an operand. -/
inductive Operand.Spells : List Char → Operand → Prop where
  | ternary {mark : Char} {row : List Char} {w : Word} (hmark : mark = 't' ∨ mark = 'T')
      (hrow : Numeral.Spells row w.toInt) : Spells ('0' :: mark :: row) (.literal w)
  | decimal {text : List Char} {w : Word} (htext : Text.SpellsDecimal text w.toInt) :
      Spells text (.literal w)
  | label {first : Char} {rest : List Char} (hfirst : first.isAlpha = true ∨ first = '_')
      (hrest : ∀ c ∈ rest, c.isAlphanum = true ∨ c = '_') :
      Spells (first :: rest) (.label (String.ofList (Text.capitals (first :: rest))))

/-- Words of text spell a statement. -/
inductive Statement.Spells : List (List Char) → Statement → Prop where
  | nothing : Spells [] .nothing
  | datum {name text : List Char} {operand : Operand}
      (hname : String.ofList (Text.capitals name) = "DAT" ∨
        String.ofList (Text.capitals name) = "DATA")
      (htext : operand.Spells text) : Spells [name, text] (.datum operand)
  | plain {name : List Char} {op : Opcode} (hname : op.Named (String.ofList (Text.capitals name)))
      (hoperand : op.hasOperand = false) : Spells [name] (.plain op)
  | withOperand {name text : List Char} {op : Opcode} {operand : Operand}
      (hname : op.Named (String.ofList (Text.capitals name))) (hoperand : op.hasOperand = true)
      (htext : operand.Spells text) : Spells [name, text] (.withOperand op operand)

/-- A line spells a label, if it has one, and a statement: what stands behind a semicolon is left
out, and what stands in front of the first colon is a single word. -/
inductive Line.Spells : List Char → Option String → Statement → Prop where
  | bare {line code : List Char} {comment : Option (List Char)} {statement : Statement}
      (hcomment : Text.Divides ';' line code comment) (hcolon : ':' ∉ code)
      (hbody : statement.Spells (Text.words code)) : Spells line none statement
  | labelled {line code front body name : List Char} {comment : Option (List Char)}
      {statement : Statement} (hcomment : Text.Divides ';' line code comment)
      (hcolon : Text.Divides ':' code front (some body)) (hname : Text.words front = [name])
      (hbody : statement.Spells (Text.words body)) :
      Spells line (some (String.ofList (Text.capitals name))) statement

/-! ## Operands -/

namespace Operand

/-- A label starts with a letter or a low line and goes on with letters, digits and low lines. -/
theorem isLabel_cons_iff {first : Char} {rest : List Char} :
    isLabel (first :: rest) = true ↔ (first.isAlpha = true ∨ first = '_') ∧
      ∀ c ∈ rest, c.isAlphanum = true ∨ c = '_' := by
  simp only [isLabel, List.all_cons, Bool.and_eq_true, Bool.or_eq_true, beq_iff_eq,
    List.all_eq_true, Char.isAlphanum]
  constructor
  · rintro ⟨hfirst, -, hrest⟩
    exact ⟨hfirst, hrest⟩
  · rintro ⟨hfirst, hrest⟩
    refine ⟨hfirst, ?_, hrest⟩
    rcases hfirst with halpha | hscore
    · exact .inl (.inl halpha)
    · exact .inr hscore

/-- Behind a zero and the letter `t`, an operand is read as a numeral. -/
theorem parse_marked {mark : Char} (hmark : mark = 't' ∨ mark = 'T') (row : List Char) :
    parse ('0' :: mark :: row) =
      match Numeral.parse (String.ofList row) with
      | .ok w => .ok (.literal w)
      | .error e => .error (.badLiteral e) := by
  rcases hmark with rfl | rfl <;> rfl

/-- Without that mark, an operand is read as a decimal number, and else as a label. -/
theorem parse_unmarked {text : List Char}
    (hmark : ∀ mark row, mark = 't' ∨ mark = 'T' → text ≠ '0' :: mark :: row) :
    parse text =
      match Text.readWord? text with
      | some w => .ok (.literal w)
      | none =>
        if isLabel text then .ok (.label (String.ofList (Text.capitals text)))
        else .error (.badOperand (String.ofList text)) := by
  unfold parse
  split
  · next row => exact absurd rfl (hmark 't' row (.inl rfl))
  · next row => exact absurd rfl (hmark 'T' row (.inr rfl))
  · rfl

/-- The first character of a label stands behind the digits and signs in the order of code points.
-/
theorem le_toNat_of_label {first : Char} (h : first.isAlpha = true ∨ first = '_') :
    65 ≤ first.toNat := by
  rcases h with halpha | rfl
  · have hrange := Text.isAlpha_iff.1 halpha
    omega
  · decide

/-- No identifier is a decimal. -/
theorem readWord?_of_label {first : Char} {rest : List Char}
    (h : first.isAlpha = true ∨ first = '_') : Text.readWord? (first :: rest) = none := by
  have hle := le_toNat_of_label h
  rw [Option.eq_none_iff_forall_ne_some]
  intro w hread
  have hdecimal := Text.readWord?_eq_some_iff.1 hread
  generalize w.toInt = n at hdecimal
  cases hdecimal with
  | plain _ hdigits =>
    obtain ⟨-, hhi⟩ := Text.toNat_of_isDigit (hdigits first List.mem_cons_self)
    omega
  | plus _ _ => exact absurd hle (by decide)
  | minus _ _ => exact absurd hle (by decide)

/-- What the reader makes of an operand is what the text spells. -/
theorem spells_of_parse {text : List Char} {operand : Operand} (h : parse text = .ok operand) :
    operand.Spells text := by
  by_cases hmark : ∃ mark row, (mark = 't' ∨ mark = 'T') ∧ text = '0' :: mark :: row
  · obtain ⟨mark, row, hmark, rfl⟩ := hmark
    rw [parse_marked hmark] at h
    cases hrow : Numeral.parse (String.ofList row) with
    | error e => simp [hrow] at h
    | ok w =>
      rw [hrow] at h
      cases h
      have hspells := Numeral.parse_eq_ok_iff.1 hrow
      rw [String.toList_ofList] at hspells
      exact .ternary hmark hspells
  · rw [parse_unmarked fun mark row hm htext => hmark ⟨mark, row, hm, htext⟩] at h
    cases hread : Text.readWord? text with
    | some w =>
      rw [hread] at h
      cases h
      exact .decimal (Text.readWord?_eq_some_iff.1 hread)
    | none =>
      simp only [hread] at h
      split at h
      · next hlabel =>
        cases h
        cases text with
        | nil => cases hlabel
        | cons first rest =>
          obtain ⟨hfirst, hrest⟩ := isLabel_cons_iff.1 hlabel
          exact .label hfirst hrest
      · cases h

/-- A text that spells an operand is read as it. -/
theorem parse_of_spells {text : List Char} {operand : Operand} (h : operand.Spells text) :
    parse text = .ok operand := by
  cases h with
  | @ternary mark row w hmark hrow =>
    have hparse : Numeral.parse (String.ofList row) = .ok w := by
      rw [Numeral.parse_eq_ok_iff, String.toList_ofList]
      exact hrow
    rw [parse_marked hmark, hparse]
  | decimal htext => exact parse_of_readWord? (Text.readWord?_eq_some_iff.2 htext)
  | @label first rest hfirst hrest =>
    have hle := le_toNat_of_label hfirst
    have hzero : first ≠ '0' := by
      rintro rfl
      exact absurd hle (by decide)
    rw [parse_unmarked fun mark row _ htext => hzero (List.cons.inj htext).1,
      readWord?_of_label hfirst]
    simp only [isLabel_cons_iff.2 ⟨hfirst, hrest⟩, if_true]

/-- An operand is read just when it is spelled. -/
theorem parse_eq_ok_iff {text : List Char} {operand : Operand} :
    parse text = .ok operand ↔ operand.Spells text :=
  ⟨spells_of_parse, parse_of_spells⟩

end Operand

/-! ## Statements -/

/-- Among names in capitals, the table of mnemonics finds the opcodes that the grammar names. -/
theorem Opcode.ofMnemonic?_eq_some_iff {name : String} {op : Opcode}
    (hcapitals : name.toList.map Char.toUpper = name.toList) :
    ofMnemonic? name = some op ↔ op.Named name := by
  have hupper : String.ofList (name.toList.map Char.toUpper) = name := by
    rw [hcapitals, String.ofList_toList]
  constructor
  · intro h
    simp only [ofMnemonic?, hupper] at h
    split at h
    · next entry halias =>
      cases h
      have hname : entry.1 = name := by simpa using List.find?_some halias
      exact .inr (hname ▸ List.mem_of_find?_eq_some halias)
    · have hname : op.mnemonic = name := by simpa using List.find?_some h
      exact .inl hname.symm
  · rintro (rfl | halias)
    · exact ofMnemonic?_mnemonic op
    · simp only [aliases, List.mem_cons, Prod.mk.injEq, List.not_mem_nil, or_false] at halias
      rcases halias with ⟨rfl, rfl⟩ | ⟨rfl, rfl⟩ | ⟨rfl, rfl⟩ <;> decide +kernel

/-- No name of an opcode names data. -/
theorem Opcode.Named.ne_datum {name : String} {op : Opcode} (h : op.Named name) :
    ¬ (name = "DAT" ∨ name = "DATA") := by
  rcases h with rfl | halias
  · exact Statement.mnemonic_ne_datum op
  · simp only [aliases, List.mem_cons, Prod.mk.injEq, List.not_mem_nil, or_false] at halias
    rcases halias with ⟨rfl, -⟩ | ⟨rfl, -⟩ | ⟨rfl, -⟩ <;> decide

namespace Statement

/-- The capital form of a word is looked up in the table as the grammar has it. -/
theorem ofMnemonic?_capitals_iff {name : List Char} {op : Opcode} :
    Opcode.ofMnemonic? (String.ofList (Text.capitals name)) = some op ↔
      op.Named (String.ofList (Text.capitals name)) := by
  refine Opcode.ofMnemonic?_eq_some_iff ?_
  rw [String.toList_ofList, Text.map_toUpper_capitals]

/-- Words that spell a statement are read as it. -/
theorem parse_of_spells {body : List Char} {words : List (List Char)} {statement : Statement}
    (hwords : Text.words body = words) (h : statement.Spells words) :
    parse body = .ok statement := by
  cases h with
  | nothing => simp only [parse, hwords]
  | datum hname htext =>
    rw [parse_of_two_words hwords, ofParts, if_pos hname]
    simp only [Operand.parse_eq_ok_iff.2 htext]
  | plain hname hoperand =>
    rw [parse_of_one_word hwords, ofParts, if_neg hname.ne_datum]
    simp only [ofMnemonic?_capitals_iff.2 hname, hoperand]
  | withOperand hname hoperand htext =>
    rw [parse_of_two_words hwords, ofParts, if_neg hname.ne_datum]
    simp only [ofMnemonic?_capitals_iff.2 hname, hoperand, Operand.parse_eq_ok_iff.2 htext]

/-- What the reader makes of a statement in parts is what the parts spell. -/
theorem spells_of_ofParts {name : List Char} {text : Option (List Char)} {statement : Statement}
    (h : ofParts (String.ofList (Text.capitals name)) text = .ok statement) :
    statement.Spells (name :: text.toList) := by
  unfold ofParts at h
  split at h
  · next hname =>
    cases text with
    | none => cases h
    | some text =>
      cases hparse : Operand.parse text with
      | error cause => simp [hparse] at h
      | ok operand =>
        simp only [hparse, Except.ok.injEq] at h
        rw [← h]
        exact .datum hname (Operand.parse_eq_ok_iff.1 hparse)
  · cases hop : Opcode.ofMnemonic? (String.ofList (Text.capitals name)) with
    | none => simp [hop] at h
    | some op =>
      have hname := ofMnemonic?_capitals_iff.1 hop
      cases hoperand : op.hasOperand with
      | false =>
        cases text with
        | none =>
          simp only [hop, hoperand, Except.ok.injEq] at h
          rw [← h]
          exact .plain hname hoperand
        | some text => simp [hop, hoperand] at h
      | true =>
        cases text with
        | none => simp [hop, hoperand] at h
        | some text =>
          cases hparse : Operand.parse text with
          | error cause => simp [hop, hoperand, hparse] at h
          | ok operand =>
            simp only [hop, hoperand, hparse, Except.ok.injEq] at h
            rw [← h]
            exact .withOperand hname hoperand (Operand.parse_eq_ok_iff.1 hparse)

/-- A statement is read just when the words spell it. -/
theorem parse_eq_ok_iff {body : List Char} {statement : Statement} :
    parse body = .ok statement ↔ statement.Spells (Text.words body) := by
  refine ⟨fun h => ?_, parse_of_spells rfl⟩
  rcases hwords : Text.words body with _ | ⟨name, _ | ⟨text, _ | ⟨surplus, more⟩⟩⟩
  · simp only [parse, hwords, Except.ok.injEq] at h
    rw [← h]
    exact .nothing
  · rw [parse_of_one_word hwords] at h
    exact spells_of_ofParts h
  · rw [parse_of_two_words hwords] at h
    exact spells_of_ofParts h
  · simp [parse, hwords] at h

end Statement

/-! ## Lines -/

/-- Every text divides at a mark, if only into itself and nothing. -/
theorem Text.exists_divides (mark : Char) (s : List Char) :
    ∃ front rest, Text.Divides mark s front rest := by
  by_cases h : mark ∈ s
  · obtain ⟨front, rest, rfl, hfront⟩ := List.eq_append_cons_of_mem h
    exact ⟨front, some rest, .marked hfront⟩
  · exact ⟨s, none, .whole h⟩

namespace Line

/-- The code of a line is what stands in front of the comment, without the blanks around it. -/
theorem code_of_divides {line front : List Char} {comment : Option (List Char)}
    (h : Text.Divides ';' line front comment) : code line = Text.trim front := by
  cases h with
  | whole hnone =>
    have hall : ∀ c ∈ line, (c != ';') = true := by
      intro c hc
      rw [bne_iff_ne]
      rintro rfl
      exact hnone hc
    rw [code, List.takeWhile_eq_self_iff.2 hall]
  | @marked _ rest hfront => exact code_of_comment hfront rest

/-- A line without a colon is a body. -/
theorem split_of_bare {line front : List Char} {comment : Option (List Char)}
    (hcomment : Text.Divides ';' line front comment) (hcolon : ':' ∉ front) :
    split line = .ok (none, Text.trim front) := by
  have hnone : (Text.trim front).contains ':' = false := by
    rw [List.contains_eq_mem, decide_eq_false_iff_not]
    exact fun hmem => hcolon (Text.mem_of_mem_trim hmem)
  simp only [split, code_of_divides hcomment, hnone, Bool.false_eq_true, if_false]

/-- The check of a label looks at its capital form, but it may as well look at the label. -/
theorem isToken_iff_capitals {s : List Char} :
    Text.IsToken s ↔
      ((Text.capitals s).isEmpty || (Text.capitals s).any Text.isBlank) = false := by
  rw [Text.any_isBlank_capitals, Bool.or_eq_false_iff, List.isEmpty_eq_false_iff, Ne,
    Text.capitals_eq_nil_iff, List.any_eq_false]
  simp only [Text.IsToken, Ne, Bool.not_eq_true]

/-- Before the first colon the label is looked for, and behind it the body. -/
theorem split_of_colon {line front body : List Char} {comment : Option (List Char)}
    (hcomment : Text.Divides ';' line (front ++ ':' :: body) comment) (hcolon : ':' ∉ front) :
    split line =
      if (Text.capitals (Text.trim front)).isEmpty ||
          (Text.capitals (Text.trim front)).any Text.isBlank then
        .error (.badLabel (String.ofList (Text.capitals (Text.trim front))))
      else
        .ok (some (String.ofList (Text.capitals (Text.trim front))), Text.trimEnd body) := by
  have hcode : code line = Text.trimStart front ++ ':' :: Text.trimEnd body := by
    rw [code_of_divides hcomment, Text.trim_append_mark (by decide)]
  have hcontains : (Text.trimStart front ++ ':' :: Text.trimEnd body).contains ':' = true := by simp
  have hbefore : ∀ c ∈ Text.trimStart front, (c != ':') = true := by
    intro c hc
    rw [bne_iff_ne]
    rintro rfl
    exact hcolon (Text.mem_of_mem_trimStart hc)
  have htake : (Text.trimStart front ++ ':' :: Text.trimEnd body).takeWhile (· != ':') =
      Text.trimStart front := by
    rw [List.takeWhile_append_of_pos hbefore]
    simp
  have hdrop : (Text.trimStart front ++ ':' :: Text.trimEnd body).dropWhile (· != ':') =
      ':' :: Text.trimEnd body := by
    rw [List.dropWhile_append_of_pos hbefore]
    simp
  simp only [split, hcode, hcontains, htake, hdrop, Text.trim_trimStart, if_true]
  rfl

/-- A line is split and its body is read just when the line spells label and statement. -/
theorem spells_iff {line : List Char} {label : Option String} {statement : Statement} :
    Spells line label statement ↔
      ∃ body, split line = .ok (label, body) ∧ Statement.parse body = .ok statement := by
  constructor
  · intro h
    cases h with
    | @bare front _ _ hcomment hcolon hbody =>
      refine ⟨Text.trim front, split_of_bare hcomment hcolon, ?_⟩
      rwa [Statement.parse_eq_ok_iff, Text.words_trim]
    | @labelled _ front body name _ _ hcomment hcolon hname hbody =>
      cases hcolon with
      | marked hfront =>
        obtain ⟨rfl, htoken⟩ := Text.words_eq_singleton_iff.1 hname
        refine ⟨Text.trimEnd body, ?_, ?_⟩
        · rw [split_of_colon hcomment hfront, isToken_iff_capitals.1 htoken]
          rfl
        · rwa [Statement.parse_eq_ok_iff, Text.words_trimEnd]
  · rintro ⟨body, hsplit, hparse⟩
    obtain ⟨front, comment, hcomment⟩ := Text.exists_divides ';' line
    obtain ⟨before, behind, hcolon⟩ := Text.exists_divides ':' front
    cases hcolon with
    | whole hnone =>
      rw [split_of_bare hcomment hnone] at hsplit
      cases hsplit
      rw [Statement.parse_eq_ok_iff, Text.words_trim] at hparse
      exact .bare hcomment hnone hparse
    | @marked _ rest hbefore =>
      rw [split_of_colon hcomment hbefore] at hsplit
      split at hsplit
      · cases hsplit
      · next htoken =>
        cases hsplit
        rw [Statement.parse_eq_ok_iff, Text.words_trimEnd] at hparse
        have hname : Text.words before = [Text.trim before] := Text.words_eq_singleton_iff.2
          ⟨rfl, isToken_iff_capitals.2 (Bool.not_eq_true _ ▸ htoken)⟩
        exact .labelled hcomment (.marked hbefore) hname hparse

end Line

end TernaryMachine
