import TernaryMachine.Proofs.Assembly.Layout
import TernaryMachine.Proofs.Assembly.Location
import TernaryMachine.Proofs.Text.LetterCase

/-!
# Letter case

Making the ASCII letters of an assembly text capitals makes no difference to the words that it is
assembled to, nor to the error, but for what the error quotes of the text as it stands
(`assemble_upper`).  The reader of each part says so of that part: `Operand.parse_upper`,
`Statement.parse_upper`, `Line.split_upper` and, along the lines, `draft_upper`.  Names are looked
up and kept in their capital form, which is the same for both texts, so the second pass has nothing
to say.  Of capital forms nothing else is used (`Text.capitals_upper`): they go character by
character, and an ASCII letter and its capital have the same.

`insensitive_to_layout` puts this together with what is known of comments and blank lines.
-/

set_option autoImplicit false

namespace TernaryMachine

/-! ## What errors quote -/

/-- The error with what it quotes in capitals. -/
def NumeralError.inCapitals : NumeralError → NumeralError
  | invalidDigit ch position => invalidDigit ch.toUpper position
  | overflow text => overflow (Text.upperString text)

/-- The error with what it quotes in capitals; a label is quoted in its capital form anyway. -/
def Malformed.inCapitals : Malformed → Malformed
  | badLabel label => badLabel label
  | unexpected word => unexpected (Text.upperString word)
  | datumMissing => datumMissing
  | operandMissing op => operandMissing op
  | operandSurplus op text => operandSurplus op (Text.upperString text)
  | badLiteral source => badLiteral source.inCapitals
  | badOperand text => badOperand (Text.upperString text)

/-- The error with what it quotes in capitals; a mnemonic is quoted in its capital form anyway. -/
def StatementError.inCapitals : StatementError → StatementError
  | malformed cause => malformed cause.inCapitals
  | unknownMnemonic name => unknownMnemonic name

namespace AssemblyError

/-- The error with what it quotes in capitals; names are quoted in their capital form anyway. -/
def inCapitals : AssemblyError → AssemblyError
  | malformed line cause => malformed line cause.inCapitals
  | unknownMnemonic line name => unknownMnemonic line name
  | undefinedLabel line label => undefinedLabel line label
  | duplicateLabel line label => duplicateLabel line label

/-- Quoting in capitals leaves the kind of an error. -/
@[simp]
theorem kind_inCapitals (e : AssemblyError) : e.inCapitals.kind = e.kind := by
  cases e <;> rfl

/-- Quoting in capitals leaves the line of an error. -/
@[simp]
theorem line_inCapitals (e : AssemblyError) : e.inCapitals.line = e.line := by
  cases e <;> rfl

end AssemblyError

/-! ## Operands -/

/-- A glyph and its capital stand for the same digit. -/
theorem Trit.ofChar?_toUpper (c : Char) : ofChar? c.toUpper = ofChar? c := by
  refine Text.toUpper_congr (b := none) ?_ c
  intro c hc
  have hmark : ∀ mark : Char, mark.isAlpha = false → c ≠ mark := by
    rintro mark hmark rfl
    rw [hc] at hmark
    cases hmark
  have hminus : ¬ (c = '-' ∨ c = minusSign) :=
    not_or.2 ⟨hmark _ (by decide), hmark _ (by decide)⟩
  have hplus : ¬ (c = '+' ∨ c = '1') := not_or.2 ⟨hmark _ (by decide), hmark _ (by decide)⟩
  rw [ofChar?, if_neg hminus, if_neg (hmark _ (by decide)), if_neg hplus]

namespace Numeral

/-- A row of glyphs is read alike in capitals, but for the glyph that an error quotes. -/
theorem readTrits_upper (position : Nat) (row : List Char) :
    readTrits position (Text.upper row) =
      (readTrits position row).mapError NumeralError.inCapitals := by
  induction row generalizing position with
  | nil => rfl
  | cons c row ih =>
    show readTrits position (c.toUpper :: Text.upper row) = _
    rw [readTrits, readTrits, Trit.ofChar?_toUpper, ih]
    cases Trit.ofChar? c with
    | none => rfl
    | some t => cases readTrits (position + 1) row <;> rfl

/-- A numeral is read alike in capitals, but for the text that an error quotes. -/
theorem parse_upper (row : List Char) :
    parse (String.ofList (Text.upper row)) =
      (parse (String.ofList row)).mapError NumeralError.inCapitals := by
  rw [parse, parse, String.toList_ofList, String.toList_ofList, readTrits_upper]
  cases readTrits 0 row with
  | error e => rfl
  | ok trits =>
    simp only [Except.mapError]
    cases (total? trits).bind Word.ofInt? with
    | none => simp [NumeralError.inCapitals]
    | some w => rfl

end Numeral

namespace Operand

/-- A text is a label just when it is one in capitals. -/
theorem isLabel_upper (text : List Char) : isLabel (Text.upper text) = isLabel text := by
  have hscore : ∀ c : Char, (c.toUpper == '_') = (c == '_') := by
    intro c
    rw [Bool.eq_iff_iff, beq_iff_eq, beq_iff_eq]
    exact Text.toUpper_eq_iff (by decide) c
  cases text with
  | nil => rfl
  | cons c rest =>
    show isLabel (c.toUpper :: Text.upper rest) = _
    simp only [isLabel, Text.upper, List.all_cons, List.all_map, Function.comp_def, hscore,
      Text.isAlpha_toUpper, Text.isAlphanum_toUpper]

/-- A text that has the mark of a ternary literal now had it, small or as a capital, before. -/
theorem marked_of_upper {text row : List Char} {mark : Char} (hmark : mark = 't' ∨ mark = 'T')
    (h : Text.upper text = '0' :: mark :: row) :
    ∃ mark row, (mark = 't' ∨ mark = 'T') ∧ text = '0' :: mark :: row := by
  obtain ⟨zero, rest, rfl, hzero, hrest⟩ := List.map_eq_cons_iff.1 h
  obtain ⟨mark', row', rfl, hmark', -⟩ := List.map_eq_cons_iff.1 hrest
  rw [← hmark'] at hmark
  have hself : zero = '0' := (Text.toUpper_eq_iff (by decide) zero).1 hzero
  exact ⟨mark', row', Text.eq_of_toUpper_eq_t hmark, by rw [hself]⟩

/-- An operand is read alike in capitals, but for the text that an error quotes. -/
theorem parse_upper (text : List Char) :
    parse (Text.upper text) = (parse text).mapError Malformed.inCapitals := by
  by_cases hmark : ∃ mark row, (mark = 't' ∨ mark = 'T') ∧ text = '0' :: mark :: row
  · obtain ⟨mark, row, hmark, rfl⟩ := hmark
    have hupper : Text.upper ('0' :: mark :: row) = '0' :: 'T' :: Text.upper row := by
      rcases hmark with rfl | rfl <;> rfl
    rw [hupper, parse_marked (.inr rfl), parse_marked hmark, Numeral.parse_upper]
    cases Numeral.parse (String.ofList row) <;> rfl
  · rw [parse_unmarked fun mark row hm htext => hmark (marked_of_upper hm htext),
      parse_unmarked fun mark row hm htext => hmark ⟨mark, row, hm, htext⟩,
      Text.readWord?_upper, isLabel_upper, Text.capitals_upper]
    cases Text.readWord? text with
    | some w => rfl
    | none =>
      simp only
      split
      · rfl
      · simp [Except.mapError, Malformed.inCapitals]

end Operand

/-! ## Statements and lines -/

namespace Statement

/-- A statement in parts is read alike with its operand in capitals, but for what an error quotes.
-/
theorem ofParts_upper (mnemonic : String) (operand : Option (List Char)) :
    ofParts mnemonic (operand.map Text.upper) =
      (ofParts mnemonic operand).mapError StatementError.inCapitals := by
  unfold ofParts
  split
  · cases operand with
    | none => rfl
    | some text =>
      simp only [Option.map_some, Operand.parse_upper]
      cases Operand.parse text <;> rfl
  · cases Opcode.ofMnemonic? mnemonic with
    | none => rfl
    | some op =>
      cases operand with
      | none => cases hoperand : op.hasOperand <;> simp only [hoperand] <;> rfl
      | some text =>
        cases hoperand : op.hasOperand with
        | true =>
          simp only [Option.map_some, hoperand, Operand.parse_upper]
          cases Operand.parse text <;> rfl
        | false =>
          simp [hoperand, Except.mapError, StatementError.inCapitals, Malformed.inCapitals]

/-- A statement is read alike in capitals, but for what an error quotes. -/
theorem parse_upper (body : List Char) :
    parse (Text.upper body) = (parse body).mapError StatementError.inCapitals := by
  rw [parse, parse, Text.words_upper]
  rcases Text.words body with _ | ⟨name, _ | ⟨text, _ | ⟨surplus, more⟩⟩⟩
  · rfl
  · simp only [List.map_cons, List.map_nil, Text.capitals_upper]
    exact ofParts_upper _ none
  · simp only [List.map_cons, List.map_nil, Text.capitals_upper]
    exact ofParts_upper _ (some text)
  · simp [Except.mapError, StatementError.inCapitals, Malformed.inCapitals]

end Statement

namespace Line

/-- The code of a line in capitals is the line's code in capitals. -/
theorem code_upper (line : List Char) : code (Text.upper line) = Text.upper (code line) := by
  rw [code, Text.takeWhile_upper (by decide), Text.trim_upper, code]

/-- The only thing wrong with the parts of a line is its label, which is quoted in capital form. -/
theorem split_inCapitals (line : List Char) :
    (split line).mapError Malformed.inCapitals = split line := by
  simp only [split]
  split
  · split <;> rfl
  · rfl

/-- A line in capitals has the same label, or error, and its body in capitals. -/
theorem split_upper (line : List Char) :
    split (Text.upper line) =
      (split line).map fun (label, body) => (label, Text.upper body) := by
  have hcolon : ':'.isAlpha = false := by decide
  simp only [split, code_upper, Text.contains_upper hcolon, Text.takeWhile_upper hcolon,
    Text.dropWhile_upper hcolon, Text.trim_upper, Text.capitals_upper]
  split
  · split
    · rfl
    · simp [Except.map, Text.upper]
  · rfl

end Line

namespace Assembly

/-! ## Both passes -/

/-- A line is read alike in capitals, but for what an error quotes. -/
theorem readLine_upper (symbols : Symbols) (number address : Nat) (line : List Char) :
    readLine symbols number address (Text.upper line) =
      (readLine symbols number address line).mapError AssemblyError.inCapitals := by
  rw [readLine, readLine, Line.split_upper]
  have hlabel := Line.split_inCapitals line
  cases hsplit : Line.split line with
  | error cause =>
    rw [hsplit] at hlabel
    have hcause : cause.inCapitals = cause := Except.error.inj hlabel
    show Except.error _ = Except.error _
    rw [AssemblyError.inCapitals, hcause]
  | ok parts =>
    obtain ⟨label, body⟩ := parts
    simp only [Except.map]
    cases htable : define symbols number address label with
    | error e =>
      obtain ⟨name, -, -, rfl⟩ := define_eq_error_iff.1 htable
      rfl
    | ok symbols' =>
      simp only [Statement.parse_upper]
      cases Statement.parse body with
      | error e => cases e <;> rfl
      | ok statement => rfl

/-- The first pass goes alike over lines in capitals, but for what an error quotes. -/
theorem draft_upper (lines : List (List Char)) (symbols : Symbols) (number address : Nat) :
    draft symbols number address (lines.map Text.upper) =
      (draft symbols number address lines).mapError AssemblyError.inCapitals := by
  induction lines generalizing symbols number address with
  | nil => rfl
  | cons line lines ih =>
    rw [List.map_cons, draft, draft, readLine_upper]
    cases readLine symbols number address line with
    | error e => rfl
    | ok read =>
      obtain ⟨symbols', slots⟩ := read
      simp only [Except.mapError, ih]
      cases draft symbols' (number + 1) (address + slots.length) lines <;> rfl

/-- The errors of the second pass quote labels, which are in capitals already. -/
theorem resolve_inCapitals (symbols : Symbols) (slots : List Slot) :
    (resolve symbols slots).mapError AssemblyError.inCapitals = resolve symbols slots := by
  cases hwords : resolve symbols slots with
  | error e =>
    obtain ⟨number, name, -, rfl⟩ := resolve_eq_error_iff.1 hwords
    rfl
  | ok words => rfl

/-- A source is assembled alike in capitals, but for what an error quotes. -/
theorem assemble_upper (source : String) :
    assemble (Text.upperString source) =
      (assemble source).mapError AssemblyError.inCapitals := by
  rw [assemble, assemble, Text.upperString, String.toList_ofList, Text.lines_upper, draft_upper]
  cases draft [] 1 0 (Text.lines source.toList) with
  | error e => rfl
  | ok draft => exact (resolve_inCapitals draft.1 draft.2).symm

/-- **Layout does not matter.**  A text with its ASCII letters as capitals is assembled to the same
words, or refused with an error of the same kind on the same line.  Whatever is put behind a
semicolon at the end of a line changes nothing.  One line more, with nothing on it but blanks and a
comment, leaves the words as they are, or the kind of the error, and moves only the lines behind it
on by one. -/
theorem insensitive_to_layout (source : String) :
    Alike id (assemble source) (assemble (Text.upperString source)) ∧
    (∀ (front back : List (List Char)) (line blanks comment : List Char) (changed : String),
      Text.rows source.toList = front ++ (line ++ blanks) :: back →
      (∀ c ∈ blanks, Text.isBlank c = true) →
      Text.rows changed.toList = front ++ (line ++ ';' :: comment) :: back →
      assemble changed = assemble source) ∧
    ∀ (front back : List (List Char)) (line : List Char) (changed : String),
      Text.rows source.toList = front ++ back → Line.Idle line →
      Text.rows changed.toList = front ++ line :: back →
      Alike (pushed front.length) (assemble source) (assemble changed) := by
  refine ⟨?_, ?_, ?_⟩
  · rw [assemble_upper]
    exact alike_mapError AssemblyError.kind_inCapitals AssemblyError.line_inCapitals _
  · intro front back line blanks comment changed hsource hblanks hchanged
    exact assemble_comment hsource hblanks hchanged
  · intro front back line changed hsource hline hchanged
    rw [assemble_idle hsource hline hchanged]
    exact alike_mapError (AssemblyError.kind_renumber _) (AssemblyError.line_renumber _) _

/-- The one line of a text that asks for a label no line has is found again in each case. -/
theorem insensitive_to_layout_undefined :
    Alike id (.error (.undefinedLabel 2 "B")) (assemble "INC\nJMP B\r\n") ∧
      assemble "inc\njmp b;once\r\n" = .error (.undefinedLabel 2 "B") ∧
      Alike (pushed 1) (.error (.undefinedLabel 2 "B")) (assemble "inc\n\t; once\njmp b\r\n") := by
  have hsource : assemble "inc\njmp b\r\n" = .error (.undefinedLabel 2 "B") := by decide +kernel
  obtain ⟨hupper, hcomment, hidle⟩ := insensitive_to_layout "inc\njmp b\r\n"
  rw [hsource] at hupper hcomment hidle
  refine ⟨hupper, ?_, ?_⟩
  · exact hcomment ["inc".toList] [] "jmp b".toList "\r".toList "once\r".toList _
      (by decide +kernel) (List.all_eq_true.1 (by decide)) (by decide +kernel)
  · exact hidle ["inc".toList] ["jmp b\r".toList] "\t; once".toList _
      (by decide +kernel) (by decide +kernel) (by decide +kernel)

end Assembly

end TernaryMachine
