import TernaryMachine.Numeral
import TernaryMachine.Opcode
import TernaryMachine.Text.Blank
import TernaryMachine.Text.Capital
import TernaryMachine.Text.Decimal

/-!
# Lines of assembly text

A line is an optional label, then an optional statement, then an optional comment:

```text
again:  STORE count   ; keep the rest
```

A semicolon opens the comment, the first colon ends the label, and a statement is a mnemonic
with at most one operand.  Labels and mnemonics are read in their capital form.  An operand is a
balanced ternary literal marked by `0t`, a decimal integer, or a label of ASCII letters, digits
and underscores.

`Line.split` cuts a line into label and body, and `Statement.parse` reads a body; both look at
one line only.
-/

set_option autoImplicit false

namespace TernaryMachine

/-- What stands in the operand position of a statement. -/
inductive Operand where
  /-- A word spelled out. -/
  | literal (w : Word)
  /-- The address of the line with this label. -/
  | label (name : String)
  deriving DecidableEq, Repr

/-- What a line asks for besides its label. -/
inductive Statement where
  | nothing
  | datum (operand : Operand)
  | plain (op : Opcode)
  | withOperand (op : Opcode) (operand : Operand)
  deriving DecidableEq, Repr

/-- Why the text of a line is not well formed. -/
inductive Malformed where
  /-- The text before the colon is empty or holds a blank. -/
  | badLabel (label : String)
  /-- A third word on the line. -/
  | unexpected (word : String)
  /-- A data statement without its value. -/
  | datumMissing
  /-- An instruction without the operand that it needs. -/
  | operandMissing (op : Opcode)
  /-- An operand behind an instruction that takes none. -/
  | operandSurplus (op : Opcode) (text : String)
  /-- An operand marked as a ternary literal that is not one. -/
  | badLiteral (source : NumeralError)
  /-- An operand that is neither a number nor a label. -/
  | badOperand (text : String)
  deriving DecidableEq, Repr

/-- The wording of what is wrong with a line. -/
def Malformed.message : Malformed → String
  | badLabel label => "bad label '" ++ label ++ "'"
  | unexpected word => "unexpected '" ++ word ++ "'"
  | datumMissing => "DAT requires a value"
  | operandMissing op => op.mnemonic ++ " requires an operand"
  | operandSurplus op text => op.mnemonic ++ " takes no operand, found '" ++ text ++ "'"
  | badLiteral source => "invalid ternary literal: " ++ source.message
  | badOperand text => "bad operand '" ++ text ++ "'"

/-- Why a statement cannot be read. -/
inductive StatementError where
  /-- The text is not well formed. -/
  | malformed (cause : Malformed)
  /-- No instruction has this name. -/
  | unknownMnemonic (name : String)
  deriving DecidableEq, Repr

/-- Whether a text is a label that an operand may name. -/
def Operand.isLabel : List Char → Bool
  | [] => false
  | c :: rest =>
    (c.isAlpha || c == '_') && (c :: rest).all fun d => d.isAlphanum || d == '_'

/-- The operand that a word of text spells. -/
def Operand.parse (text : List Char) : Except Malformed Operand :=
  match text with
  | '0' :: 't' :: row | '0' :: 'T' :: row =>
    match Numeral.parse (String.ofList row) with
    | .ok w => .ok (.literal w)
    | .error e => .error (.badLiteral e)
  | _ =>
    match Text.readWord? text with
    | some w => .ok (.literal w)
    | none =>
      if isLabel text then .ok (.label (String.ofList (Text.capitals text)))
      else .error (.badOperand (String.ofList text))

namespace Statement

/-- The statement of a mnemonic in capitals and the word behind it, if there is one. -/
def ofParts (mnemonic : String) (operand : Option (List Char)) :
    Except StatementError Statement :=
  if mnemonic = "DAT" ∨ mnemonic = "DATA" then
    match operand with
    | none => .error (.malformed .datumMissing)
    | some text =>
      match Operand.parse text with
      | .error cause => .error (.malformed cause)
      | .ok value => .ok (.datum value)
  else
    match Opcode.ofMnemonic? mnemonic with
    | none => .error (.unknownMnemonic mnemonic)
    | some op =>
      match op.hasOperand, operand with
      | true, some text =>
        match Operand.parse text with
        | .error cause => .error (.malformed cause)
        | .ok value => .ok (.withOperand op value)
      | true, none => .error (.malformed (.operandMissing op))
      | false, some text => .error (.malformed (.operandSurplus op (String.ofList text)))
      | false, none => .ok (.plain op)

/-- The statement that the body of a line spells. -/
def parse (body : List Char) : Except StatementError Statement :=
  match Text.words body with
  | [] => .ok .nothing
  | mnemonic :: rest =>
    match rest with
    | _ :: surplus :: _ => .error (.malformed (.unexpected (String.ofList surplus)))
    | _ => ofParts (String.ofList (Text.capitals mnemonic)) rest.head?

/-- The number of words that a statement takes in memory. -/
def width : Statement → Nat
  | nothing => 0
  | datum _ => 1
  | plain _ => 1
  | withOperand _ _ => 2

end Statement

namespace Line

/-- A line up to its comment, without the blanks at either end. -/
def code (line : List Char) : List Char := Text.trim (line.takeWhile (· != ';'))

/-- The label of a line, if it has one, and the body behind it. -/
def split (line : List Char) : Except Malformed (Option String × List Char) :=
  let code := code line
  if code.contains ':' then
    let label := Text.capitals (Text.trim (code.takeWhile (· != ':')))
    if label.isEmpty || label.any Text.isBlank then .error (.badLabel (String.ofList label))
    else .ok (some (String.ofList label), (code.dropWhile (· != ':')).drop 1)
  else .ok (none, code)

end Line

end TernaryMachine
