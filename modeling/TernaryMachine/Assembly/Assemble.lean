import TernaryMachine.Assembly.Line
import TernaryMachine.Program

/-!
# Assembling

Assembling goes over the text twice.  The first pass turns every line into draft slots, each a
word or a reference to a label, and notes the address of every label; it stops at the first
line that cannot be read or whose label is taken.  The second pass puts addresses in the place
of references; it stops at the first label without an address.

`length_ofStatement` says that a statement takes as many slots as its width.
-/

set_option autoImplicit false

namespace TernaryMachine

/-- Why a text cannot be assembled; lines count from one. -/
inductive AssemblyError where
  /-- A line is not well formed. -/
  | malformed (line : Nat) (cause : Malformed)
  /-- A line names no instruction. -/
  | unknownMnemonic (line : Nat) (name : String)
  /-- An operand names a label that no line has. -/
  | undefinedLabel (line : Nat) (label : String)
  /-- A label that an earlier line has already. -/
  | duplicateLabel (line : Nat) (label : String)
  deriving DecidableEq, Repr

/-- The line that an assembly error is about. -/
def AssemblyError.line : AssemblyError → Nat
  | malformed line _ => line
  | unknownMnemonic line _ => line
  | undefinedLabel line _ => line
  | duplicateLabel line _ => line

/-- The wording of an assembly error. -/
def AssemblyError.message : AssemblyError → String
  | malformed line cause => "syntax error on line " ++ line.repr ++ ": " ++ cause.message
  | unknownMnemonic line name => "unknown mnemonic on line " ++ line.repr ++ ": " ++ name
  | undefinedLabel line label => "undefined label on line " ++ line.repr ++ ": " ++ label
  | duplicateLabel line label => "duplicate label on line " ++ line.repr ++ ": " ++ label

/-- A statement error at a line. -/
def StatementError.atLine (number : Nat) : StatementError → AssemblyError
  | malformed cause => .malformed number cause
  | unknownMnemonic name => .unknownMnemonic number name

namespace Assembly

/-- A word of the result, or what its place waits for. -/
inductive Slot where
  /-- A word that is known. -/
  | word (w : Word)
  /-- The address of a label, asked for on a line. -/
  | reference (label : String) (line : Nat)
  deriving DecidableEq, Repr

/-- The labels found so far and their addresses. -/
abbrev Symbols := List (String × Nat)

/-- The slot of an operand on a line. -/
def Slot.ofOperand (number : Nat) : Operand → Slot
  | .literal w => .word w
  | .label name => .reference name number

/-- The slots of a statement on a line. -/
def Slot.ofStatement (number : Nat) : Statement → List Slot
  | .nothing => []
  | .datum operand => [ofOperand number operand]
  | .plain op => [.word op.encode]
  | .withOperand op operand => [.word op.encode, ofOperand number operand]

/-- The symbols after a line with the given label at the given address. -/
def define (symbols : Symbols) (number address : Nat) :
    Option String → Except AssemblyError Symbols
  | none => .ok symbols
  | some label =>
    match symbols.lookup label with
    | some _ => .error (.duplicateLabel number label)
    | none => .ok ((label, address) :: symbols)

/-- The symbols after a line and the slots that it adds, when the line has the given number
and its first slot the given address. -/
def readLine (symbols : Symbols) (number address : Nat) (line : List Char) :
    Except AssemblyError (Symbols × List Slot) :=
  match Line.split line with
  | .error cause => .error (.malformed number cause)
  | .ok (label, body) =>
    match define symbols number address label with
    | .error e => .error e
    | .ok symbols =>
      match Statement.parse body with
      | .error e => .error (e.atLine number)
      | .ok statement => .ok (symbols, Slot.ofStatement number statement)

/-- The first pass: the symbols of all lines and their slots in order. -/
def draft (symbols : Symbols) (number address : Nat) :
    List (List Char) → Except AssemblyError (Symbols × List Slot)
  | [] => .ok (symbols, [])
  | line :: rest =>
    match readLine symbols number address line with
    | .error e => .error e
    | .ok (symbols, slots) =>
      (draft symbols (number + 1) (address + slots.length) rest).map fun (symbols, more) =>
        (symbols, slots ++ more)

/-- The word of a slot. -/
def Slot.resolve (symbols : Symbols) : Slot → Except AssemblyError Word
  | word w => .ok w
  | reference label line =>
    match symbols.lookup label with
    | some address => .ok (Int64.ofNat address)
    | none => .error (.undefinedLabel line label)

/-- The second pass: the words of all slots. -/
def resolve (symbols : Symbols) : List Slot → Except AssemblyError (List Word)
  | [] => .ok []
  | slot :: rest =>
    match slot.resolve symbols with
    | .error e => .error e
    | .ok w => (resolve symbols rest).map (w :: ·)

/-- The words that an assembly text stands for. -/
def assemble (source : String) : Except AssemblyError (List Word) :=
  match draft [] 1 0 (Text.lines source.toList) with
  | .error e => .error e
  | .ok (symbols, slots) => resolve symbols slots

/-- A statement takes as many slots as it is wide. -/
theorem length_ofStatement (number : Nat) (statement : Statement) :
    (Slot.ofStatement number statement).length = statement.width := by
  cases statement <;> rfl

end Assembly

end TernaryMachine
