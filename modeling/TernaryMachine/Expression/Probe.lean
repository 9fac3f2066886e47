import TernaryMachine.Text.Blank
import TernaryMachine.Text.Decimal
import TernaryMachine.Word

/-!
# Probes

A probe names a place of the machine whose value can be looked at: the accumulator or a memory
cell.  In text it is `acc` or `mem[N]`, in small or capital letters, and it is shown as `ACC`
or `MEM[N]`.  A probe of a cell outside memory is well formed; it just has no value.
-/

set_option autoImplicit false

namespace TernaryMachine

/-- Why a text is no debugger expression. -/
inductive ExpressionError where
  /-- The text names no place of the machine. -/
  | unknownLocation (text : String)
  /-- The text between the brackets is no address. -/
  | badAddress (text : String)
  /-- The text is no word. -/
  | badValue (text : String)
  /-- No comparison operator stands in the text. -/
  | missingOperator (text : String)
  deriving DecidableEq, Repr

/-- The wording of an expression error. -/
def ExpressionError.message : ExpressionError → String
  | unknownLocation text => "unknown location '" ++ text ++ "' (expected 'acc' or 'mem[N]')"
  | badAddress text => "bad memory address '" ++ text ++ "'"
  | badValue text => "bad value '" ++ text ++ "'"
  | missingOperator text => "missing comparison operator in '" ++ text ++ "'"

/-- A place of the machine whose value can be looked at. -/
inductive Probe where
  /-- The accumulator. -/
  | accumulator
  /-- A memory cell. -/
  | memory (address : UInt64)
  deriving DecidableEq, Repr

namespace Probe

/-- The value of a place, if it has one. -/
def read (acc : Word) (cells : Array Word) : Probe → Option Word
  | accumulator => some acc
  | memory address => cells[address.toNat]?

/-- A probe as it is shown. -/
def text : Probe → String
  | accumulator => "ACC"
  | memory address => "MEM[" ++ address.toNat.repr ++ "]"

/-- The text between `mem[` and a closing bracket at the very end. -/
def bracketed? (s : List Char) : Option (List Char) :=
  let opening := "mem[".toList
  let rest := s.drop opening.length
  if opening.isPrefixOf s ∧ rest.getLast? = some ']' then some rest.dropLast else none

/-- The probe that a text names. -/
def parse (s : List Char) : Except ExpressionError Probe :=
  let trimmed := Text.trim s
  let lower := trimmed.map Char.toLower
  if lower = "acc".toList then .ok accumulator
  else
    match bracketed? lower with
    | none => .error (.unknownLocation (String.ofList trimmed))
    | some inner =>
      match Text.readUnsigned? (Text.trim inner) with
      | none => .error (.badAddress (String.ofList (Text.trim inner)))
      | some address => .ok (memory address)

end Probe

end TernaryMachine
