import TernaryMachine.Expression.Probe
import TernaryMachine.Numeral
import TernaryMachine.Text.Cut

/-!
# Conditions

A condition compares the value of a probe with a word: `acc >= 10`, `mem[4] == 0t+-`.  The
operators are looked for one after the other, those of two characters first, so `>=` is never
taken for `>`; what stands before the operator is the probe, what stands behind it the word.
The word is a decimal integer or a balanced ternary numeral marked by `0t`.
-/

set_option autoImplicit false

namespace TernaryMachine

/-- The ways to compare two words. -/
inductive Comparison where
  | eq
  | ne
  | ge
  | le
  | gt
  | lt
  deriving DecidableEq, Repr

namespace Comparison

/-- Every comparison, in the order in which the operators are looked for. -/
def all : List Comparison := [eq, ne, ge, le, gt, lt]

/-- The operator of a comparison. -/
def symbol : Comparison → String
  | eq => "=="
  | ne => "!="
  | ge => ">="
  | le => "<="
  | gt => ">"
  | lt => "<"

/-- Whether the comparison holds between two words. -/
def holds (op : Comparison) (left right : Word) : Bool :=
  match op with
  | eq => left == right
  | ne => left != right
  | ge => decide (right ≤ left)
  | le => decide (left ≤ right)
  | gt => decide (right < left)
  | lt => decide (left < right)

/-- The table of comparisons has every one of them. -/
theorem mem_all (op : Comparison) : op ∈ all := by
  cases op <;> simp [all]

end Comparison

/-- A comparison of a probed value with a word. -/
structure Condition where
  probe : Probe
  op : Comparison
  value : Word
  deriving DecidableEq, Repr

/-- The word that a text spells, in decimal or marked as balanced ternary. -/
def Expression.parseValue (s : List Char) : Except ExpressionError Word :=
  let trimmed := Text.trim s
  let read := match trimmed with
    | '0' :: 't' :: row | '0' :: 'T' :: row => (Numeral.parse (String.ofList row)).toOption
    | _ => Text.readWord? trimmed
  match read with
  | some w => .ok w
  | none => .error (.badValue (String.ofList trimmed))

namespace Condition

/-- Whether a condition holds; one on a cell outside memory never does. -/
def holds (c : Condition) (acc : Word) (cells : Array Word) : Bool :=
  match c.probe.read acc cells with
  | some w => c.op.holds w c.value
  | none => false

/-- A condition as it is shown. -/
def text (c : Condition) : String :=
  c.probe.text ++ " " ++ c.op.symbol ++ " " ++ c.value.decimal

/-- The first operator, in the order of `Comparison.all`, that stands in a text, with the text
before and behind it. -/
def divide? (s : List Char) : Option (Comparison × List Char × List Char) :=
  Comparison.all.findSome? fun op =>
    (Text.cut? op.symbol.toList s).map fun (before, behind) => (op, before, behind)

/-- The condition that a text spells. -/
def parse (s : List Char) : Except ExpressionError Condition :=
  match divide? s with
  | none => .error (.missingOperator (String.ofList (Text.trim s)))
  | some (op, before, behind) =>
    match Probe.parse before with
    | .error e => .error e
    | .ok probe =>
      match Expression.parseValue behind with
      | .error e => .error e
      | .ok value => .ok ⟨probe, op, value⟩

end Condition

end TernaryMachine
