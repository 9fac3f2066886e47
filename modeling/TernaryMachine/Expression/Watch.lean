import TernaryMachine.Expression.Probe
import TernaryMachine.Text.Cut

/-!
# Watches

A watch is a probe that is shown again and again, with a label if it has one: `mem[3]`, or
`mem[3] as total`.  The first ` as ` divides probe and label, and the label is trimmed.
-/

set_option autoImplicit false

namespace TernaryMachine

/-- A probe that is shown, perhaps under a label. -/
structure Watch where
  probe : Probe
  label : Option String
  deriving DecidableEq, Repr

/-- The value of a watch at one moment, under its name. -/
structure Reading where
  name : String
  value : Option Word
  deriving DecidableEq, Repr

/-- A reading as it is shown. -/
def Reading.text (r : Reading) : String :=
  match r.value with
  | some w => r.name ++ " = " ++ w.decimal
  | none => r.name ++ " = unavailable"

namespace Watch

/-- The name that a watch is shown under. -/
def name (w : Watch) : String := w.label.getD w.probe.text

/-- The present reading of a watch. -/
def read (acc : Word) (cells : Array Word) (w : Watch) : Reading :=
  ⟨w.name, w.probe.read acc cells⟩

/-- The watch that a text spells. -/
def parse (s : List Char) : Except ExpressionError Watch :=
  match Text.cut? " as ".toList s with
  | none => (Probe.parse s).map fun probe => ⟨probe, none⟩
  | some (before, behind) =>
    (Probe.parse before).map fun probe => ⟨probe, some (String.ofList (Text.trim behind))⟩

end Watch

end TernaryMachine
