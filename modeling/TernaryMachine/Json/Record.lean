import TernaryMachine.Json.Value
import TernaryMachine.Machine.Basic

/-!
# JSON records

The JSON form of the values that a debugger exchanges with its surroundings.  A value without
parts is its name; one with parts is an object with its parts, in a fixed order.
-/

set_option autoImplicit false

namespace TernaryMachine

/-- A word as a JSON number. -/
def Word.toJson (w : Word) : Json := .int w.toInt

/-- The name of a digit in records. -/
def Trit.toJson (t : Trit) : Json := .text t.letter.toString

/-- The name of an opcode in records. -/
def Opcode.recordName : Opcode → String
  | halt => "Halt"
  | add => "Add"
  | sub => "Sub"
  | load => "Load"
  | store => "Store"
  | jmp => "Jmp"
  | jz => "Jz"
  | jnz => "Jnz"
  | jnp => "Jnp"
  | shl => "Shl"
  | shr => "Shr"
  | call => "Call"
  | ret => "Ret"
  | neg => "Neg"
  | inc => "Inc"
  | dec => "Dec"
  | loadi => "LoadI"
  | storei => "StoreI"

/-- The name of a comparison in records. -/
def Comparison.recordName : Comparison → String
  | eq => "Eq"
  | ne => "Ne"
  | ge => "Ge"
  | le => "Le"
  | gt => "Gt"
  | lt => "Lt"

/-- The record of a probe. -/
def Probe.toJson : Probe → Json
  | accumulator => .text "Accumulator"
  | memory address => .object [("Memory", .nat address.toNat)]

/-- The record of a condition. -/
def Condition.toJson (c : Condition) : Json :=
  .object [("probe", c.probe.toJson), ("op", .text c.op.recordName), ("value", c.value.toJson)]

/-- The record of a watch. -/
def Watch.toJson (w : Watch) : Json :=
  .object [("probe", w.probe.toJson), ("label", .optional .text w.label)]

/-- The record of a reading. -/
def Reading.toJson (r : Reading) : Json :=
  .object [("name", .text r.name), ("value", .optional Word.toJson r.value)]

/-- The record of a reason to stop. -/
def HaltReason.toJson : HaltReason → Json
  | haltInstruction => .text "HaltInstruction"
  | pcOutOfBounds pc => .object [("PcOutOfBounds", .nat pc)]
  | endOfMemory => .text "EndOfMemory"
  | breakpoint address => .object [("Breakpoint", .nat address)]
  | condition c => .object [("Condition", c.toJson)]

/-- The record of the registers. -/
def Registers.toJson (r : Registers) : Json :=
  .object [("acc", r.acc.toJson), ("pc", .nat r.pc), ("ir", r.ir.toJson)]

/-- The record of a moment; the earliest call comes first. -/
def Moment.toJson (m : Moment) : Json :=
  .object [
    ("regs", m.registers.toJson),
    ("memory", .list Word.toJson m.cells.toList),
    ("call_stack", .list .nat m.callStack.reverse),
    ("instruction_count", .nat m.instructionCount)]

end TernaryMachine
