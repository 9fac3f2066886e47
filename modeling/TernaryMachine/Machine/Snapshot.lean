import TernaryMachine.Json.Record
import TernaryMachine.Machine.Basic

/-!
# Snapshots

A snapshot is a copy of all that a front end shows of a machine, with a JSON record.
-/

set_option autoImplicit false

namespace TernaryMachine

/-- All that a front end shows of a machine; the earliest call comes first. -/
structure Snapshot where
  registers : Registers
  cells : List Word
  callStack : List Nat
  breakpoints : List Nat
  conditions : List Condition
  readings : List Reading
  historySize : Nat
  instructionCount : Nat
  state : RunState
  guarded : List Nat
  counts : List Nat
  deriving DecidableEq

/-- The snapshot of a machine. -/
def Machine.snapshot (m : Machine) : Snapshot where
  registers := m.registers
  cells := m.memory.cells.toList
  callStack := m.callStack.reverse
  breakpoints := m.breakpoints.addresses.toList
  conditions := m.breakpoints.conditions
  readings := m.readings
  historySize := m.history.length
  instructionCount := m.instructionCount
  state := m.state
  guarded := m.memory.guarded.toList
  counts := m.memory.counts.toList

/-- The record of a snapshot. -/
def Snapshot.toJson (s : Snapshot) : Json :=
  .object [
    ("accumulator", s.registers.acc.toJson),
    ("program_counter", .nat s.registers.pc),
    ("instruction_register", s.registers.ir.toJson),
    ("memory", .list Word.toJson s.cells),
    ("call_stack", .list .nat s.callStack),
    ("breakpoints", .list .nat s.breakpoints),
    ("conditional_breakpoints", .list Condition.toJson s.conditions),
    ("watches", .list Reading.toJson s.readings),
    ("history_size", .nat s.historySize),
    ("instruction_count", .nat s.instructionCount),
    ("running", .bool (s.state == .running)),
    ("state", .text s.state.name),
    ("protected", .list .nat s.guarded),
    ("access_counts", .list .nat s.counts)]

end TernaryMachine
