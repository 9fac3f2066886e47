import TernaryMachine.Machine.Basic

/-!
# Stepping

Before a step runs an instruction it passes a gate: a halted machine refuses, the limit of
instructions faults, a breakpoint pauses, and a program counter past the end of memory stops.
`Machine.gate` is that decision and `Machine.step` acts on it.  A machine paused at a breakpoint
address remembers the address, and the next step passes the gate there once.

`instructionCount_lt_of_gate` says that an instruction runs only below the limit.
-/

set_option autoImplicit false

namespace TernaryMachine

/-- What a step did that did not fail. -/
inductive Outcome where
  /-- An instruction ran and the next one can. -/
  | continued
  /-- The run stopped or paused. -/
  | halted (reason : HaltReason)
  deriving DecidableEq, Repr

/-- What a step meets before it runs an instruction. -/
inductive Gate where
  /-- The machine is halted. -/
  | refused
  /-- The limit of instructions is reached. -/
  | exhausted
  /-- A breakpoint at the program counter, at which the machine is not paused already. -/
  | breakpoint
  /-- No word at the program counter. -/
  | outside
  /-- A word to run. -/
  | run (word : Word)
  deriving DecidableEq, Repr

/-- How a run of several steps ended. -/
inductive RunStop where
  /-- The run stopped or paused. -/
  | halted (reason : HaltReason)
  /-- A step failed. -/
  | faulted (f : Fault)
  /-- All the steps asked for were taken. -/
  | budget
  deriving DecidableEq, Repr

/-- How many steps a run took without failing, and how it ended. -/
structure RunSummary where
  /-- The steps that did not fail. -/
  steps : Nat
  /-- How the run ended. -/
  stop : RunStop
  deriving DecidableEq, Repr

namespace Machine

/-- What the next step meets. -/
def gate (m : Machine) : Gate :=
  if m.state = .halted then .refused
  else if m.config.maxInstructions.toNat ≤ m.instructionCount then .exhausted
  else if m.resumeAt ≠ some m.registers.pc ∧ m.breakpoints.contains m.registers.pc = true then
    .breakpoint
  else
    match m.memory.peek? m.registers.pc with
    | none => .outside
    | some word => .run word

/-- Stops the run with a fault. -/
def fault (m : Machine) (f : Fault) : Machine × Except Fault Outcome :=
  (({ m with state := .halted } : Machine).notify (.fault f), .error f)

/-- Stops or pauses the run without a fault. -/
def halt (m : Machine) (reason : HaltReason) : Machine × Except Fault Outcome :=
  let state : RunState := if reason.isPause then .paused else .halted
  (({ m with state := state } : Machine).notify (.halt reason), .ok (.halted reason))

/-- The machine about to run a word: running, with the moment before recorded. -/
def fetch (m : Machine) (word : Word) : Machine :=
  { m with
    state := .running
    resumeAt := none
    history := m.history.record m.moment
    registers := { m.registers with ir := word } }

/-- Why the run ends after an instruction that sent control this way, if it does. -/
def reasonAfter (m : Machine) (flow : Flow) : Option HaltReason :=
  match flow with
  | .halt => some .haltInstruction
  | .endOfMemory => some .endOfMemory
  | _ =>
    if m.memory.size ≤ m.registers.pc then some .endOfMemory
    else (m.breakpoints.firstHit m.registers.acc m.memory.cells).map .condition

/-- The machine after an instruction that left this core and sent control this way. -/
def complete (m : Machine) (core : Core) (flow : Flow) : Machine :=
  { m with toCore := core.follow flow, instructionCount := m.instructionCount + 1 }

/-- Runs a word that has passed the gate. -/
def runWord (m : Machine) (word : Word) : Machine × Except Fault Outcome :=
  let m := m.fetch word
  match m.toCore.execute m.config.maxCallDepth.toNat word with
  | (core, .error f) => ({ m with toCore := core } : Machine).fault f
  | (core, .ok flow) =>
    let m := m.complete core flow
    match m.reasonAfter flow with
    | none => (m.notifyState, .ok .continued)
    | some reason => m.notifyState.halt reason

/-- Takes one step. -/
def step (m : Machine) : Machine × Except Fault Outcome :=
  match m.gate with
  | .refused => (m, .error (.notRunning m.state))
  | .exhausted => m.fault (.instructionLimit m.config.maxInstructions.toNat)
  | .breakpoint =>
    ({ m with resumeAt := some m.registers.pc } : Machine).halt (.breakpoint m.registers.pc)
  | .outside => ({ m with resumeAt := none } : Machine).halt (.pcOutOfBounds m.registers.pc)
  | .run word => m.runWord word

/-- Takes the latest recorded step back. -/
def stepBack (m : Machine) : Except Refusal Machine :=
  match m.history.pop? with
  | none => .error .noHistory
  | some (moment, history) =>
    .ok (notifyState
      { m with
        registers := moment.registers
        memory := m.memory.restore moment.cells
        callStack := moment.callStack
        instructionCount := moment.instructionCount
        state := .running
        resumeAt := none
        history := history })

/-- Takes up to `budget` steps, counting from `taken`. -/
def runFrom (taken : Nat) : Nat → Machine → Machine × RunSummary
  | 0, m => (m, ⟨taken, .budget⟩)
  | budget + 1, m =>
    match m.step with
    | (m, .ok .continued) => runFrom (taken + 1) budget m
    | (m, .ok (.halted reason)) => (m, ⟨taken + 1, .halted reason⟩)
    | (m, .error f) => (m, ⟨taken, .faulted f⟩)

/-- Takes steps until the run stops or `budget` of them are taken. -/
def run (budget : Nat) (m : Machine) : Machine × RunSummary := runFrom 0 budget m

/-- An instruction is run only below the limit. -/
theorem instructionCount_lt_of_gate {m : Machine} {word : Word} (h : m.gate = .run word) :
    m.instructionCount < m.config.maxInstructions.toNat := by
  unfold gate at h
  split at h
  · cases h
  · split at h
    · cases h
    · next hlt => exact Nat.lt_of_not_le hlt

end Machine

end TernaryMachine
