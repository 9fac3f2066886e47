import TernaryMachine.Breakpoints
import TernaryMachine.Config.Basic
import TernaryMachine.Expression.Watch
import TernaryMachine.Machine.Core
import TernaryMachine.Program

/-!
# The machine

A machine is an execution core with what is needed to run and debug it: how far it is, where it
paused, its history, its breakpoints and watches, its configuration, and the observers that are
told what happens.  This module builds, loads and sets up machines; stepping is in
`TernaryMachine.Machine.Step`.

Loading begins with a reset.  A reset brings back what a new machine of the present
configuration has, and keeps breakpoints, watches and observers.
-/

set_option autoImplicit false

namespace TernaryMachine

/-- Why a run stopped or paused without a fault. -/
inductive HaltReason where
  /-- The halt instruction was run. -/
  | haltInstruction
  /-- The program counter was past the end of memory before a step. -/
  | pcOutOfBounds (pc : Nat)
  /-- The program ran past the last word of memory. -/
  | endOfMemory
  /-- A breakpoint address was reached; the instruction there has not been run. -/
  | breakpoint (address : Nat)
  /-- A condition holds after an instruction. -/
  | condition (c : Condition)
  deriving DecidableEq, Repr

namespace HaltReason

/-- Whether the run is only paused. -/
def isPause : HaltReason → Bool
  | breakpoint _ => true
  | condition _ => true
  | _ => false

/-- The wording of a reason. -/
def message : HaltReason → String
  | haltInstruction => "Halt instruction (0) encountered"
  | pcOutOfBounds pc => "Program counter out of bounds (" ++ pc.repr ++ ")"
  | endOfMemory => "End of memory reached"
  | breakpoint address => "Breakpoint hit at address " ++ address.repr
  | condition c => "Conditional breakpoint hit: " ++ c.text

end HaltReason

/-- What observers are told. -/
inductive Event where
  /-- The machine ran or took back a step; now it has this program counter and accumulator. -/
  | stateChange (pc : Nat) (acc : Word)
  /-- The run stopped with a fault. -/
  | fault (f : Fault)
  /-- The run stopped or paused without a fault. -/
  | halt (reason : HaltReason)
  deriving DecidableEq, Repr

/-- Something that is told every event. -/
inductive Observer where
  /-- A log of the events told so far, latest first. -/
  | log (latestFirst : List Event)
  /-- An observer that does nothing with them. -/
  | quiet
  deriving DecidableEq, Repr

namespace Observer

/-- Tells an observer an event. -/
def tell (event : Event) : Observer → Observer
  | log latestFirst => log (event :: latestFirst)
  | quiet => quiet

/-- The events of a log, oldest first; `none` for an observer that keeps none. -/
def events? : Observer → Option (List Event)
  | log latestFirst => some latestFirst.reverse
  | quiet => none

/-- An observer after its log has been emptied. -/
def drained : Observer → Observer
  | log _ => log []
  | quiet => quiet

end Observer

/-- Why a machine refuses an operation other than a step. -/
inductive Refusal where
  /-- There is no step to take back. -/
  | noHistory
  /-- Memory cannot change its size in the middle of a program. -/
  | resizeWhileRunning
  deriving DecidableEq, Repr

/-- The wording of a refusal. -/
def Refusal.message : Refusal → String
  | noHistory => "No history to step back to"
  | resizeWhileRunning => "Cannot change memory size while running"

/-- A machine. -/
structure Machine extends Core where
  /-- The number of instructions run. -/
  instructionCount : Nat
  /-- The state of the machine. -/
  state : RunState
  /-- The breakpoint that the machine is paused at, if the next step goes on from there. -/
  resumeAt : Option Nat
  /-- The steps that can be taken back. -/
  history : History
  /-- Where and when to pause. -/
  breakpoints : Breakpoints
  /-- The places shown, in order. -/
  watches : List Watch
  /-- The configuration. -/
  config : Config
  /-- The observers, in the order in which they came. -/
  observers : List Observer
  deriving DecidableEq

namespace Machine

/-- A new machine of a configuration. -/
def new (config : Config) : Machine where
  registers := {}
  memory := (Memory.fresh config.memorySize).setTracking config.heatmapEnabled
  callStack := []
  instructionCount := 0
  state := .idle
  resumeAt := none
  history := .fresh config.maxHistory.toNat config.historyEnabled
  breakpoints := .none
  watches := []
  config := config
  observers := []

/-- Brings the machine back to its beginning, with empty memory. -/
def reset (m : Machine) : Machine :=
  { m with
    registers := {}
    memory := m.memory.clear
    callStack := []
    instructionCount := 0
    state := .idle
    resumeAt := none
    history := m.history.clear }

/-- Resets the machine and puts words into memory from address 0. -/
def loadWords (m : Machine) (words : List Word) : Machine :=
  let m := m.reset
  { m with memory := m.memory.loadImage words }

/-- Resets the machine and puts the words of a program text into memory; after a text that is
no program the machine is just reset. -/
def loadProgram (m : Machine) (text : String) : Machine × Except ProgramError Nat :=
  match Program.parse text with
  | .error e => (m.reset, .error e)
  | .ok words => (m.loadWords words, .ok (m.memory.imageFit words))

/-- Resets the machine with memory of another size; refused in the middle of a program. -/
def resize (m : Machine) (size : MemorySize) : Except Refusal Machine :=
  if m.state = .running then .error .resizeWhileRunning
  else
    .ok (reset
      { m with
        config := { m.config with memorySize := size }
        memory := (Memory.fresh size).setTracking m.config.heatmapEnabled })

/-- The machine with other memory. -/
def withMemory (m : Machine) (memory : Memory) : Machine := { m with memory := memory }

/-- Adds an observer behind the others. -/
def attach (m : Machine) (observer : Observer) : Machine :=
  { m with observers := m.observers ++ [observer] }

/-- Tells all observers an event. -/
def notify (m : Machine) (event : Event) : Machine :=
  { m with observers := m.observers.map (Observer.tell event) }

/-- Empties all logs. -/
def drainLogs (m : Machine) : Machine := { m with observers := m.observers.map Observer.drained }

/-- Tells all observers where the machine is. -/
def notifyState (m : Machine) : Machine :=
  m.notify (.stateChange m.registers.pc m.registers.acc)

/-- Turns the history on or off. -/
def setHistoryEnabled (m : Machine) (on : Bool) : Machine :=
  { m with config := { m.config with historyEnabled := on }, history := m.history.setEnabled on }

/-- Changes the number of steps that can be taken back. -/
def setMaxHistory (m : Machine) (limit : UInt64) : Machine :=
  { m with
    config := { m.config with maxHistory := limit }
    history := m.history.setCapacity limit.toNat }

/-- Turns the counting of accesses on or off. -/
def setHeatmapEnabled (m : Machine) (on : Bool) : Machine :=
  { m with config := { m.config with heatmapEnabled := on }, memory := m.memory.setTracking on }

/-- Changes the greatest depth of nested calls. -/
def setMaxCallDepth (m : Machine) (limit : UInt64) : Machine :=
  { m with config := { m.config with maxCallDepth := limit } }

/-- Changes the limit of instructions. -/
def setMaxInstructions (m : Machine) (limit : UInt64) : Machine :=
  { m with config := { m.config with maxInstructions := limit } }

/-- The present readings of all watches. -/
def readings (m : Machine) : List Reading :=
  m.watches.map (Watch.read m.registers.acc m.memory.cells)

/-- What the machine looks like now. -/
def moment (m : Machine) : Moment where
  registers := m.registers
  cells := m.memory.cells
  callStack := m.callStack
  instructionCount := m.instructionCount

/-- A summary of the machine in one line. -/
def summary (m : Machine) : String :=
  let stack := ", ".intercalate (m.callStack.reverse.map Nat.repr)
  "Vm \x7b state: " ++ m.state.name ++
    ", instruction_count: " ++ m.instructionCount.repr ++
    ", regs: Registers \x7b acc: " ++ m.registers.acc.decimal ++
    ", pc: " ++ m.registers.pc.repr ++ ", ir: " ++ m.registers.ir.decimal ++
    " \x7d, call_stack: [" ++ stack ++ "], history: " ++ m.history.length.repr ++
    ", observers: " ++ m.observers.length.repr ++ " \x7d"

end Machine

end TernaryMachine
