import TernaryMachine.History
import TernaryMachine.Memory
import TernaryMachine.Opcode

/-!
# The execution core

The core is what instructions work on: registers, memory and call stack.  `Core.execute` runs
one fetched word and says where control goes; it moves the program counter only over an operand
word, the rest is left to the caller.  A word that is no opcode does nothing, and so does an
instruction whose operand addresses no cell, a call with a full stack excepted.

An instruction that faults gives back the core as it was at the fault.
-/

set_option autoImplicit false

namespace TernaryMachine

/-- The states of a machine. -/
inductive RunState where
  /-- Built or reset, and not yet run. -/
  | idle
  /-- In the middle of a program. -/
  | running
  /-- Stopped until it is reset. -/
  | halted
  /-- Stopped by a breakpoint; the next step goes on. -/
  | paused
  deriving DecidableEq, Repr

/-- The name of a state in reports. -/
def RunState.name : RunState → String
  | idle => "Idle"
  | running => "Running"
  | halted => "Halted"
  | paused => "Paused"

/-- Why a step fails. -/
inductive Fault where
  /-- The machine takes no steps in this state. -/
  | notRunning (state : RunState)
  /-- The limit of instructions is reached. -/
  | instructionLimit (limit : Nat)
  /-- A call with as many returns open as allowed. -/
  | callStackOverflow (depth : Nat)
  /-- A return without a call. -/
  | emptyCallStack
  /-- A memory access that is refused. -/
  | memory (cause : MemoryError)
  deriving DecidableEq, Repr

/-- The wording of a fault. -/
def Fault.message : Fault → String
  | notRunning state => "VM not running: " ++ state.name
  | instructionLimit limit =>
    "Instruction limit of " ++ limit.repr ++ " reached (possible infinite loop)"
  | callStackOverflow depth => "Call stack overflow (max depth " ++ depth.repr ++ ")"
  | emptyCallStack => "Return with empty call stack"
  | memory cause => cause.message

/-- Where control goes after an instruction. -/
inductive Flow where
  /-- To the word behind the instruction. -/
  | next
  /-- To an address. -/
  | jump (target : Nat)
  /-- Nowhere: the program stops. -/
  | halt
  /-- Nowhere: the operand word lies past the end of memory. -/
  | endOfMemory
  deriving DecidableEq, Repr

/-- What instructions work on. -/
structure Core where
  /-- The registers. -/
  registers : Registers
  /-- The memory. -/
  memory : Memory
  /-- The addresses to return to, latest call first. -/
  callStack : List Nat
  deriving DecidableEq

namespace Core

/-- The core with the program counter one word on. -/
def advance (c : Core) : Core :=
  { c with registers := { c.registers with pc := c.registers.pc + 1 } }

/-- The core with another accumulator. -/
def setAcc (c : Core) (w : Word) : Core := { c with registers := { c.registers with acc := w } }

/-- A jump to the target if the condition holds and there is a target. -/
def jumpIf (condition : Bool) (target : Option Nat) : Flow :=
  match target with
  | some a => if condition then .jump a else .next
  | none => .next

/-- Loads the accumulator from a cell, if one is given. -/
def loadFrom (c : Core) : Option Nat → Core × Except Fault Flow
  | none => (c, .ok .next)
  | some a =>
    match c.memory.load a with
    | .error e => (c, .error (.memory e))
    | .ok (w, memory) => ({ c.setAcc w with memory := memory }, .ok .next)

/-- Stores the accumulator into a cell, if one is given. -/
def storeTo (c : Core) : Option Nat → Core × Except Fault Flow
  | none => (c, .ok .next)
  | some a =>
    match c.memory.store a c.registers.acc with
    | .error e => (c, .error (.memory e))
    | .ok memory => ({ c with memory := memory }, .ok .next)

/-- Runs `access` on the cell that the pointer in a cell addresses, if one is given; reading
the pointer is an access of its own. -/
def through (c : Core) (pointer : Option Nat)
    (access : Core → Option Nat → Core × Except Fault Flow) : Core × Except Fault Flow :=
  match pointer with
  | none => access c none
  | some p =>
    match c.memory.load p with
    | .error e => (c, .error (.memory e))
    | .ok (w, memory) => access { c with memory := memory } (memory.address? w)

/-- Runs an opcode with its operand; the program counter is on the last word of the
instruction. -/
def perform (c : Core) (maxDepth : Nat) (op : Opcode) (operand : Word) :
    Core × Except Fault Flow :=
  let acc := c.registers.acc
  let target := c.memory.address? operand
  match op with
  | .halt => (c, .ok .halt)
  | .jmp => (c, .ok (jumpIf true target))
  | .jz => (c, .ok (jumpIf (acc == 0) target))
  | .jnz => (c, .ok (jumpIf (acc != 0) target))
  | .jnp => (c, .ok (jumpIf (0 < acc) target))
  | .call =>
    if maxDepth ≤ c.callStack.length then (c, .error (.callStackOverflow maxDepth))
    else
      match target with
      | some a => ({ c with callStack := (c.registers.pc + 1) :: c.callStack }, .ok (.jump a))
      | none => (c, .ok .next)
  | .ret =>
    match c.callStack with
    | [] => (c, .error .emptyCallStack)
    | a :: rest => ({ c with callStack := rest }, .ok (.jump a))
  | .add => (c.setAcc (acc + operand), .ok .next)
  | .sub => (c.setAcc (acc - operand), .ok .next)
  | .shl => (c.setAcc (acc * 3), .ok .next)
  | .shr => (c.setAcc (Word.floorThird acc), .ok .next)
  | .neg => (c.setAcc (-acc), .ok .next)
  | .inc => (c.setAcc (acc + 1), .ok .next)
  | .dec => (c.setAcc (acc - 1), .ok .next)
  | .load => c.loadFrom target
  | .store => c.storeTo target
  | .loadi => c.through target loadFrom
  | .storei => c.through target storeTo

/-- Runs a word fetched from where the program counter is. -/
def execute (c : Core) (maxDepth : Nat) (word : Word) : Core × Except Fault Flow :=
  match Opcode.decode? word with
  | none => (c, .ok .next)
  | some op =>
    if op.hasOperand then
      let c := c.advance
      match c.memory.peek? c.registers.pc with
      | none => (c, .ok .endOfMemory)
      | some operand => c.perform maxDepth op operand
    else c.perform maxDepth op 0

/-- Moves the program counter as an instruction asks. -/
def follow (c : Core) : Flow → Core
  | .next => c.advance
  | .jump a => { c with registers := { c.registers with pc := a } }
  | .halt => c
  | .endOfMemory => c

end Core

end TernaryMachine
