import TernaryMachine.Assembly.Assemble
import TernaryMachine.Config.Text
import TernaryMachine.Listing
import TernaryMachine.Machine.Snapshot
import TernaryMachine.Machine.Step

/-!
# Embedding a machine

A page that embeds a machine owns the run loop: it asks for one step after another until the
answer is that the run has stopped.  Every other call answers with a plain value, or fails with
the wording of what is wrong; a call that fails keeps no embedding back, so the page goes on with
the one it has.
-/

set_option autoImplicit false

namespace TernaryMachine

/-- A machine as a page holds it. -/
structure Embedding where
  machine : Machine
  deriving DecidableEq

namespace Embedding

/-- What went wrong, in words, in the place of the error. -/
def wording {ε α : Type} (message : ε → String) : Except ε α → Except String α
  | .ok a => .ok a
  | .error e => .error (message e)

/-- A machine with the given number of words and defaults for the rest. -/
def ofSize (words : Nat) : Except String Embedding :=
  wording MemoryError.message <|
    (MemorySize.ofWords words).map fun size => ⟨.new { memorySize := size }⟩

/-- A machine of a configuration text. -/
def ofConfig (text : String) : Except String Embedding :=
  wording ConfigError.message <| (Config.parse text).map fun config => ⟨.new config⟩

/-- The embedding with the page's own callbacks told every event. -/
def setCallbacks (e : Embedding) : Embedding := ⟨e.machine.attach .quiet⟩

/-- Loads a program text; the machine is reset even if the text is no program. -/
def load (e : Embedding) (text : String) : Embedding × Except String Nat :=
  let (machine, answer) := e.machine.loadProgram text
  (⟨machine⟩, wording ProgramError.message answer)

/-- Assembles and loads an assembly text. -/
def loadAssembly (e : Embedding) (source : String) : Except String (Embedding × Nat) :=
  wording AssemblyError.message <| (Assembly.assemble source).map fun words =>
    (⟨e.machine.loadWords words⟩, e.machine.memory.imageFit words)

/-- Takes a step and tells whether the run goes on. -/
def step (e : Embedding) : Embedding × Bool :=
  match e.machine.step with
  | (machine, .ok .continued) => (⟨machine⟩, true)
  | (machine, _) => (⟨machine⟩, false)

/-- Takes the latest step back. -/
def stepBack (e : Embedding) : Except String Embedding :=
  wording Refusal.message <| e.machine.stepBack.map Embedding.mk

/-- Resets the machine. -/
def reset (e : Embedding) : Embedding := ⟨e.machine.reset⟩

/-- Resets the machine with memory of another size. -/
def resize (e : Embedding) (words : Nat) : Except String Embedding :=
  match MemorySize.ofWords words with
  | .error cause => .error cause.message
  | .ok size => wording Refusal.message <| (e.machine.resize size).map Embedding.mk

/-- Sets or removes a breakpoint and tells whether it is set now. -/
def toggleBreakpoint (e : Embedding) (a : Nat) : Embedding × Bool :=
  let breakpoints := e.machine.breakpoints.toggle a
  (⟨{ e.machine with breakpoints := breakpoints }⟩, breakpoints.contains a)

/-- Adds the condition that a text spells. -/
def addCondition (e : Embedding) (text : String) : Except String Embedding :=
  wording ExpressionError.message <| (Condition.parse text.toList).map fun c =>
    ⟨{ e.machine with breakpoints := e.machine.breakpoints.addCondition c }⟩

/-- Removes a condition and tells whether there was one. -/
def removeCondition (e : Embedding) (index : Nat) : Embedding × Bool :=
  (⟨{ e.machine with breakpoints := e.machine.breakpoints.removeCondition index }⟩,
    index < e.machine.breakpoints.conditions.length)

/-- Adds the watch that a text spells. -/
def addWatch (e : Embedding) (text : String) : Except String Embedding :=
  wording ExpressionError.message <| (Watch.parse text.toList).map fun w =>
    ⟨{ e.machine with watches := e.machine.watches ++ [w] }⟩

/-- Removes a watch and tells whether there was one. -/
def removeWatch (e : Embedding) (index : Nat) : Embedding × Bool :=
  (⟨{ e.machine with watches := e.machine.watches.eraseIdx index }⟩,
    index < e.machine.watches.length)

/-- Writes a word into memory; protection does not apply. -/
def setMemory (e : Embedding) (a : Nat) (w : Word) : Except String Embedding :=
  wording MemoryError.message <| (e.machine.memory.poke a w).map fun memory =>
    ⟨e.machine.withMemory memory⟩

/-- Protects a cell. -/
def protect (e : Embedding) (a : Nat) : Except String Embedding :=
  wording MemoryError.message <| (e.machine.memory.protect a).map fun memory =>
    ⟨e.machine.withMemory memory⟩

/-- Lifts the protection of a cell and tells whether it was protected. -/
def unprotect (e : Embedding) (a : Nat) : Embedding × Bool :=
  (⟨e.machine.withMemory (e.machine.memory.unprotect a)⟩, e.machine.memory.isProtected a)

/-- Turns the history on or off. -/
def setHistoryEnabled (e : Embedding) (on : Bool) : Embedding := ⟨e.machine.setHistoryEnabled on⟩

/-- Turns the counting of accesses on or off. -/
def setHeatmapEnabled (e : Embedding) (on : Bool) : Embedding := ⟨e.machine.setHeatmapEnabled on⟩

/-- What stands at an address, as a listing shows it. -/
def disassemble (e : Embedding) (a : Nat) : String :=
  (Item.atAddress e.machine.memory.cells a).text

/-- The record of a snapshot, on one line. -/
def snapshotText (e : Embedding) : String := e.machine.snapshot.toJson.compact

/-- The word of a numeral. -/
def readNumeral (text : String) : Except String Word :=
  wording NumeralError.message (Numeral.parse text)

/-- The program text of an assembly text. -/
def assembleText (source : String) : Except String String :=
  wording AssemblyError.message <| (Assembly.assemble source).map Program.render

end Embedding

end TernaryMachine
