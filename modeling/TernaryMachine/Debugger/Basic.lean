import TernaryMachine.Listing
import TernaryMachine.Machine.Step

/-!
# The debugger

A debugger drives a machine by single steps: `tick` takes one step while it runs, and the first
step that does not simply continue ends the run.  It keeps a log of its own among the machine's
observers, the first of them, and reads there why a run stopped.

The cursor `selected` is on a cell of memory; `scroll` is the first cell that the memory view
shows.
-/

set_option autoImplicit false

namespace TernaryMachine

/-- A debugger at work on a program. -/
structure Debugger where
  /-- The machine. -/
  machine : Machine
  /-- The program that a reset loads again. -/
  program : List Word
  /-- Whether ticks take steps. -/
  running : Bool
  /-- Whether the session is to end. -/
  quitting : Bool
  /-- The text of the status line. -/
  status : String
  /-- The first cell of the memory view. -/
  scroll : Nat
  /-- The cell under the cursor. -/
  selected : Nat
  /-- Whether the memory view shows access counts. -/
  showHeatmap : Bool
  deriving DecidableEq

namespace Debugger

/-- A debugger for a program on a new machine. -/
def new (program : List Word) (config : Config) : Debugger where
  machine := ((Machine.new config).attach (.log [])).loadWords program
  program := program
  running := false
  quitting := false
  status := "Ready. Press 's' to step, 'r' to run, 'q' to quit."
  scroll := 0
  selected := 0
  showHeatmap := false

/-- The events in the debugger's own log, latest first. -/
def ownEvents (m : Machine) : List Event :=
  match m.observers with
  | .log latestFirst :: _ => latestFirst
  | _ => []

/-- The machine with the debugger's own log emptied. -/
def drainOwn (m : Machine) : Machine :=
  match m.observers with
  | own :: others => { m with observers := own.drained :: others }
  | [] => m

/-- What the status line says about an event that ends a run. -/
def stopText : Event → Option String
  | .halt reason => some reason.message
  | .fault f => some ("Error: " ++ f.message)
  | .stateChange _ _ => none

/-- Takes one step and says what happened. -/
def step (d : Debugger) : Debugger :=
  let pc := d.machine.registers.pc
  let item := Item.atAddress d.machine.memory.cells pc
  match d.machine.step with
  | (m, .ok .continued) =>
    { d with
      machine := drainOwn m
      status := "PC=" ++ Text.address pc ++ ": " ++ item.text ++ "  ACC=" ++
        m.registers.acc.decimal }
  | (m, _) =>
    { d with
      machine := drainOwn m
      running := false
      status := ((ownEvents m).findSome? stopText).getD "VM halted. Press 'x' to reset." }

/-- Takes the latest step back. -/
def stepBack (d : Debugger) : Debugger :=
  match d.machine.stepBack with
  | .ok m =>
    { d with
      machine := drainOwn m
      running := false
      status := "Stepped back to PC=" ++ Text.address m.registers.pc ++ " (" ++
        m.history.length.repr ++ " left)" }
  | .error refusal =>
    { d with machine := drainOwn d.machine, running := false, status := refusal.message }

/-- Lets ticks take steps. -/
def run (d : Debugger) : Debugger := { d with running := true, status := "Running..." }

/-- Takes a step if the debugger is running. -/
def tick (d : Debugger) : Debugger := if d.running then d.step else d

/-- Takes `n` ticks. -/
def ticks : Nat → Debugger → Debugger
  | 0, d => d
  | n + 1, d => ticks n d.tick

/-- Stops ticks from taking steps. -/
def pause (d : Debugger) : Debugger := { d with running := false, status := "Paused." }

/-- Sets or removes a breakpoint at the cursor. -/
def toggleBreakpoint (d : Debugger) : Debugger :=
  let a := d.selected
  let breakpoints := d.machine.breakpoints.toggle a
  { d with
    machine := { d.machine with breakpoints := breakpoints }
    status :=
      (if breakpoints.contains a then "Set breakpoint at " else "Removed breakpoint at ") ++
        Text.address a }

/-- Protects the cell at the cursor or lifts its protection. -/
def toggleProtection (d : Debugger) : Debugger :=
  let a := d.selected
  let memory := d.machine.memory
  if memory.isProtected a then
    { d with
      machine := d.machine.withMemory (memory.unprotect a)
      status := "Unprotected " ++ Text.address a }
  else
    match memory.protect a with
    | .ok memory =>
      { d with
        machine := d.machine.withMemory memory
        status := "Protected " ++ Text.address a }
    | .error e => { d with status := e.message }

/-- Changes between values and access counts in the memory view; the counts are on while they
are shown, and also while the machine's configuration asks for them. -/
def toggleHeatmap (d : Debugger) : Debugger :=
  let shown := !d.showHeatmap
  { d with
    showHeatmap := shown
    machine := d.machine.setHeatmapEnabled (shown || d.machine.config.heatmapEnabled)
    status := if shown then "Heat map on." else "Heat map off." }

/-- Loads the program again. -/
def reset (d : Debugger) : Debugger :=
  { d with
    machine := drainOwn (d.machine.loadWords d.program)
    running := false
    status := "Reset. Ready." }

/-- Moves the cursor, as far as memory goes. -/
def select (d : Debugger) (delta : Int) : Debugger :=
  let target : Int := d.selected + delta
  { d with selected := min target.toNat (d.machine.memory.size - 1) }

/-- How many addresses there are: an address is a number of 64 bits, and the first one follows the
last. -/
def addressCount : Nat := 18446744073709551616

/-- Moves the memory view by as little as brings the cursor into its rows; a view that reaches
beyond the last address goes on with the first one. -/
def scrollToSelection (d : Debugger) (rows : Nat) : Debugger :=
  if d.selected < d.scroll then { d with scroll := d.selected }
  else if 0 < rows ∧ (d.scroll + rows) % addressCount ≤ d.selected then
    { d with scroll := (d.selected + 1 + addressCount - rows) % addressCount }
  else d

/-- One line of the disassembly view. -/
structure ViewLine where
  address : Nat
  item : Item
  isCurrent : Bool
  deriving DecidableEq, Repr

/-- The disassembly view: up to `lines` addresses around the program counter. -/
def disassembly (d : Debugger) (lines : Nat) : List ViewLine :=
  let pc := d.machine.registers.pc
  let cells := d.machine.memory.cells
  let start := pc - lines / 2
  (List.range' start (min lines (cells.size - start))).map fun a =>
    ⟨a, Item.atAddress cells a, a == pc⟩

end Debugger

end TernaryMachine
