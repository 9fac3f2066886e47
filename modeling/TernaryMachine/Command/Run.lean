import TernaryMachine.Assembly.Assemble
import TernaryMachine.Command.Basic
import TernaryMachine.Command.FileName
import TernaryMachine.Command.Script
import TernaryMachine.Config.Text
import TernaryMachine.Listing
import TernaryMachine.Machine.Drive
import TernaryMachine.Machine.Snapshot

/-!
# What commands do

`Command.script` gives the script of a command.  A command that needs a machine reads its
configuration first and its program second, and stops at the first thing that is wrong with
either.
-/

set_option autoImplicit false

namespace TernaryMachine.Command

/-- Something that a run prints or waits for. -/
inductive Note where
  | line (text : String)
  | pause (milliseconds : Nat)
  deriving DecidableEq, Repr

/-- The script that goes through notes, given latest first, before another script. -/
def withNotes {α : Type} (latestFirst : List Note) (next : Script α) : Script α :=
  latestFirst.foldl
    (fun next note =>
      match note with
      | .line text => .print (text ++ "\n") next
      | .pause milliseconds => .wait milliseconds next)
    next

/-- Reads the configuration that options ask for. -/
def readConfig (options : MachineOptions) : Script Config := do
  let config ← match options.config with
    | none => pure {}
    | some path => do
      let text ← Script.readOr path fun e => "cannot read config '" ++ path ++ "': " ++ e.message
      Script.valueOr (fun e => "invalid config: " ++ e.report text) (Config.parse text)
  let config ← match options.memorySize with
    | none => pure config
    | some words => do
      let size ← Script.valueOr MemoryError.message (MemorySize.ofWords words.toNat)
      pure { config with memorySize := size }
  return match options.maxInstructions with
    | none => config
    | some limit => { config with maxInstructions := limit }

/-- Reads the words of a program file. -/
def readProgram (path : String) (asm : Bool) : Script (List Word) := do
  let text ← Script.readOr path fun e => "Failed to read " ++ path ++ ": " ++ e.message
  if asm || FileName.extension? path == some "asm" then
    Script.valueOr (fun e => "Assembly error: " ++ e.message) (Assembly.assemble text)
  else Script.valueOr (fun e => "Load error: " ++ e.message) (Program.parse text)

/-- What a run prints about a step that it goes on from. -/
def turnLines (trace : Bool) (turn : Turn) : List String :=
  let pc := turn.before.registers.pc
  let after := turn.after.registers
  match turn.result with
  | .ok .continued =>
    if trace then
      let item := Item.atAddress turn.before.memory.cells pc
      [Text.address pc ++ ": " ++ Text.padRight 12 item.text ++ " ACC=" ++ after.acc.decimal]
    else []
  | .ok (.halted reason) =>
    ("⏸  " ++ reason.message ++ " (PC=" ++ Text.address after.pc ++ ", ACC=" ++
        after.acc.decimal ++ ")") ::
      turn.after.readings.map fun r => "     " ++ r.text
  | .error _ => []

/-- The notes of a run with those about one more step. -/
def noteTurn (trace : Bool) (delay : Nat) (latestFirst : List Note) (turn : Turn) : List Note :=
  let notes := (turnLines trace turn).foldl (fun notes text => .line text :: notes) latestFirst
  if delay = 0 then notes else .pause delay :: notes

/-- The cells with the most accesses, at most five: the most accessed first, and of equal ones
the lowest address first. -/
def hottest (counts : List Nat) : List (Nat × Nat) :=
  let used := counts.zipIdx.filter fun (count, _) => 0 < count
  let sorted := used.mergeSort fun a b => b.1 ≤ a.1
  (sorted.take 5).map fun (count, address) => (address, count)

/-- The lines that a run ends with. -/
def resultLines (json : Bool) (m : Machine) : List String :=
  ["", "━━━ Result ━━━",
    "Steps: " ++ m.instructionCount.repr,
    "State: " ++ m.state.name,
    "ACC:   " ++ Numeral.render m.registers.acc ++ " (" ++ m.registers.acc.decimal ++ ")",
    "PC:    " ++ Text.address m.registers.pc] ++
  m.readings.map (fun r => "Watch: " ++ r.text) ++
  (if m.memory.tracking then
    (hottest m.memory.counts.toList).map fun (address, count) =>
      "Hot:   " ++ Text.address address ++ " (" ++ count.repr ++ " accesses)"
  else []) ++
  (if json then [m.snapshot.toJson.pretty] else [])

/-- Drives a machine to its end and prints what happens. -/
def execute (trace json : Bool) (delay : Nat) (m : Machine) : Script Unit := do
  let start : List Note := [.line "━━━ Execution ━━━", .line ""]
  let (notes, last) := m.drive (noteTurn trace delay) start
  let lines := "".intercalate ((resultLines json last.after).map (· ++ "\n"))
  withNotes notes (.done ())
  match last.result with
  | .error f =>
    Script.report ("❌ CPU error at PC=" ++ Text.address last.before.registers.pc ++ ": " ++
      f.message ++ "\n") (.print lines (.exit 1))
  | .ok (.halted reason) => .print ("■ " ++ reason.message ++ "\n" ++ lines) (.done ())
  | .ok .continued => .print lines (.done ())

/-- Adds the conditions that texts spell. -/
def addConditions (m : Machine) : List String → Script Machine
  | [] => pure m
  | text :: rest => do
    let c ← Script.valueOr ExpressionError.message (Condition.parse text.toList)
    addConditions { m with breakpoints := m.breakpoints.addCondition c } rest

/-- Adds the watches that texts spell. -/
def addWatches (m : Machine) : List String → Script Machine
  | [] => pure m
  | text :: rest => do
    let w ← Script.valueOr ExpressionError.message (Watch.parse text.toList)
    addWatches { m with watches := m.watches ++ [w] } rest

/-- Protects addresses. -/
def addGuards (m : Machine) : List UInt64 → Script Machine
  | [] => pure m
  | a :: rest => do
    let memory ← Script.valueOr MemoryError.message (m.memory.protect a.toNat)
    addGuards (m.withMemory memory) rest

/-- Runs a program to its end. -/
def runProgram (options : RunOptions) : Script Unit := do
  let config ← readConfig options.machine
  let words ← readProgram options.program options.machine.asm
  let m := Machine.new config
  Script.line ("📂 Loaded " ++ (m.memory.imageFit words).repr ++ " words into " ++
    m.memory.size.repr ++ "-word memory")
  let m := m.loadWords words
  let m := if options.heatmap then m.setHeatmapEnabled true else m
  let breakpoints := options.breakpoints.foldl (fun b a => b.add a.toNat) m.breakpoints
  let m ← addConditions { m with breakpoints := breakpoints } options.conditions
  let m ← addWatches m options.watches
  let m ← addGuards m options.guarded
  execute options.trace options.json options.delay.toNat m

/-- Debugs a program on the screen. -/
def debugProgram (path : String) (options : MachineOptions) (tick : Nat) : Script Unit := do
  let config ← readConfig options
  let words ← readProgram path options.asm
  Script.line "🚀 Launching debugger..."
  .session (Debugger.new words config) tick (.done ())

/-- Writes the program text of an assembly file. -/
def assembleFile (source : String) (output : Option String) : Script Unit := do
  let target := output.getD (FileName.withExtension source "tern")
  Script.line ("📝 Assembling: " ++ source ++ " → " ++ target)
  let words ← readProgram source true
  Script.line ("✓ Assembled " ++ words.length.repr ++ " words")
  .write target (Program.render words ++ "\n") fun
    | .ok _ => Script.line ("✓ Saved to " ++ target)
    | .error e => Script.fail ("Failed to write " ++ target ++ ": " ++ e.message)

/-- Prints the listing of a program file. -/
def disassembleFile (path : String) : Script Unit := do
  let words ← readProgram path false
  Script.line (Listing.render words)

/-- The line that shows a value beside what it stands for. -/
def pairLine (left right : String) : String := Text.padLeft ' ' 20 left ++ " = " ++ right

/-- Prints integers as numerals. -/
def encodeValues : List Word → Script Unit
  | [] => pure ()
  | w :: rest => do
    Script.line (pairLine w.decimal (Numeral.render w))
    encodeValues rest

/-- Prints the integers that numerals stand for, up to the first text that is none. -/
def decodeTokens : List String → Script Unit
  | [] => pure ()
  | token :: rest => do
    let w ← Script.valueOr NumeralError.message (Numeral.parse token)
    Script.line (pairLine token w.decimal)
    decodeTokens rest

/-- The text that tells how the program is used. -/
def usage : String :=
  "A balanced ternary virtual machine with a step-back debugger\n\n" ++
  "Usage: tritvm [COMMAND]\n\n" ++
  "Commands:\n" ++
  "  run     Run a program until it halts\n" ++
  "  debug   Interactive debugger\n" ++
  "  asm     Assemble source to ternary program text\n" ++
  "  disasm  Disassemble ternary program text\n" ++
  "  encode  Convert integers to balanced ternary\n" ++
  "  decode  Convert balanced ternary to integers"

/-- The script of a command. -/
def script : Command → Script Unit
  | about =>
    Script.line ("tritvm v0.1.0\nA balanced ternary virtual machine\n\n" ++
      "Use --help for available commands")
  | version => Script.line "tritvm 0.1.0"
  | help => Script.line usage
  | run options => runProgram options
  | debug program machine tick => debugProgram program machine tick.toNat
  | assemble source output => assembleFile source output
  | disassemble program => disassembleFile program
  | encode values => encodeValues values
  | decode tokens => decodeTokens tokens

/-- The script of a command line; one that asks for no command ends with exit code 2. -/
def scriptOf (args : List String) : Script Unit :=
  match parse args with
  | some command => command.script
  | none => .report "error: invalid arguments, see --help\n" (.exit 2)

end TernaryMachine.Command
