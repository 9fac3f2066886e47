import TernaryMachine.Command.Arguments

/-!
# Commands

The commands of the program and their reading from a command line.  `Command.parse` gives no
command for a command line that the grammar of the command rejects.
-/

set_option autoImplicit false

namespace TernaryMachine

/-- The options of every command that builds a machine. -/
structure MachineOptions where
  config : Option String
  memorySize : Option UInt64
  maxInstructions : Option UInt64
  asm : Bool
  deriving DecidableEq, Repr

/-- The options of a run; the delay after each step is in milliseconds. -/
structure RunOptions where
  program : String
  machine : MachineOptions
  breakpoints : List UInt64
  conditions : List String
  watches : List String
  guarded : List UInt64
  heatmap : Bool
  delay : UInt64
  trace : Bool
  json : Bool
  deriving DecidableEq, Repr

/-- What a command line asks for; the tick of the debugger is in milliseconds. -/
inductive Command where
  | about
  | version
  | help
  | run (options : RunOptions)
  | debug (program : String) (machine : MachineOptions) (tick : UInt64)
  | assemble (source : String) (output : Option String)
  | disassemble (program : String)
  | encode (values : List Word)
  | decode (tokens : List String)
  deriving DecidableEq, Repr

namespace Command

open ArgumentGrammar (valuesOf positionalsOf isGiven)

/-- The options of every command that builds a machine. -/
def machineSpecs : List OptionSpec := [
  { name := "config", letter := some 'c' },
  { name := "memory-size", letter := some 'm', value := .number },
  { name := "max-instructions", value := .number },
  { name := "asm", value := .nothing }]

/-- The options of a run. -/
def runSpecs : List OptionSpec := machineSpecs ++ [
  { name := "break", letter := some 'b', value := .number, repeatable := true },
  { name := "when", repeatable := true },
  { name := "watch", letter := some 'w', repeatable := true },
  { name := "protect", value := .number, repeatable := true },
  { name := "heatmap", value := .nothing },
  { name := "delay-ms", value := .number },
  { name := "trace", letter := some 't', value := .nothing },
  { name := "json", value := .nothing }]

/-- The options of the debugger. -/
def debugSpecs : List OptionSpec := machineSpecs ++ [{ name := "tick-ms", value := .number }]

/-- The options that tell how to build a machine. -/
def machineOf (pieces : List ArgumentPiece) : Option MachineOptions := do
  let memorySize ← unsignedOf pieces "memory-size"
  let maxInstructions ← unsignedOf pieces "max-instructions"
  return ⟨(valuesOf pieces "config").head?, memorySize, maxInstructions, isGiven pieces "asm"⟩

/-- The only value on its own. -/
def only (pieces : List ArgumentPiece) : Option String :=
  match positionalsOf pieces with
  | [text] => some text
  | _ => none

/-- The command to run a program. -/
def runOf (pieces : List ArgumentPiece) : Option Command := do
  let program ← only pieces
  let machine ← machineOf pieces
  let breakpoints ← unsignedAll (valuesOf pieces "break")
  let guarded ← unsignedAll (valuesOf pieces "protect")
  let delay ← unsignedOf pieces "delay-ms"
  return .run {
    program := program
    machine := machine
    breakpoints := breakpoints
    conditions := valuesOf pieces "when"
    watches := valuesOf pieces "watch"
    guarded := guarded
    heatmap := isGiven pieces "heatmap"
    delay := delay.getD 0
    trace := isGiven pieces "trace"
    json := isGiven pieces "json" }

/-- The command to debug a program. -/
def debugOf (pieces : List ArgumentPiece) : Option Command := do
  let program ← only pieces
  let machine ← machineOf pieces
  let tick ← unsignedOf pieces "tick-ms"
  return .debug program machine (tick.getD 50)

/-- The command to write the program text of an assembly text. -/
def assembleOf (pieces : List ArgumentPiece) : Option Command :=
  (only pieces).map fun source => .assemble source (valuesOf pieces "output").head?

/-- The command to write integers as numerals. -/
def encodeOf (pieces : List ArgumentPiece) : Option Command :=
  match positionalsOf pieces with
  | [] => none
  | texts => (texts.mapM fun text => Text.readWord? text.toList).map .encode

/-- The command to read numerals. -/
def decodeOf (pieces : List ArgumentPiece) : Option Command :=
  match positionalsOf pieces with
  | [] => none
  | texts => some (.decode texts)

/-- A command read by its grammar, unless help is asked for. -/
def read (g : ArgumentGrammar) (args : List String)
    (make : List ArgumentPiece → Option Command) : Option Command :=
  match g.scan args with
  | none => none
  | some pieces => if ArgumentGrammar.asksHelp pieces then some .help else make pieces

/-- The names of the commands. -/
def names : List String := ["run", "debug", "asm", "disasm", "encode", "decode", "help"]

/-- The command of a name and the arguments behind it; help takes the name of a command, or
nothing. -/
def ofName (name : String) (args : List String) : Option Command :=
  if name = "run" then read ⟨runSpecs, false⟩ args runOf
  else if name = "debug" then read ⟨debugSpecs, false⟩ args debugOf
  else if name = "asm" then
    read ⟨[{ name := "output", letter := some 'o' }], false⟩ args assembleOf
  else if name = "disasm" then
    read ⟨[], false⟩ args fun pieces => (only pieces).map .disassemble
  else if name = "encode" then read ⟨[], true⟩ args encodeOf
  else if name = "decode" then read ⟨[], true⟩ args decodeOf
  else if name = "help" ∧ args.length ≤ 1 ∧ args.all names.contains then some .help
  else none

/-- The command that a command line asks for. -/
def parse : List String → Option Command
  | [] => some .about
  | ["--"] => some .about
  | arg :: rest =>
    match arg.toList with
    | '-' :: 'V' :: _ => some .version
    | '-' :: 'h' :: _ => some .help
    | _ =>
      if arg = "--version" then some .version
      else if arg = "--help" then some .help
      else ofName arg rest

end Command

end TernaryMachine
