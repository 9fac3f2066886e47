import TernaryMachine.Command.Run
import TernaryMachine.Debugger.KeySequence

/-!
# The command line program

Carries out the script of a command line.  The debugger draws over the terminal and reads its
keys from standard input, byte by byte.
-/

set_option autoImplicit false

namespace TernaryMachine.Main

/-- The error of a file operation. -/
def fileError : IO.Error → FileError
  | .noFileOrDirectory .. => .notFound
  | .inappropriateType _ code _ => if code = 21 then .isFolder else .notFolder
  | e => .other (toString e)

/-- Draws turn after turn until the session ends or the input does; the keys at hand come first,
and then those that follow the start of a sequence. -/
partial def debug (d : Debugger) (tick : Nat) (keys : List Key) (start : KeySequence) :
    IO Unit := do
  let (d, screen) := d.draw 80 24
  IO.print ("\x1b[2J\x1b[H" ++ "\n".intercalate (screen.map Row.text) ++ "\n")
  act d keys start
where
  /-- Acts on the next key, reading more input as long as there is none. -/
  act (d : Debugger) (keys : List Key) (start : KeySequence) : IO Unit := do
    match keys with
    | key :: rest =>
      let d := d.turn key
      if d.quitting then pure ()
      else
        IO.sleep (UInt32.ofNat tick)
        debug d tick rest start
    | [] =>
      let bytes ← (← IO.getStdin).read 64
      if bytes.isEmpty then pure ()
      else
        let (keys, start) := start.keys (bytes.toList.map fun byte => Char.ofNat byte.toNat)
        act d keys start

/-- Carries out a script and gives back the exit code. -/
partial def perform : Script Unit → IO UInt8
  | .done _ => pure 0
  | .exit code => pure code
  | .print text next => do
    IO.print text
    perform next
  | .report text next => do
    IO.eprint text
    perform next
  | .wait milliseconds next => do
    IO.sleep (UInt32.ofNat milliseconds)
    perform next
  | .read path next => do
    let answer ← (IO.FS.readFile path).toBaseIO
    match answer with
    | .ok text => perform (next (.ok text))
    | .error e => perform (next (.error (fileError e)))
  | .write path text next => do
    let answer ← (IO.FS.writeFile path text).toBaseIO
    match answer with
    | .ok _ => perform (next (.ok ()))
    | .error e => perform (next (.error (fileError e)))
  | .session debugger tick next => do
    debug debugger tick [] .empty
    perform next

end TernaryMachine.Main

/-- The program. -/
def main (args : List String) : IO UInt32 := do
  let code ← TernaryMachine.Main.perform (TernaryMachine.Command.scriptOf args)
  return code.toUInt32
