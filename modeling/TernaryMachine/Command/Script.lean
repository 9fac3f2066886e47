import TernaryMachine.Command.Folder
import TernaryMachine.Debugger.Session

/-!
# Scripts

A script is what a command does to its surroundings, as a value: it reads and writes files,
prints, waits, hands the screen to a debugger, and ends with an exit code.  The program carries
scripts out one action at a time, and `Script.runIn` carries them out in a folder that is a
value itself, so that the answer of a command can be computed.
-/

set_option autoImplicit false

namespace TernaryMachine

/-- What a command does, up to its result. -/
inductive Script (α : Type) where
  /-- Nothing more to do. -/
  | done (result : α)
  /-- Ends the program with an exit code. -/
  | exit (code : UInt8)
  /-- Prints a text. -/
  | print (text : String) (next : Script α)
  /-- Prints a text where errors go. -/
  | report (text : String) (next : Script α)
  /-- Waits for a number of milliseconds. -/
  | wait (milliseconds : Nat) (next : Script α)
  /-- Reads a text file. -/
  | read (path : String) (next : Except FileError String → Script α)
  /-- Writes a text file. -/
  | write (path text : String) (next : Except FileError Unit → Script α)
  /-- Hands the screen to a debugger with so many milliseconds to a tick. -/
  | session (debugger : Debugger) (tick : Nat) (next : Script α)

namespace Script

/-- Does one script and then the one made from its result. -/
def bind {α β : Type} : Script α → (α → Script β) → Script β
  | done result, f => f result
  | exit code, _ => exit code
  | print text next, f => print text (next.bind f)
  | report text next, f => report text (next.bind f)
  | wait milliseconds next, f => wait milliseconds (next.bind f)
  | read path next, f => read path fun answer => (next answer).bind f
  | write path text next, f => write path text fun answer => (next answer).bind f
  | session debugger tick next, f => session debugger tick (next.bind f)

instance : Monad Script where
  pure := done
  bind := bind

/-- Prints a line. -/
def line (text : String) : Script Unit := print (text ++ "\n") (done ())

/-- Reports what went wrong and ends with exit code 1. -/
def fail {α : Type} (message : String) : Script α := report ("❌ " ++ message ++ "\n") (exit 1)

/-- The content of a file; if it cannot be read, the script fails with the wording given. -/
def readOr (path : String) (wording : FileError → String) : Script String :=
  read path fun
    | .ok text => done text
    | .error e => fail (wording e)

/-- The value of a computation; if it failed, the script fails with the wording given. -/
def valueOr {ε α : Type} (wording : ε → String) : Except ε α → Script α
  | .ok value => done value
  | .error e => fail (wording e)

end Script

/-- What a script left behind. -/
structure Transcript where
  /-- The exit code. -/
  code : UInt8
  /-- What was printed, latest text first. -/
  printed : List String
  /-- What was printed where errors go, latest text first. -/
  reported : List String
  /-- The folder at the end. -/
  folder : Folder
  /-- The debuggers that the screen was handed to, latest first. -/
  sessions : List Debugger

namespace Script

/-- Carries out a script from a transcript of what came before it; a debugger is quit at once. -/
def continueFrom (t : Transcript) : Script Unit → Transcript
  | done _ => t
  | exit code => { t with code := code }
  | print text next => continueFrom { t with printed := text :: t.printed } next
  | report text next => continueFrom { t with reported := text :: t.reported } next
  | wait _ next => continueFrom t next
  | read path next => continueFrom t (next (t.folder.read path))
  | write path text next =>
    match t.folder.write path text with
    | .ok folder => continueFrom { t with folder := folder } (next (.ok ()))
    | .error e => continueFrom t (next (.error e))
  | session debugger _ next =>
    continueFrom { t with sessions := debugger :: t.sessions } next

/-- Carries out a script in a folder. -/
def runIn (folder : Folder) (script : Script Unit) : Transcript :=
  continueFrom ⟨0, [], [], folder, []⟩ script

end Script

end TernaryMachine
