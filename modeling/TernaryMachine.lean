import TernaryMachine.Main
import TernaryMachine.Embedding
import TernaryMachine.Proofs.Machine.Transition
import TernaryMachine.Proofs.Machine.Operation
import TernaryMachine.Proofs.Machine.Undo
import TernaryMachine.Proofs.Machine.Transparency
import TernaryMachine.Proofs.Machine.Access
import TernaryMachine.Proofs.Machine.Safety
import TernaryMachine.Proofs.Text.Digits
import TernaryMachine.Proofs.Assembly.Line
import TernaryMachine.Proofs.Assembly.Patching
import TernaryMachine.Proofs.Assembly.Reassembly
import TernaryMachine.Proofs.Numeral.Canonical
import TernaryMachine.Proofs.Assembly.Grammar
import TernaryMachine.Proofs.Assembly.Meaning
import TernaryMachine.Proofs.Machine.Report
import TernaryMachine.Proofs.Machine.Unobserved
import TernaryMachine.Proofs.Machine.Renewal
import TernaryMachine.Proofs.Machine.Limit
import TernaryMachine.Proofs.Numeral.Exact
import TernaryMachine.Proofs.Machine.Pause
import TernaryMachine.Proofs.Machine.Protection
import TernaryMachine.Proofs.Machine.Passage
import TernaryMachine.Proofs.Machine.Bare
import TernaryMachine.Proofs.Machine.Nesting
import TernaryMachine.Proofs.Machine.Replay
import TernaryMachine.Proofs.Assembly.ProgramText
import TernaryMachine.Proofs.Machine.Chain
import TernaryMachine.Proofs.Debugger.Action
import TernaryMachine.Proofs.Debugger.Ticks
import TernaryMachine.Proofs.Json.Grammar
import TernaryMachine.Proofs.Json.Reading
import TernaryMachine.Proofs.Config.RoundTrip
import TernaryMachine.Proofs.Machine.Table
import TernaryMachine.Proofs.Machine.Refinement
import TernaryMachine.Proofs.Machine.Failure
import TernaryMachine.Proofs.Expression.Grammar
import TernaryMachine.Proofs.Expression.RoundTrip
import TernaryMachine.Proofs.Assembly.Flaw
import TernaryMachine.Proofs.Assembly.Location
import TernaryMachine.Proofs.Listing.Tiling
import TernaryMachine.Proofs.Machine.Walk
import TernaryMachine.Proofs.Machine.Tally
import TernaryMachine.Proofs.Debugger.HeatMap
import TernaryMachine.Proofs.Machine.Arithmetic
import TernaryMachine.Proofs.Machine.Digitwise
import TernaryMachine.Proofs.Program.Joining
import TernaryMachine.Proofs.Memory.Call
import TernaryMachine.Proofs.Memory.ProtectedArray
import TernaryMachine.Proofs.Text.LetterCase
import TernaryMachine.Proofs.Assembly.Layout
import TernaryMachine.Proofs.Assembly.LetterCase
import TernaryMachine.Proofs.Debugger.Views
import TernaryMachine.Proofs.History.UndoStack
