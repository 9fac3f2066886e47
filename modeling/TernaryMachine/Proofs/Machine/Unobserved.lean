import TernaryMachine.Proofs.Machine.Operation
import TernaryMachine.Proofs.Machine.Transition

/-!
# Observers only watch

Nothing that a machine does or answers depends on its observers.  A step of a machine without them
is the same step (`step_unobserved`), and so two machines that differ in nothing but observers
answer every sequence of operations alike and still differ in nothing else (`answers_congr`).
-/

set_option autoImplicit false

namespace TernaryMachine.Machine

variable {m m' : Machine}

/-- The machine without observers. -/
def unobserved (m : Machine) : Machine := { m with observers := [] }

/-- The answers of a machine to a sequence of operations. -/
def answers : Machine → List Operation → List Answer
  | _, [] => []
  | m, operation :: rest => (m.perform operation).2 :: answers (m.perform operation).1 rest

/-- What a machine does, it does unobserved, too, with the same result. -/
theorem Move.unobserved {result : Except Fault Outcome} (h : m.Move m' result) :
    m.unobserved.Move m'.unobserved result := by
  cases h with
  | refused hgate => exact .refused hgate
  | exhausted hgate => exact .exhausted hgate
  | pause hgate => exact .pause hgate
  | outside hgate => exact .outside hgate
  | fault hgate hexec => exact .fault hgate hexec
  | stop hgate hexec hreason => exact .stop hgate hexec hreason
  | go hgate hexec hreason => exact .go hgate hexec hreason

/-- A step does the same unobserved. -/
theorem step_unobserved (m : Machine) :
    m.unobserved.step = (m.step.1.unobserved, m.step.2) :=
  m.move_step.unobserved.step_eq

/-- A run from some steps on does the same unobserved. -/
theorem runFrom_unobserved (taken budget : Nat) (m : Machine) :
    runFrom taken budget m.unobserved =
      ((runFrom taken budget m).1.unobserved, (runFrom taken budget m).2) := by
  induction budget generalizing taken m with
  | zero => rfl
  | succ budget ih =>
    have hstep := m.step_unobserved
    unfold runFrom
    rw [hstep]
    cases m.step with
    | mk next result =>
      cases result with
      | error f => rfl
      | ok outcome =>
        cases outcome with
        | continued => exact ih (taken + 1) next
        | halted reason => rfl

/-- A run does the same unobserved. -/
theorem run_unobserved (budget : Nat) (m : Machine) :
    m.unobserved.run budget = ((m.run budget).1.unobserved, (m.run budget).2) :=
  runFrom_unobserved 0 budget m

/-- A step back does the same unobserved. -/
theorem stepBack_unobserved (m : Machine) :
    m.unobserved.stepBack = m.stepBack.map unobserved := by
  have hhistory : m.unobserved.history = m.history := rfl
  unfold stepBack
  rw [hhistory]
  cases m.history.pop? with
  | none => rfl
  | some popped => rfl

/-- Loading a program text does the same unobserved. -/
theorem loadProgram_unobserved (m : Machine) (text : String) :
    m.unobserved.loadProgram text =
      ((m.loadProgram text).1.unobserved, (m.loadProgram text).2) := by
  unfold loadProgram
  cases Program.parse text with
  | error cause => rfl
  | ok words => rfl

/-- Changing the size does the same unobserved. -/
theorem resize_unobserved (m : Machine) (size : MemorySize) :
    m.unobserved.resize size = (m.resize size).map unobserved := by
  have hstate : m.unobserved.state = m.state := rfl
  unfold resize
  rw [hstate]
  by_cases hrunning : m.state = .running
  · rw [if_pos hrunning, if_pos hrunning]
    rfl
  · rw [if_neg hrunning, if_neg hrunning]
    rfl

/-- An operation on a machine without observers leaves, apart from observers, the same machine, and
the answer is the same. -/
theorem perform_unobserved (m : Machine) (operation : Operation) :
    (m.unobserved.perform operation).1.unobserved = (m.perform operation).1.unobserved ∧
      (m.unobserved.perform operation).2 = (m.perform operation).2 := by
  cases operation with
  | step =>
    simp only [perform, step_unobserved, and_true]
    rfl
  | run budget =>
    simp only [perform, run_unobserved, and_true]
    rfl
  | stepBack =>
    simp only [perform, stepBack_unobserved]
    cases m.stepBack with
    | ok back => exact ⟨rfl, rfl⟩
    | error refusal => exact ⟨rfl, rfl⟩
  | loadProgram text =>
    simp only [perform, loadProgram_unobserved]
    cases m.loadProgram text with
    | mk loaded result => cases result <;> exact ⟨rfl, rfl⟩
  | resize size =>
    simp only [perform, resize_unobserved]
    cases m.resize size with
    | ok resized => exact ⟨rfl, rfl⟩
    | error refusal => exact ⟨rfl, rfl⟩
  | _ => exact ⟨rfl, rfl⟩

/-- Machines that differ in their observers only answer the same and differ in these only
afterwards. -/
theorem perform_congr (h : m.unobserved = m'.unobserved) (operation : Operation) :
    (m.perform operation).1.unobserved = (m'.perform operation).1.unobserved ∧
      (m.perform operation).2 = (m'.perform operation).2 := by
  obtain ⟨hrest, hanswer⟩ := m.perform_unobserved operation
  obtain ⟨hrest', hanswer'⟩ := m'.perform_unobserved operation
  rw [h] at hrest hanswer
  exact ⟨hrest.symm.trans hrest', hanswer.symm.trans hanswer'⟩

/-- Machines that differ in nothing but observers give the same answers to the same operations, and
they still differ in nothing else afterwards. -/
theorem answers_congr (h : m.unobserved = m'.unobserved) (operations : List Operation) :
    m.answers operations = m'.answers operations ∧
      (m.performAll operations).unobserved = (m'.performAll operations).unobserved := by
  induction operations generalizing m m' with
  | nil => exact ⟨rfl, h⟩
  | cons operation rest ih =>
    obtain ⟨hnext, hanswer⟩ := perform_congr h operation
    obtain ⟨hanswers, hlast⟩ := ih hnext
    refine ⟨?_, hlast⟩
    rw [answers, answers, hanswer, hanswers]

end TernaryMachine.Machine
