import TernaryMachine.Machine.Step

/-!
# Operations on a machine

Everything that a front end can ask of a machine is an `Operation`: to step and to step back, to
load and to reset, to change the settings, to edit breakpoints, watches and memory.
`Machine.perform` answers one operation and `Machine.performAll` lets a whole sequence of them
pass, so that "whatever was done with the machine before" is a list of operations.

An edit of the breakpoints or the watches is given by what it leaves, since it can leave anything.
An operation that is refused leaves the machine as it was, a bad program text excepted, which is
found out only after the reset.
-/

set_option autoImplicit false

namespace TernaryMachine

/-- What may be asked of the memory of a machine from outside. -/
inductive MemoryOperation where
  | load (a : Nat)
  | store (a : Nat) (w : Word)
  | poke (a : Nat) (w : Word)
  | protect (a : Nat)
  | unprotect (a : Nat)
  | loadImage (image : List Word)
  | clear
  | setTracking (on : Bool)
  deriving DecidableEq, Repr

/-- What memory answers. -/
inductive MemoryAnswer where
  | done
  | word (w : Word)
  | lifted (wasProtected : Bool)
  | written (words : Nat)
  | refused (cause : MemoryError)
  deriving DecidableEq, Repr

/-- What may be asked of a machine. -/
inductive Operation where
  | step
  | run (budget : Nat)
  | stepBack
  | reset
  | loadWords (words : List Word)
  | loadProgram (text : String)
  | resize (size : MemorySize)
  | setHistoryEnabled (on : Bool)
  | setMaxHistory (limit : UInt64)
  | setHeatmapEnabled (on : Bool)
  | setMaxCallDepth (limit : UInt64)
  | setMaxInstructions (limit : UInt64)
  | setBreakpoints (breakpoints : Breakpoints)
  | setWatches (watches : List Watch)
  | attach (observer : Observer)
  | drainLogs
  | onMemory (operation : MemoryOperation)
  deriving DecidableEq

/-- What a machine answers. -/
inductive Answer where
  | done
  | stepped (result : Except Fault Outcome)
  | ran (summary : RunSummary)
  | loaded (words : Nat)
  | notLoaded (cause : ProgramError)
  | refused (refusal : Refusal)
  | ofMemory (answer : MemoryAnswer)

namespace Memory

/-- Memory after one operation, and its answer. -/
def perform (m : Memory) : MemoryOperation → Memory × MemoryAnswer
  | .load a =>
    match m.load a with
    | .ok (w, memory) => (memory, .word w)
    | .error cause => (m, .refused cause)
  | .store a w =>
    match m.store a w with
    | .ok memory => (memory, .done)
    | .error cause => (m, .refused cause)
  | .poke a w =>
    match m.poke a w with
    | .ok memory => (memory, .done)
    | .error cause => (m, .refused cause)
  | .protect a =>
    match m.protect a with
    | .ok memory => (memory, .done)
    | .error cause => (m, .refused cause)
  | .unprotect a => (m.unprotect a, .lifted (m.isProtected a))
  | .loadImage image => (m.loadImage image, .written (m.imageFit image))
  | .clear => (m.clear, .done)
  | .setTracking on => (m.setTracking on, .done)

end Memory

namespace Machine

/-- A machine after one operation, and its answer. -/
def perform (m : Machine) : Operation → Machine × Answer
  | .step => (m.step.1, .stepped m.step.2)
  | .run budget => ((m.run budget).1, .ran (m.run budget).2)
  | .stepBack =>
    match m.stepBack with
    | .ok back => (back, .done)
    | .error refusal => (m, .refused refusal)
  | .reset => (m.reset, .done)
  | .loadWords words => (m.loadWords words, .loaded (m.memory.imageFit words))
  | .loadProgram text =>
    match m.loadProgram text with
    | (loaded, .ok words) => (loaded, .loaded words)
    | (loaded, .error cause) => (loaded, .notLoaded cause)
  | .resize size =>
    match m.resize size with
    | .ok resized => (resized, .done)
    | .error refusal => (m, .refused refusal)
  | .setHistoryEnabled on => (m.setHistoryEnabled on, .done)
  | .setMaxHistory limit => (m.setMaxHistory limit, .done)
  | .setHeatmapEnabled on => (m.setHeatmapEnabled on, .done)
  | .setMaxCallDepth limit => (m.setMaxCallDepth limit, .done)
  | .setMaxInstructions limit => (m.setMaxInstructions limit, .done)
  | .setBreakpoints breakpoints => ({ m with breakpoints := breakpoints }, .done)
  | .setWatches watches => ({ m with watches := watches }, .done)
  | .attach observer => (m.attach observer, .done)
  | .drainLogs => (m.drainLogs, .done)
  | .onMemory operation =>
    (m.withMemory (m.memory.perform operation).1, .ofMemory (m.memory.perform operation).2)

/-- A machine after a sequence of operations, whatever came of them. -/
def performAll (m : Machine) (operations : List Operation) : Machine :=
  operations.foldl (fun m operation => (m.perform operation).1) m

/-- Loading a text as an operation leaves the machine that loading it leaves. -/
theorem perform_loadProgram_fst (m : Machine) (text : String) :
    (m.perform (.loadProgram text)).1 = (m.loadProgram text).1 := by
  simp only [perform]
  split
  · next loaded words hload => rw [hload]
  · next loaded cause hload => rw [hload]

/-- What every step keeps, a run keeps. -/
theorem run_induction {P : Machine → Prop} (hstep : ∀ m : Machine, P m → P m.step.1)
    {m : Machine} (h : P m) (budget : Nat) : P (m.run budget).1 := by
  suffices hfrom : ∀ taken : Nat, P (runFrom taken budget m).1 from hfrom 0
  induction budget generalizing m with
  | zero => exact fun _ => h
  | succ budget ih =>
    intro taken
    have hnext : P m.step.1 := hstep m h
    unfold runFrom
    split
    · next m' hm' => exact ih (by rwa [hm'] at hnext) (taken + 1)
    · next m' reason hm' => rwa [hm'] at hnext
    · next m' f hm' => rwa [hm'] at hnext

/-- What holds at first and is kept by every operation holds after any sequence of them. -/
theorem performAll_induction {P : Machine → Prop}
    (hkeep : ∀ (m : Machine) (operation : Operation), P m → P (m.perform operation).1)
    {m : Machine} (h : P m) (operations : List Operation) : P (m.performAll operations) := by
  induction operations generalizing m with
  | nil => exact h
  | cons operation rest ih => exact ih (hkeep m operation h)

end Machine

end TernaryMachine
