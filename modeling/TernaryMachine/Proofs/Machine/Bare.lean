import TernaryMachine.Proofs.Machine.Turns

/-!
# What execution does not depend on

A machine keeps a history, counts accesses, reads watches and tells observers, and none of this
decides what it executes.  `Machine.bare` is the machine with all of it taken off: it remembers
nothing, counts nothing and tells nobody.  Taking it off before an instruction or after it makes no
difference (`Core.execute_uncounted`), so the bare machine takes the same step (`step_bare`).

Two machines are alike if they agree on everything else, which is to say that they are the same bare
machine (`bare_eq_bare_iff`).  Machines that are alike answer alike and stay alike.
-/

set_option autoImplicit false

namespace TernaryMachine

/-! ## Memory and instructions -/

namespace Memory

/-- Memory that counts no access and has counted none. -/
def uncounted (m : Memory) : Memory := { m with counts := #[], tracking := false }

/-- An access makes no difference to memory that counts none. -/
@[simp]
theorem uncounted_touch (m : Memory) (a : Nat) : (m.touch a).uncounted = m.uncounted := by
  unfold touch
  split <;> rfl

/-- A load reads the same without counting. -/
theorem load_uncounted (m : Memory) (a : Nat) :
    m.uncounted.load a = (m.load a).map fun (w, after) => (w, after.uncounted) := by
  have hpeek : m.uncounted.peek? a = m.peek? a := rfl
  unfold load
  rw [hpeek]
  cases m.peek? a with
  | none => rfl
  | some w => simp only [Except.map, uncounted_touch]; rfl

/-- A store writes the same without counting. -/
theorem store_uncounted (m : Memory) (a : Nat) (w : Word) :
    m.uncounted.store a w = (m.store a w).map uncounted := by
  by_cases ha : a < m.size
  · by_cases hguard : a ∈ m.guarded
    · have hrefused : m.uncounted.store a w = .error (.protectedCell a) :=
        store_of_guarded (m := m.uncounted) ha hguard w
      rw [hrefused, store_of_guarded ha hguard]
      rfl
    · have hstored : m.uncounted.store a w = .ok ((m.uncounted.write a w).touch a) :=
        store_of_free (m := m.uncounted) ha hguard w
      rw [hstored, store_of_free ha hguard, Except.map, uncounted_touch]
      rfl
  · have hrefused : m.uncounted.store a w = .error (.outOfRange a) :=
      store_of_not_lt (m := m.uncounted) ha w
    rw [hrefused, store_of_not_lt ha]
    rfl

end Memory

namespace Core

/-- The core with memory that counts nothing. -/
def uncounted (c : Core) : Core := { c with memory := c.memory.uncounted }

/-- Loading into the accumulator goes the same without counting. -/
theorem loadFrom_uncounted (c : Core) (target : Option Nat) :
    c.uncounted.loadFrom target = ((c.loadFrom target).1.uncounted, (c.loadFrom target).2) := by
  cases target with
  | none => rfl
  | some a =>
    have hload : c.uncounted.memory.load a = _ := c.memory.load_uncounted a
    simp only [loadFrom, hload]
    cases c.memory.load a with
    | error cause => rfl
    | ok loaded => rfl

/-- Storing the accumulator goes the same without counting. -/
theorem storeTo_uncounted (c : Core) (target : Option Nat) :
    c.uncounted.storeTo target = ((c.storeTo target).1.uncounted, (c.storeTo target).2) := by
  cases target with
  | none => rfl
  | some a =>
    have hstore : c.uncounted.memory.store a c.uncounted.registers.acc = _ :=
      c.memory.store_uncounted a c.registers.acc
    simp only [storeTo, hstore]
    cases c.memory.store a c.registers.acc with
    | error cause => rfl
    | ok stored => rfl

/-- An access through a pointer depends on no counter if the access itself does not. -/
theorem through_uncounted {access : Core → Option Nat → Core × Except Fault Flow}
    (haccess : ∀ c target,
      access (uncounted c) target = ((access c target).1.uncounted, (access c target).2))
    (c : Core) (pointer : Option Nat) :
    c.uncounted.through pointer access =
      ((c.through pointer access).1.uncounted, (c.through pointer access).2) := by
  cases pointer with
  | none => exact haccess c none
  | some p =>
    have hload : c.uncounted.memory.load p = _ := c.memory.load_uncounted p
    simp only [through, hload]
    cases c.memory.load p with
    | error cause => rfl
    | ok loaded => exact haccess { c with memory := loaded.2 } (loaded.2.address? loaded.1)

/-- An opcode does the same without counting. -/
theorem perform_uncounted (c : Core) (maxDepth : Nat) (op : Opcode) (operand : Word) :
    c.uncounted.perform maxDepth op operand =
      ((c.perform maxDepth op operand).1.uncounted, (c.perform maxDepth op operand).2) := by
  have htarget : c.uncounted.memory.address? operand = c.memory.address? operand := rfl
  have hstack : c.uncounted.callStack = c.callStack := rfl
  cases op with
  | call =>
    simp only [perform, htarget, hstack]
    by_cases hdepth : maxDepth ≤ c.callStack.length
    · simp only [if_pos hdepth]
    · simp only [if_neg hdepth]
      cases c.memory.address? operand with
      | none => rfl
      | some a => rfl
  | ret =>
    simp only [perform, hstack]
    cases c.callStack with
    | nil => rfl
    | cons a rest => rfl
  | load => exact loadFrom_uncounted c _
  | store => exact storeTo_uncounted c _
  | loadi => exact through_uncounted loadFrom_uncounted c _
  | storei => exact through_uncounted storeTo_uncounted c _
  | _ => rfl

/-- A word does the same without counting. -/
theorem execute_uncounted (c : Core) (maxDepth : Nat) (word : Word) :
    c.uncounted.execute maxDepth word =
      ((c.execute maxDepth word).1.uncounted, (c.execute maxDepth word).2) := by
  unfold execute
  cases Opcode.decode? word with
  | none => rfl
  | some op =>
    by_cases hoperand : op.hasOperand = true
    · have hpeek : c.uncounted.advance.memory.peek? c.uncounted.advance.registers.pc =
          c.advance.memory.peek? c.advance.registers.pc := rfl
      simp only [hoperand, if_true, hpeek]
      cases c.advance.memory.peek? c.advance.registers.pc with
      | none => rfl
      | some operand => exact perform_uncounted c.advance maxDepth op operand
    · simp only [hoperand]
      exact perform_uncounted c maxDepth op 0

end Core

namespace Machine

variable {m m' : Machine}

/-! ## Steps of the bare machine -/

/-- The machine without history, access counts, watches and observers; of its configuration only the
limits are left that a step looks at. -/
def bare (m : Machine) : Machine :=
  { m with
    memory := m.memory.uncounted
    history := .fresh 0 false
    watches := []
    config :=
      { maxCallDepth := m.config.maxCallDepth, maxInstructions := m.config.maxInstructions }
    observers := [] }

/-- The bare machine executes the fetched word as the machine does. -/
theorem execute_fetch_bare {word : Word} {core : Core} {result : Except Fault Flow}
    (h : (m.fetch word).toCore.execute m.config.maxCallDepth.toNat word = (core, result)) :
    (m.bare.fetch word).toCore.execute m.bare.config.maxCallDepth.toNat word =
      (core.uncounted, result) := by
  have hexec := (m.fetch word).toCore.execute_uncounted m.config.maxCallDepth.toNat word
  rw [h] at hexec
  exact hexec

/-- Completing a step leaves out of the bare machine what it leaves out of the machine. -/
theorem complete_bare (m : Machine) (word : Word) (core : Core) (flow : Flow) :
    (m.bare.fetch word).complete core.uncounted flow =
      ((m.fetch word).complete core flow).bare := by
  cases flow <;> rfl

/-- The bare machine has the same reason to stop after an instruction. -/
theorem reasonAfter_bare (m : Machine) (flow : Flow) :
    m.bare.reasonAfter flow = m.reasonAfter flow := by
  cases flow <;> rfl

/-- What a machine does, the bare machine does, too, with the same result. -/
theorem Move.bare {result : Except Fault Outcome} (h : m.Move m' result) :
    m.bare.Move m'.bare result := by
  cases h with
  | refused hgate => exact .refused hgate
  | exhausted hgate => exact .exhausted hgate
  | pause hgate => exact .pause hgate
  | outside hgate => exact .outside hgate
  | fault hgate hexec => exact .fault hgate (execute_fetch_bare hexec)
  | @stop word core flow reason hgate hexec hreason =>
    have hcomplete := m.complete_bare word core flow
    have hmove : m.bare.Move _ _ := .stop hgate (execute_fetch_bare hexec)
      (by rwa [hcomplete, reasonAfter_bare])
    rwa [hcomplete] at hmove
  | @go word core flow hgate hexec hreason =>
    have hcomplete := m.complete_bare word core flow
    have hmove : m.bare.Move _ _ := .go hgate (execute_fetch_bare hexec)
      (by rwa [hcomplete, reasonAfter_bare])
    rwa [hcomplete] at hmove

/-- The bare machine steps as the machine does. -/
theorem step_bare (m : Machine) : m.bare.step = (m.step.1.bare, m.step.2) :=
  m.move_step.bare.step_eq

/-! ## Machines that are alike -/

/-- Machines that agree on all that execution depends on.  They may differ in the history, in what
is counted and whether it is, in watches and observers, and in the rest of the configuration. -/
structure Alike (m m' : Machine) : Prop where
  registers : m.registers = m'.registers
  cells : m.memory.cells = m'.memory.cells
  guarded : m.memory.guarded = m'.memory.guarded
  callStack : m.callStack = m'.callStack
  instructionCount : m.instructionCount = m'.instructionCount
  state : m.state = m'.state
  resumeAt : m.resumeAt = m'.resumeAt
  breakpoints : m.breakpoints = m'.breakpoints
  maxCallDepth : m.config.maxCallDepth = m'.config.maxCallDepth
  maxInstructions : m.config.maxInstructions = m'.config.maxInstructions

/-- Machines are alike just when they are the same bare machine. -/
theorem bare_eq_bare_iff : m.bare = m'.bare ↔ m.Alike m' := by
  constructor
  · intro h
    exact {
      registers := congrArg (fun m => m.registers) h
      cells := congrArg (fun m => m.memory.cells) h
      guarded := congrArg (fun m => m.memory.guarded) h
      callStack := congrArg (fun m => m.callStack) h
      instructionCount := congrArg (fun m => m.instructionCount) h
      state := congrArg (fun m => m.state) h
      resumeAt := congrArg (fun m => m.resumeAt) h
      breakpoints := congrArg (fun m => m.breakpoints) h
      maxCallDepth := congrArg (fun m => m.config.maxCallDepth) h
      maxInstructions := congrArg (fun m => m.config.maxInstructions) h }
  · intro h
    simp only [bare, Memory.uncounted, h.registers, h.cells, h.guarded, h.callStack,
      h.instructionCount, h.state, h.resumeAt, h.breakpoints, h.maxCallDepth, h.maxInstructions]

namespace Alike

/-- Machines that are alike stand at the same gate. -/
theorem gate (h : m.Alike m') : m.gate = m'.gate := by
  have hbare : ∀ m : Machine, m.bare.gate = m.gate := fun _ => rfl
  rw [← hbare m, ← hbare m', bare_eq_bare_iff.2 h]

/-- Machines that are alike are at the same moment. -/
theorem moment (h : m.Alike m') : m.moment = m'.moment := by
  simp only [Machine.moment, h.registers, h.cells, h.callStack, h.instructionCount]

/-- A step has the same result on machines that are alike, and leaves them alike. -/
theorem step (h : m.Alike m') : m.step.2 = m'.step.2 ∧ m.step.1.Alike m'.step.1 := by
  have hsame : m.bare.step = m'.bare.step := by rw [bare_eq_bare_iff.2 h]
  rw [step_bare, step_bare] at hsame
  obtain ⟨hafter, hresult⟩ := Prod.mk.inj hsame
  exact ⟨hresult, bare_eq_bare_iff.1 hafter⟩

/-- Machines that are alike stay so after any number of steps. -/
theorem after (h : m.Alike m') (n : Nat) : (after n m).Alike (Machine.after n m') := by
  induction n generalizing m m' with
  | zero => exact h
  | succ n ih => exact ih h.step.2

/-- The results of any number of steps are the same on machines that are alike. -/
theorem results (h : m.Alike m') (n : Nat) :
    (turns n m).map Turn.result = (turns n m').map Turn.result := by
  induction n generalizing m m' with
  | zero => rfl
  | succ n ih =>
    obtain ⟨hresult, hafter⟩ := h.step
    have hfirst : m.turn.result = m'.turn.result := hresult
    rw [turns, turns, List.map_cons, List.map_cons, hfirst, ih hafter]

/-- A run is reported the same on machines that are alike, and leaves them alike. -/
theorem runFrom (h : m.Alike m') (taken budget : Nat) :
    (runFrom taken budget m).2 = (Machine.runFrom taken budget m').2 ∧
      (Machine.runFrom taken budget m).1.Alike (Machine.runFrom taken budget m').1 := by
  induction budget generalizing taken m m' with
  | zero => exact ⟨rfl, h⟩
  | succ budget ih =>
    obtain ⟨hresult, hafter⟩ := h.step
    unfold Machine.runFrom
    cases hstep : m.step with
    | mk next result =>
      cases hstep' : m'.step with
      | mk next' result' =>
        rw [hstep, hstep'] at hresult hafter
        have hsame : result = result' := hresult
        subst hsame
        cases result with
        | error f => exact ⟨rfl, hafter⟩
        | ok outcome =>
          cases outcome with
          | continued => exact ih hafter (taken + 1)
          | halted reason => exact ⟨rfl, hafter⟩

end Alike

/-- **Watching a machine does not change what it executes.**  Machines that are alike, however they
differ in history, access counts, watches and observers, give the same results step by step and stay
alike, and a run of one takes as many steps as a run of the other and ends in the same way. -/
theorem runs_alike (m m' : Machine) (halike : m.Alike m') (n : Nat) :
    (turns n m).map Turn.result = (turns n m').map Turn.result ∧
    (after n m).Alike (after n m') ∧
    (m.run n).2 = (m'.run n).2 ∧
    (m.run n).1.Alike (m'.run n).1 :=
  ⟨halike.results n, halike.after n, halike.runFrom 0 n⟩

/-- A machine that nobody looks at; its program reads through a pointer and stores through it. -/
def unwatched : Machine :=
  (new { memorySize := .small, maxHistory := 1 }).loadWords [10, 6, 9, -10, 6, 0, 7, 5]

/-- The same machine with every means of looking at it turned on, and no history. -/
def watched : Machine :=
  let m := (unwatched.setHistoryEnabled false).setHeatmapEnabled true
  { m.attach (.log []) with watches := [⟨.accumulator, some "total"⟩] }

/-- A machine with every means of looking at it turned on runs as it does without, although other
accesses are counted. -/
theorem runs_alike_watched :
    unwatched ≠ watched ∧ unwatched.Alike watched ∧
      (after 3 unwatched).memory.counts ≠ (after 3 watched).memory.counts ∧
      (after 3 unwatched).Alike (after 3 watched) ∧
      (unwatched.run 9).2 = (watched.run 9).2 := by
  have halike : unwatched.Alike watched := by
    constructor <;> decide +kernel
  obtain ⟨-, hafter, -, -⟩ := runs_alike unwatched watched halike 3
  obtain ⟨-, -, hrun, -⟩ := runs_alike unwatched watched halike 9
  exact ⟨by decide +kernel, halike, by decide +kernel, hafter, hrun⟩

end Machine

end TernaryMachine
