import TernaryMachine.Machine.Drive
import TernaryMachine.Proofs.Machine.Instruction

/-!
# What one step of a machine can be

`Machine.Move` is the inversion of `Machine.step`: seven ways for a step to go, each with the gate
that it met, the machine that it leaves and what came of it.  `move_step` says that a step is
always one of them, so a property of all steps is seven cases and no unfolding.

`gate_eq_iff` reads a gate back as the conditions under which the machine meets it, in the order
in which a step checks them: halted, out of instructions, at a breakpoint, outside memory.  In the
same way `ending` reads back why a run ends after an instruction.
-/

set_option autoImplicit false

namespace TernaryMachine.Machine

/-- Halting for a pause leaves a machine paused, and for any other reason halted. -/
theorem state_halt (m : Machine) (reason : HaltReason) :
    (m.halt reason).1.state = if reason.isPause then .paused else .halted := rfl

/-- Fetching a word leaves the configuration. -/
@[simp]
theorem config_fetch (m : Machine) (word : Word) : (m.fetch word).config = m.config := rfl

/-! ## The gate -/

/-- The limit of instructions is reached. -/
def Spent (m : Machine) : Prop := m.config.maxInstructions.toNat ≤ m.instructionCount

/-- A breakpoint stands at the program counter, and the machine is not resuming from it. -/
def AtBreakpoint (m : Machine) : Prop :=
  m.resumeAt ≠ some m.registers.pc ∧ m.breakpoints.contains m.registers.pc = true

/-- Without breakpoint addresses, a machine is never at a breakpoint. -/
theorem not_atBreakpoint_of_addresses {m : Machine} (hfree : m.breakpoints.addresses = .empty) :
    ¬ m.AtBreakpoint := by
  rintro ⟨-, hcontains⟩
  rw [Breakpoints.contains, hfree] at hcontains
  exact AddressSet.not_mem_empty _ (AddressSet.contains_eq_true_iff.1 hcontains)

/-- When a step meets a gate: no earlier check stops it, and the gate's own does. -/
inductive Meets (m : Machine) : Gate → Prop where
  | refused (hstate : m.state = .halted) : Meets m .refused
  | exhausted (hstate : m.state ≠ .halted) (hspent : m.Spent) : Meets m .exhausted
  | breakpoint (hstate : m.state ≠ .halted) (hspent : ¬ m.Spent) (hbreak : m.AtBreakpoint) :
      Meets m .breakpoint
  | outside (hstate : m.state ≠ .halted) (hspent : ¬ m.Spent) (hbreak : ¬ m.AtBreakpoint)
      (hpc : m.memory.size ≤ m.registers.pc) : Meets m .outside
  | run {word : Word} (hstate : m.state ≠ .halted) (hspent : ¬ m.Spent)
      (hbreak : ¬ m.AtBreakpoint) (hword : m.memory.peek? m.registers.pc = some word) :
      Meets m (.run word)

/-- A machine meets the conditions of its own gate. -/
theorem meets_gate (m : Machine) : m.Meets m.gate := by
  unfold gate
  by_cases hstate : m.state = .halted
  · rw [if_pos hstate]
    exact .refused hstate
  rw [if_neg hstate]
  by_cases hspent : m.config.maxInstructions.toNat ≤ m.instructionCount
  · rw [if_pos hspent]
    exact .exhausted hstate hspent
  rw [if_neg hspent]
  by_cases hbreak : m.resumeAt ≠ some m.registers.pc ∧
      m.breakpoints.contains m.registers.pc = true
  · rw [if_pos hbreak]
    exact .breakpoint hstate hspent hbreak
  rw [if_neg hbreak]
  cases hword : m.memory.peek? m.registers.pc with
  | none => exact .outside hstate hspent hbreak (Array.getElem?_eq_none_iff.1 hword)
  | some word => exact .run hstate hspent hbreak hword

/-- No machine meets two gates. -/
theorem Meets.unique {m : Machine} {g g' : Gate} (h : m.Meets g) (h' : m.Meets g') : g = g' := by
  cases h <;> cases h' <;> first | rfl | contradiction | skip
  case outside.run hpc _ _ _ _ hword =>
    have hnone : m.memory.peek? m.registers.pc = none := Array.getElem?_eq_none_iff.2 hpc
    rw [hnone] at hword
    cases hword
  case run.outside hword _ _ _ hpc =>
    have hnone : m.memory.peek? m.registers.pc = none := Array.getElem?_eq_none_iff.2 hpc
    rw [hnone] at hword
    cases hword
  case run.run hword _ _ _ _ hword' =>
    rw [hword] at hword'
    cases hword'
    rfl

/-- A step meets a gate just under the gate's conditions. -/
theorem gate_eq_iff {m : Machine} {g : Gate} : m.gate = g ↔ m.Meets g := by
  constructor
  · rintro rfl
    exact m.meets_gate
  · intro h
    exact m.meets_gate.unique h

/-- Only a halted machine refuses to step. -/
theorem state_of_refused {m : Machine} (h : m.gate = .refused) : m.state = .halted := by
  cases gate_eq_iff.1 h with
  | refused hstate => exact hstate

/-! ## Why a run ends after an instruction -/

/-- Why a run ends, if it does, after an instruction that sent control this way.  Only where the
run could go on are the conditions looked at. -/
inductive Ending (m : Machine) : Flow → Option HaltReason → Prop where
  | halt : Ending m .halt (some .haltInstruction)
  | endOfMemory : Ending m .endOfMemory (some .endOfMemory)
  | outside {flow : Flow} (hpc : m.memory.size ≤ m.registers.pc) :
      Ending m flow (some .endOfMemory)
  | condition {flow : Flow} {c : Condition} (hpc : m.registers.pc < m.memory.size)
      (hhit : m.breakpoints.firstHit m.registers.acc m.memory.cells = some c) :
      Ending m flow (some (.condition c))
  | none {flow : Flow} (hpc : m.registers.pc < m.memory.size)
      (hhit : m.breakpoints.firstHit m.registers.acc m.memory.cells = none) : Ending m flow none

/-- Why a run ends after an instruction, or goes on, is as the conditions say. -/
theorem ending (m : Machine) (flow : Flow) : m.Ending flow (m.reasonAfter flow) := by
  have hthere : m.Ending flow (if m.memory.size ≤ m.registers.pc then some .endOfMemory
      else (m.breakpoints.firstHit m.registers.acc m.memory.cells).map .condition) := by
    by_cases hpc : m.memory.size ≤ m.registers.pc
    · rw [if_pos hpc]
      exact .outside hpc
    · rw [if_neg hpc]
      cases hhit : m.breakpoints.firstHit m.registers.acc m.memory.cells with
      | none => exact .none (Nat.not_le.1 hpc) hhit
      | some c => exact .condition (Nat.not_le.1 hpc) hhit
  cases flow with
  | halt => exact .halt
  | endOfMemory => exact .endOfMemory
  | next => exact hthere
  | jump _ => exact hthere

/-- No instruction ends a run with a breakpoint address, for which a run pauses before. -/
theorem reasonAfter_ne_breakpoint (m : Machine) (flow : Flow) (a : Nat) :
    m.reasonAfter flow ≠ some (.breakpoint a) := by
  have hending := m.ending flow
  intro hreason
  rw [hreason] at hending
  cases hending

/-! ## The ways for a step to go -/

/-- The ways for a step to go, with the machine that it leaves and what came of it. -/
inductive Move (m : Machine) : Machine → Except Fault Outcome → Prop where
  | refused (hgate : m.gate = .refused) : Move m m (.error (.notRunning .halted))
  | exhausted (hgate : m.gate = .exhausted) :
      Move m (m.fault (.instructionLimit m.config.maxInstructions.toNat)).1
        (.error (.instructionLimit m.config.maxInstructions.toNat))
  | pause (hgate : m.gate = .breakpoint) :
      Move m
        (({ m with resumeAt := some m.registers.pc } : Machine).halt
          (.breakpoint m.registers.pc)).1
        (.ok (.halted (.breakpoint m.registers.pc)))
  | outside (hgate : m.gate = .outside) :
      Move m (({ m with resumeAt := none } : Machine).halt (.pcOutOfBounds m.registers.pc)).1
        (.ok (.halted (.pcOutOfBounds m.registers.pc)))
  | fault {word : Word} {core : Core} {f : Fault} (hgate : m.gate = .run word)
      (hexec : (m.fetch word).toCore.execute m.config.maxCallDepth.toNat word =
        (core, .error f)) :
      Move m (({ m.fetch word with toCore := core } : Machine).fault f).1 (.error f)
  | stop {word : Word} {core : Core} {flow : Flow} {reason : HaltReason}
      (hgate : m.gate = .run word)
      (hexec : (m.fetch word).toCore.execute m.config.maxCallDepth.toNat word = (core, .ok flow))
      (hreason : ((m.fetch word).complete core flow).reasonAfter flow = some reason) :
      Move m ((((m.fetch word).complete core flow).notifyState).halt reason).1
        (.ok (.halted reason))
  | go {word : Word} {core : Core} {flow : Flow} (hgate : m.gate = .run word)
      (hexec : (m.fetch word).toCore.execute m.config.maxCallDepth.toNat word = (core, .ok flow))
      (hreason : ((m.fetch word).complete core flow).reasonAfter flow = none) :
      Move m ((m.fetch word).complete core flow).notifyState (.ok .continued)

/-- Every step goes one of the seven ways. -/
theorem move_step (m : Machine) : m.Move m.step.1 m.step.2 := by
  cases hgate : m.gate with
  | refused =>
    simp only [step, hgate, state_of_refused hgate]
    exact .refused hgate
  | exhausted =>
    simp only [step, hgate]
    exact .exhausted hgate
  | breakpoint =>
    simp only [step, hgate]
    exact .pause hgate
  | outside =>
    simp only [step, hgate]
    exact .outside hgate
  | run word =>
    simp only [step, hgate, runWord, config_fetch]
    cases hexec : (m.fetch word).toCore.execute m.config.maxCallDepth.toNat word with
    | mk core result =>
      cases result with
      | error f => exact .fault hgate hexec
      | ok flow =>
        cases hreason : ((m.fetch word).complete core flow).reasonAfter flow with
        | none =>
          simp only [hreason]
          exact .go hgate hexec hreason
        | some reason =>
          simp only [hreason]
          exact .stop hgate hexec hreason

/-! ## What every step leaves alone -/

/-- Whether the next step gets past the gate: it runs an instruction or faults inside one. -/
def executes (m : Machine) : Bool :=
  match m.gate with
  | .run _ => true
  | _ => false

/-- A machine that stands at a word executes. -/
theorem executes_of_gate {m : Machine} {word : Word} (hgate : m.gate = .run word) :
    m.executes = true := by
  simp only [executes, hgate]

/-- A machine that executes stands at a word. -/
theorem exists_gate_of_executes {m : Machine} (h : m.executes = true) :
    ∃ word, m.gate = .run word := by
  unfold executes at h
  split at h
  · next word hgate => exact ⟨word, hgate⟩
  · cases h

namespace Move

variable {m m' : Machine} {result : Except Fault Outcome}

/-- A step goes only one way. -/
theorem step_eq (h : m.Move m' result) : m.step = (m', result) := by
  cases h with
  | refused hgate => simp only [step, hgate, state_of_refused hgate]
  | exhausted hgate =>
    simp only [step, hgate]
    rfl
  | pause hgate =>
    simp only [step, hgate]
    rfl
  | outside hgate =>
    simp only [step, hgate]
    rfl
  | fault hgate hexec =>
    simp only [step, hgate, runWord, config_fetch, hexec]
    rfl
  | stop hgate hexec hreason =>
    simp only [step, hgate, runWord, config_fetch, hexec, hreason]
    rfl
  | go hgate hexec hreason =>
    simp only [step, hgate, runWord, config_fetch, hexec, hreason]

/-- A step records the moment before it if it gets past the gate, and nothing otherwise. -/
theorem history_eq (h : m.Move m' result) :
    m'.history = if m.executes then m.history.record m.moment else m.history := by
  unfold executes
  cases h with
  | refused hgate => rw [hgate]; rfl
  | exhausted hgate => rw [hgate]; rfl
  | pause hgate => rw [hgate]; rfl
  | outside hgate => rw [hgate]; rfl
  | fault hgate _ => rw [hgate]; rfl
  | stop hgate _ _ => rw [hgate]; rfl
  | go hgate _ _ => rw [hgate]; rfl

/-- A move leaves the capacity of the history. -/
theorem capacity_eq (h : m.Move m' result) : m'.history.capacity = m.history.capacity := by
  rw [h.history_eq]
  cases m.executes with
  | false => rfl
  | true => exact History.capacity_record _ _

/-- A move leaves the switch of the history. -/
theorem enabled_eq (h : m.Move m' result) : m'.history.enabled = m.history.enabled := by
  rw [h.history_eq]
  cases m.executes with
  | false => rfl
  | true => exact History.enabled_record _ _

/-- A move leaves the configuration. -/
theorem config_eq (h : m.Move m' result) : m'.config = m.config := by
  cases h <;> rfl

/-- A move leaves the frame of memory. -/
theorem frame_eq (h : m.Move m' result) : m'.memory.frame = m.memory.frame := by
  have hframe : ∀ {word : Word} {core : Core} {flow : Except Fault Flow},
      (m.fetch word).toCore.execute m.config.maxCallDepth.toNat word = (core, flow) →
        core.memory.frame = m.memory.frame :=
    fun hexec => (Core.execution_of_eq hexec).frame_eq
  cases h with
  | refused _ => rfl
  | exhausted _ => rfl
  | pause _ => rfl
  | outside _ => rfl
  | fault _ hexec => exact hframe hexec
  | @stop word core flow reason _ hexec _ =>
    show (core.follow flow).memory.frame = _
    rw [Core.memory_follow, hframe hexec]
  | @go word core flow _ hexec _ =>
    show (core.follow flow).memory.frame = _
    rw [Core.memory_follow, hframe hexec]

end Move

/-! ## Steps that execute -/

section Executing

variable {m : Machine}

/-- The word that is about to run is at the program counter. -/
theorem peek?_of_gate {word : Word} (hgate : m.gate = .run word) :
    m.memory.peek? m.registers.pc = some word := by
  cases gate_eq_iff.1 hgate with
  | run _ _ _ hword => exact hword

/-- A word that is about to run is inside memory. -/
theorem pc_lt_of_gate {word : Word} (hgate : m.gate = .run word) :
    m.registers.pc < m.memory.size := by
  obtain ⟨hpc, -⟩ := Array.getElem?_eq_some_iff.1 (peek?_of_gate hgate)
  exact hpc

/-- A step follows the flow of control that executing the word leaves. -/
theorem toCore_step {word : Word} {core : Core} {flow : Flow} (hgate : m.gate = .run word)
    (hexec : (m.fetch word).toCore.execute m.config.maxCallDepth.toNat word = (core, .ok flow)) :
    m.step.1.toCore = core.follow flow := by
  cases hreason : ((m.fetch word).complete core flow).reasonAfter flow with
  | none =>
    rw [(Move.go hgate hexec hreason).step_eq]
    rfl
  | some reason =>
    rw [(Move.stop hgate hexec hreason).step_eq]
    rfl

/-- A step does not fail if the instruction does not. -/
theorem exists_outcome_of_flow {word : Word} {core : Core} {flow : Flow}
    (hgate : m.gate = .run word)
    (hexec : (m.fetch word).toCore.execute m.config.maxCallDepth.toNat word = (core, .ok flow)) :
    ∃ outcome, m.step.2 = .ok outcome := by
  cases hreason : ((m.fetch word).complete core flow).reasonAfter flow with
  | none => exact ⟨_, congrArg Prod.snd (Move.go hgate hexec hreason).step_eq⟩
  | some reason => exact ⟨_, congrArg Prod.snd (Move.stop hgate hexec hreason).step_eq⟩

/-- A step that executes something and does not fail has a flow to follow. -/
theorem exists_flow_of_step {outcome : Outcome} (h : m.executes = true)
    (hresult : m.step.2 = .ok outcome) :
    ∃ word core flow, m.gate = .run word ∧
      (m.fetch word).toCore.execute m.config.maxCallDepth.toNat word = (core, .ok flow) := by
  obtain ⟨word, hgate⟩ := exists_gate_of_executes h
  cases hexec : (m.fetch word).toCore.execute m.config.maxCallDepth.toNat word with
  | mk core result =>
    cases result with
    | ok flow => exact ⟨word, core, flow, hgate, hexec⟩
    | error f =>
      rw [(Move.fault hgate hexec).step_eq] at hresult
      cases hresult

end Executing

/-! ## The step back -/

/-- What a step back makes of a machine: the latest moment comes back, and the history is left with
the rest. -/
inductive Retreat (m : Machine) : Machine → Prop where
  | back {moment : Moment} {rest : History} (hpop : m.history.pop? = some (moment, rest)) :
      Retreat m (notifyState
        { m with
          registers := moment.registers
          memory := m.memory.restore moment.cells
          callStack := moment.callStack
          instructionCount := moment.instructionCount
          state := .running
          resumeAt := none
          history := rest })

/-- A step back is a retreat. -/
theorem retreat_of_stepBack {m back : Machine} (h : m.stepBack = .ok back) : m.Retreat back := by
  unfold stepBack at h
  split at h
  · cases h
  · next hpop =>
    cases h
    exact .back hpop

end TernaryMachine.Machine
