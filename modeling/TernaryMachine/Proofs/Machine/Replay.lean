import TernaryMachine.Proofs.Machine.Bare
import TernaryMachine.Proofs.Machine.Renewal
import TernaryMachine.Proofs.Machine.Undo

/-!
# Steps that are taken back can be taken again

A moment holds all that a step depends on, breakpoint addresses apart: the machine that a step back
leaves is ready to run on, and as far as execution goes it is like the machine that took the step
(`Restores.alike`, `step_ready`).  So the steps that were taken back come out as they did before.

The history comes out as it was, too.  Stepping back `j` times drops the `j` newest moments, the new
steps record the same ones again, and the moments that had to go for them stay lost either way
(`History.recordAll_drop`).
-/

set_option autoImplicit false

namespace TernaryMachine

/-- Moments that were dropped and are recorded again leave the history as it was. -/
theorem History.recordAll_drop {h : History} (hon : h.isRecording = true) {moments : List Moment}
    (hne : moments ≠ []) (hfit : moments.length ≤ h.capacity) :
    let last := h.recordAll moments
    History.recordAll { last with moments := last.moments.drop moments.length } moments = last := by
  intro last
  have hlast : last =
      { h with moments := moments ++ h.moments.take (h.capacity - moments.length) } := by
    have hcut := recordAll_eq hon hne
    rwa [List.take_append, List.take_of_length_le hfit] at hcut
  have hagain := recordAll_eq (h := { last with moments := last.moments.drop moments.length })
    (by rw [hlast]; exact hon) hne
  rw [hagain, hlast, List.drop_left, List.take_append, List.take_of_length_le hfit, List.take_take,
    Nat.min_self]

namespace Machine

variable {m m' last back : Machine} {j n : Nat}

/-! ## Stepping back and the history -/

/-- A step back drops the newest moment. -/
theorem history_stepBack (h : m.stepBack = .ok back) :
    back.history = { m.history with moments := m.history.moments.drop 1 } := by
  cases retreat_of_stepBack h with
  | @back moment rest hpop =>
    unfold History.pop? at hpop
    split at hpop
    · cases hpop
    · next hmoments =>
      cases hpop
      rw [hmoments]
      rfl

/-- Stepping back so many times drops as many moments. -/
theorem history_stepsBack (h : stepsBack j m = .ok back) :
    back.history = { m.history with moments := m.history.moments.drop j } := by
  induction j generalizing m with
  | zero =>
    cases h
    rfl
  | succ j ih =>
    rw [stepsBack] at h
    cases hstep : m.stepBack with
    | error refusal =>
      rw [hstep] at h
      cases h
    | ok middle =>
      rw [hstep] at h
      rw [ih h, history_stepBack hstep, List.drop_drop, Nat.add_comm]

/-! ## The machine ready to run on -/

/-- The machine as a step back to it would leave it. -/
def ready (m : Machine) : Machine := { m with state := .running, resumeAt := none }

/-- Without breakpoint addresses, a machine ready to run on runs the same word. -/
theorem gate_ready {word : Word} (hfree : m.breakpoints.addresses = .empty)
    (hgate : m.gate = .run word) : m.ready.gate = .run word := by
  cases gate_eq_iff.1 hgate with
  | run _ hspent _ hword =>
    have hrunning : m.ready.state ≠ .halted := RunState.noConfusion
    have hpass : ¬ m.ready.AtBreakpoint := not_atBreakpoint_of_addresses hfree
    exact gate_eq_iff.2 (.run hrunning hspent hpass hword)

/-- Where there are no breakpoint addresses, an instruction runs as it does when the machine is
ready to run on. -/
theorem step_ready (hfree : m.breakpoints.addresses = .empty) (hexec : m.executes = true) :
    m.ready.step = m.step := by
  obtain ⟨word, hgate⟩ := exists_gate_of_executes hexec
  simp only [step, hgate, gate_ready hfree hgate]
  rfl

/-- Without breakpoint addresses, being ready to run on makes no difference after a step. -/
theorem after_ready (hfree : m.breakpoints.addresses = .empty) (hexec : m.executes = true)
    (n : Nat) : after (n + 1) m.ready = after (n + 1) m := by
  rw [after, after, step_ready hfree hexec]

/-- Without breakpoint addresses, being ready to run on makes no difference to the results. -/
theorem results_ready (hfree : m.breakpoints.addresses = .empty) (hexec : m.executes = true)
    (n : Nat) :
    (turns (n + 1) m.ready).map Turn.result = (turns (n + 1) m).map Turn.result := by
  have hstep := step_ready hfree hexec
  have hfirst : m.ready.turn.result = m.turn.result := congrArg Prod.snd hstep
  rw [turns, turns, List.map_cons, List.map_cons, hfirst, hstep]

/-- Without breakpoint addresses, being ready to run on makes no difference to what is recorded. -/
theorem recorded_ready (hfree : m.breakpoints.addresses = .empty) (hexec : m.executes = true)
    (n : Nat) : recorded (turns (n + 1) m.ready) = recorded (turns (n + 1) m) := by
  have hready : m.ready.executes = true := by
    obtain ⟨word, hgate⟩ := exists_gate_of_executes hexec
    exact executes_of_gate (gate_ready hfree hgate)
  rw [recorded_turns_succ, recorded_turns_succ, step_ready hfree hexec, hready, hexec]
  rfl

/-! ## What a run leaves alone, and what it records -/

/-- A move leaves how a machine is set up. -/
theorem Move.setUpAlike {result : Except Fault Outcome} (h : m.Move m' result) :
    m'.SetUpAlike m := by
  cases h <;> exact ⟨rfl, rfl, rfl⟩

/-- Steps leave how a machine is set up. -/
theorem setUpAlike_after (n : Nat) (m : Machine) : (after n m).SetUpAlike m := by
  refine after_induction (P := fun next => next.SetUpAlike m) (fun next hnext => ?_)
    ⟨rfl, rfl, rfl⟩ n
  have hstep := next.move_step.setUpAlike
  exact ⟨hstep.config.trans hnext.config, hstep.breakpoints.trans hnext.breakpoints,
    hstep.watches.trans hnext.watches⟩

/-- Steps leave whether the history records, and its capacity. -/
theorem isRecording_after (n : Nat) (m : Machine) :
    (after n m).history.isRecording = m.history.isRecording ∧
      (after n m).history.capacity = m.history.capacity := by
  have hsettings := after_induction (m := m) (P := fun next =>
    next.history.capacity = m.history.capacity ∧ next.history.enabled = m.history.enabled)
    (fun next hnext => ⟨next.move_step.capacity_eq.trans hnext.1,
      next.move_step.enabled_eq.trans hnext.2⟩) ⟨rfl, rfl⟩ n
  refine ⟨?_, hsettings.1⟩
  rw [History.isRecording, hsettings.1, hsettings.2]
  rfl

/-- Machines that are alike record the same moments. -/
theorem Alike.recorded (h : m.Alike m') (n : Nat) :
    recorded (turns n m) = Machine.recorded (turns n m') := by
  induction n generalizing m m' with
  | zero => rfl
  | succ n ih =>
    have hexecutes : m.executes = m'.executes := by
      unfold executes
      rw [h.gate]
    rw [recorded_turns_succ, recorded_turns_succ, ih h.step.2, hexecutes, h.moment]

/-- A moment is recorded for every turn that executed. -/
theorem length_recorded {turns : List Turn} (hran : ∀ turn ∈ turns, turn.executed = true) :
    (recorded turns).length = turns.length := by
  rw [recorded, List.filter_eq_self.2 hran, List.length_map, List.length_reverse]

/-- As long as the history keeps a moment for every step, the last of them is where the steps
began. -/
theorem getElem?_moments_after (hon : m.history.isRecording = true)
    (hran : ∀ turn ∈ turns (n + 1) m, turn.executed = true)
    (hfit : n + 1 ≤ m.history.capacity) :
    (after (n + 1) m).history.moments[n]? = some m.moment := by
  have hfirst : m.executes = true := hran m.turn List.mem_cons_self
  have hrest : ∀ turn ∈ turns n m.step.1, turn.executed = true :=
    fun turn hturn => hran turn (List.mem_cons_of_mem _ hturn)
  have hlength : (recorded (turns n m.step.1)).length = n :=
    (length_recorded hrest).trans (length_turns n _)
  have hsplit : recorded (turns (n + 1) m) = recorded (turns n m.step.1) ++ [m.moment] := by
    rw [recorded_turns_succ, hfirst]
    rfl
  have hne : recorded (turns (n + 1) m) ≠ [] := by
    rw [hsplit]
    exact List.append_ne_nil_of_right_ne_nil _ (List.cons_ne_nil _ _)
  rw [history_after, History.recordAll_eq hon hne, List.getElem?_take_of_lt (by omega), hsplit]
  simp [hlength]

/-- The machine that taking `last` back to a moment of `m` leaves is like `m` when it is ready, if
`last` came out of `m`. -/
theorem Restores.alike (h : Restores m.moment (after n m) back) : m.ready.Alike back := by
  have hguarded : (after n m).memory.guarded = m.memory.guarded :=
    congrArg Frame.guarded (frame_after n m).1
  have hsetup := setUpAlike_after n m
  have hconfig : back.config = m.config := h.config.trans hsetup.config
  exact {
    registers := h.registers.symm
    cells := h.cells.symm
    guarded := (h.guarded.trans hguarded).symm
    callStack := h.callStack.symm
    instructionCount := h.instructionCount.symm
    state := h.state.symm
    resumeAt := h.resumeAt.symm
    breakpoints := (h.breakpoints.trans hsetup.breakpoints).symm
    maxCallDepth := congrArg Config.maxCallDepth hconfig.symm
    maxInstructions := congrArg Config.maxInstructions hconfig.symm }

/-! ## Taking the steps again -/

/-- Machines that are alike and have history, watches and settings in common differ in counters and
observers only. -/
theorem Alike.eq (h : m.Alike m') (htracking : m.memory.tracking = m'.memory.tracking)
    (hhistory : m.history = m'.history) (hwatches : m.watches = m'.watches)
    (hconfig : m.config = m'.config) :
    m' = { m with memory := { m.memory with counts := m'.memory.counts }
                  observers := m'.observers } := by
  simp only [h.registers, h.cells, h.guarded, h.callStack, h.instructionCount, h.state, h.resumeAt,
    h.breakpoints, htracking, hhistory, hwatches, hconfig]

/-- Steps that all got past the gate, and of which the history keeps every one, can be taken back to
the machine that they began with, and taken again. -/
theorem replay_of_executed (hon : m.history.isRecording = true)
    (hfree : m.breakpoints.addresses = .empty)
    (hran : ∀ turn ∈ turns j m, turn.executed = true) (hj : j ≤ m.history.capacity) :
    ∃ back counts observers, stepsBack j (after j m) = .ok back ∧
      (turns j back).map Turn.result = (turns j m).map Turn.result ∧
      after j back =
        { after j m with
          memory := { (after j m).memory with counts := counts }
          observers := observers } := by
  cases j with
  | zero => exact ⟨m, m.memory.counts, m.observers, rfl, rfl, rfl⟩
  | succ i =>
    have hexec : m.executes = true := hran m.turn List.mem_cons_self
    let moments := recorded (turns (i + 1) m)
    have hlength : moments.length = i + 1 := (length_recorded hran).trans (length_turns _ _)
    have hne : moments ≠ [] := List.ne_nil_of_length_eq_add_one hlength
    have hfit : moments.length ≤ m.history.capacity := hlength ▸ hj
    have hoverlast : (after (i + 1) m).history = m.history.recordAll moments :=
      history_after (i + 1) m
    obtain ⟨back, hback, hrestores⟩ := restores_stepsBack (getElem?_moments_after hon hran hj)
    -- From here on `back` does what `m` did, since as far as execution goes it is `m`, ready to
    -- run.
    have halike : m.ready.Alike back := hrestores.alike
    have hagain : (after (i + 1) m).Alike (after (i + 1) back) :=
      after_ready hfree hexec i ▸ halike.after (i + 1)
    have hrecorded : recorded (turns (i + 1) back) = moments :=
      (halike.recorded (i + 1)).symm.trans (recorded_ready hfree hexec i)
    -- The history is none of what makes machines alike: it is the same because it lost the moments
    -- of these steps and now records them again.
    have hhistory : (after (i + 1) back).history = (after (i + 1) m).history := by
      rw [history_after (i + 1) back, hrecorded, history_stepsBack hback, hoverlast, ← hlength]
      exact History.recordAll_drop hon hne hfit
    have hsetup := setUpAlike_after (i + 1) back
    have htracking : (after (i + 1) back).memory.tracking = (after (i + 1) m).memory.tracking :=
      (congrArg Frame.tracking (frame_after (i + 1) back).1).trans hrestores.tracking
    refine ⟨back, _, _, hback, ?_, hagain.eq htracking.symm hhistory.symm
      (hsetup.watches.trans hrestores.watches).symm (hsetup.config.trans hrestores.config).symm⟩
    rw [← results_ready hfree hexec i]
    exact (halike.results (i + 1)).symm

/-- **Replaying undone steps reproduces the run.**  Let a machine that records and has no breakpoint
addresses take `k` steps that all get past the gate, whether they go on, stop, pause on a condition
or fault.  For every `j` up to `k` and the capacity of the history, `j` steps back succeed, and the
next `j` steps give the last `j` results again and leave the same machine, its history included.
Only accesses are counted twice, and observers are told twice. -/
theorem replay_after_stepsBack (m : Machine) (k j : Nat) (hon : m.history.isRecording = true)
    (hfree : m.breakpoints.addresses = .empty)
    (hran : ∀ turn ∈ turns k m, turn.executed = true) (hj : j ≤ min k m.history.capacity) :
    ∃ back counts observers, stepsBack j (after k m) = .ok back ∧
      (turns j back).map Turn.result = ((turns k m).drop (k - j)).map Turn.result ∧
      after j back =
        { after k m with
          memory := { (after k m).memory with counts := counts }
          observers := observers } := by
  obtain ⟨i, rfl⟩ : ∃ i, k = i + j := ⟨k - j, by omega⟩
  have hlater : (turns (i + j) m).drop (i + j - j) = turns j (after i m) := by
    rw [Nat.add_sub_cancel, turns_add]
    exact List.drop_left' (length_turns i m)
  obtain ⟨hrecording, hcapacity⟩ := isRecording_after i m
  have hfree' : (after i m).breakpoints.addresses = .empty := by
    rw [(setUpAlike_after i m).breakpoints]
    exact hfree
  have hran' : ∀ turn ∈ turns j (after i m), turn.executed = true := by
    intro turn hturn
    rw [← hlater] at hturn
    exact hran turn (List.mem_of_mem_drop hturn)
  rw [hlater, after_add]
  apply replay_of_executed (hrecording.trans hon) hfree' hran'
  rw [hcapacity]
  omega

/-- A machine with room for two moments that pauses on a condition and then faults, storing through
a pointer to a protected cell. -/
def faulting : Machine :=
  let m := (new { memorySize := .small, maxHistory := 2, heatmapEnabled := true }).loadWords
    [9, 6, -10, 4, 20]
  { m with
    memory := (m.memory.perform (.protect 20)).1
    breakpoints := Breakpoints.none.addCondition ⟨.accumulator, .eq, 3⟩ }

/-- Two steps back from a fault, a machine pauses and faults as it did before. -/
theorem replay_after_stepsBack_faulting :
    (∀ turn ∈ turns 3 faulting, turn.executed = true) ∧
    (after 3 faulting).memory.counts[4]? = some 1 ∧
    ∃ back counts observers, stepsBack 2 (after 3 faulting) = .ok back ∧
      (turns 2 back).map Turn.result =
        [.ok (.halted (.condition ⟨.accumulator, .eq, 3⟩)),
          .error (.memory (.protectedCell 20))] ∧
      after 2 back =
        { after 3 faulting with
          memory := { (after 3 faulting).memory with counts := counts }
          observers := observers } := by
  have hon : faulting.history.isRecording = true := by decide
  have hfree : faulting.breakpoints.addresses = .empty := by decide
  have hran : ∀ turn ∈ turns 3 faulting, turn.executed = true := by decide +kernel
  have hresults : ((turns 3 faulting).drop 1).map Turn.result =
      [.ok (.halted (.condition ⟨.accumulator, .eq, 3⟩)),
        .error (.memory (.protectedCell 20))] := by rfl
  obtain ⟨back, counts, observers, hback, hagain, hlast⟩ :=
    replay_after_stepsBack faulting 3 2 hon hfree hran (by decide)
  exact ⟨hran, by decide +kernel, back, counts, observers, hback, hagain.trans hresults, hlast⟩

end Machine

end TernaryMachine
