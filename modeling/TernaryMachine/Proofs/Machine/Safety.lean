import TernaryMachine.Proofs.Machine.Access
import TernaryMachine.Proofs.Machine.Landing
import TernaryMachine.Proofs.Memory.Call

/-!
# Safety of the machine

`Machine.Safe` is the invariant of a machine that has come from a new one by operations: memory
has the size of the configuration, the program counter stays within it, and so do the addresses to
return to, here and in every moment of the history.  A machine that is not halted has a word at its
program counter.

An instruction may carry the program counter to the very end of memory, but then the machine is
halted (`Safe.of_complete`).  `Safe.of_move` takes the invariant through the seven ways for a step
to go, `Safe.perform` through all operations, and `Expected` reads off what a step of a safe machine
can still answer.
-/

set_option autoImplicit false

namespace TernaryMachine

/-- Memory of a size: as many cells and counters, and no protection beyond them. -/
structure Memory.Fits (size : Nat) (m : Memory) : Prop where
  cells : m.cells.size = size
  counts : m.counts.size = size
  guarded : ∀ a ∈ m.guarded, a < size

/-- A moment that a machine with memory of a size can be brought back to. -/
structure Moment.Fits (size : Nat) (moment : Moment) : Prop where
  cells : moment.cells.size = size
  pc : moment.registers.pc < size
  returns : Returns size moment.callStack

/-- The invariant of a machine. -/
structure Machine.Safe (m : Machine) : Prop where
  memory : m.memory.Fits m.config.memorySize.words
  pc_le : m.registers.pc ≤ m.config.memorySize.words
  pc_lt : m.state ≠ .halted → m.registers.pc < m.config.memorySize.words
  returns : Returns m.config.memorySize.words m.callStack
  moments : ∀ moment ∈ m.history.moments, moment.Fits m.config.memorySize.words

/-! ## Memory and history -/

namespace Memory.Fits

variable {size : Nat} {m m' : Memory}

/-- Memory with the same frame fits the same size. -/
theorem of_frame (h : m.Fits size) (hframe : m'.frame = m.frame) : m'.Fits size where
  cells := (congrArg Frame.cellCount hframe).trans h.cells
  counts := (congrArg Frame.counterCount hframe).trans h.counts
  guarded := by
    have hguarded : m'.guarded = m.guarded := congrArg Frame.guarded hframe
    rw [hguarded]
    exact h.guarded

/-- Fresh memory fits its size. -/
theorem fresh (size : MemorySize) (on : Bool) :
    ((Memory.fresh size).setTracking on).Fits size.words where
  cells := Array.size_replicate
  counts := Array.size_replicate
  guarded := fun a ha => absurd ha (AddressSet.not_mem_empty a)

/-- Clearing memory keeps its size. -/
theorem clear (h : m.Fits size) : m.clear.Fits size where
  cells := Array.size_replicate.trans h.cells
  counts := Array.size_replicate.trans h.counts
  guarded := fun a ha => absurd ha (AddressSet.not_mem_empty a)

/-- Loading an image keeps the size of memory. -/
theorem loadImage (h : m.Fits size) (image : List Word) : (m.loadImage image).Fits size where
  cells := (size_loadImage m image).trans h.cells
  counts := h.counts
  guarded := h.guarded

/-- Protecting a cell of memory keeps protection within the size. -/
theorem protect (h : m.Fits size) {a : Nat} (ha : a < size) :
    Fits size { m with guarded := m.guarded.insert a } where
  cells := h.cells
  counts := h.counts
  guarded := by
    intro b hb
    rcases AddressSet.mem_insert.1 hb with rfl | hb
    · exact ha
    · exact h.guarded b hb

/-- Lifting a protection keeps protection within the size. -/
theorem unprotect (h : m.Fits size) (a : Nat) : (m.unprotect a).Fits size where
  cells := h.cells
  counts := h.counts
  guarded := fun b hb => h.guarded b (AddressSet.mem_erase.1 hb).1

/-- Whatever a call of memory was, memory keeps its size. -/
theorem of_called (h : m.Fits size) {operation : MemoryOperation} {answer : MemoryAnswer}
    (hcalled : m.Called operation m' answer) : m'.Fits size := by
  cases hcalled with
  | load _ _ => exact h.of_frame (frame_touch m _)
  | store w _ _ => exact h.of_frame ((frame_touch _ _).trans (frame_write m _ w))
  | poke w _ => exact h.of_frame (frame_write m _ w)
  | protect ha => exact h.protect (h.cells ▸ ha)
  | unprotect a => exact h.unprotect a
  | loadImage image => exact h.loadImage image
  | clear => exact h.clear
  | setTracking on => exact ⟨h.cells, h.counts, h.guarded⟩
  | _ => exact h

/-- Every operation on memory keeps its size. -/
theorem perform (h : m.Fits size) (operation : MemoryOperation) :
    (m.perform operation).1.Fits size :=
  h.of_called (m.called operation)

end Memory.Fits

/-- A moment in a history is the one recorded last or was there before. -/
theorem History.mem_of_mem_record {h : History} {moment old : Moment}
    (hmem : old ∈ (h.record moment).moments) : old = moment ∨ old ∈ h.moments := by
  by_cases hrec : h.isRecording = true
  · rw [moments_record hrec] at hmem
    exact List.mem_cons.1 (List.mem_of_mem_take hmem)
  · rw [record_of_not_recording (Bool.not_eq_true _ ▸ hrec)] at hmem
    exact .inr hmem

/-- What holds of all moments holds of the one taken out and of the others. -/
theorem History.forall_of_pop? {P : Moment → Prop} {h h' : History} {moment : Moment}
    (hpop : h.pop? = some (moment, h')) (hall : ∀ old ∈ h.moments, P old) :
    P moment ∧ ∀ old ∈ h'.moments, P old := by
  unfold pop? at hpop
  split at hpop
  · cases hpop
  · next newest rest hmoments =>
    cases hpop
    rw [hmoments] at hall
    exact List.forall_mem_cons.1 hall

namespace Machine

variable {m m' : Machine}

/-! ## Steps -/

/-- A reason that does not leave a machine halted is a pause. -/
theorem isPause_of_state_halt {reason : HaltReason}
    (hstate : (m.halt reason).1.state ≠ .halted) : reason.isPause = true := by
  cases hpause : reason.isPause with
  | true => rfl
  | false =>
    rw [state_halt, hpause] at hstate
    exact absurd rfl hstate

/-- A run that goes on or only pauses after an instruction has a next word. -/
theorem pc_lt_of_reasonAfter {flow : Flow}
    (h : ∀ reason, m.reasonAfter flow = some reason → reason.isPause = true) :
    m.registers.pc < m.memory.size := by
  have hending := m.ending flow
  generalize m.reasonAfter flow = after at h hending
  cases hending with
  | halt => cases h _ rfl
  | endOfMemory => cases h _ rfl
  | outside _ => cases h _ rfl
  | condition hpc _ => exact hpc
  | none hpc _ => exact hpc

/-- What holds of the moments of the history, and of the present one if the step gets past the gate,
holds of the moments after the step. -/
theorem Move.forall_moments {P : Moment → Prop} {result : Except Fault Outcome}
    (hmove : m.Move m' result) (hnow : m.executes = true → P m.moment)
    (hold : ∀ moment ∈ m.history.moments, P moment) : ∀ moment ∈ m'.history.moments, P moment := by
  intro moment hmoment
  rw [hmove.history_eq] at hmoment
  split at hmoment
  · next hrun =>
    rcases History.mem_of_mem_record hmoment with rfl | hmem
    · exact hnow hrun
    · exact hold moment hmem
  · exact hold moment hmoment

namespace Safe

/-- A safe machine never stands outside its memory when it is to step. -/
theorem gate_ne_outside (h : m.Safe) : m.gate ≠ .outside := by
  intro hgate
  cases gate_eq_iff.1 hgate with
  | outside hstate _ _ hpc =>
    have hlt := h.pc_lt hstate
    have hsize : m.memory.size = m.config.memorySize.words := h.memory.cells
    omega

/-- After a move, every moment of the history fits. -/
theorem moments_step (h : m.Safe) {result : Except Fault Outcome} (hmove : m.Move m' result) :
    ∀ moment ∈ m'.history.moments, moment.Fits m.config.memorySize.words := by
  refine hmove.forall_moments ?_ h.moments
  intro hrun
  -- Only behind the last gate anything is recorded, and there the program counter has a word.
  obtain ⟨word, hgate⟩ := exists_gate_of_executes hrun
  exact ⟨h.memory.cells, h.memory.cells ▸ pc_lt_of_gate hgate, h.returns⟩

/-- What the invariant becomes while an instruction runs, whatever came of it. -/
theorem execution (h : m.Safe) {word : Word} {core : Core} {result : Except Fault Flow}
    (hgate : m.gate = .run word)
    (hexec : (m.fetch word).toCore.execute m.config.maxCallDepth.toNat word = (core, result)) :
    core.registers.pc ≤ m.config.memorySize.words ∧
      Returns m.config.memorySize.words core.callStack ∧
      ∀ flow, result = .ok flow → (core.follow flow).registers.pc ≤ m.config.memorySize.words := by
  have hsize : (m.fetch word).memory.size = m.config.memorySize.words := h.memory.cells
  have hpc : m.registers.pc < m.memory.size := pc_lt_of_gate hgate
  have hreturns : Returns (m.fetch word).memory.size (m.fetch word).callStack := by
    rw [hsize]
    exact h.returns
  have hexecution := Core.execution_of_eq hexec
  rw [← hsize]
  refine ⟨hexecution.pc_le hpc, hexecution.returns hpc hreturns, ?_⟩
  rintro flow rfl
  exact hexecution.pc_follow_le hpc hreturns

/-- An instruction that runs through may leave the program counter at the end of memory, and then
the machine is halted. -/
theorem of_complete (h : m.Safe) {word : Word} {core : Core} {flow : Flow}
    (hgate : m.gate = .run word)
    (hexec : (m.fetch word).toCore.execute m.config.maxCallDepth.toNat word = (core, .ok flow))
    (hcore : m'.toCore = core.follow flow) (hconfig : m'.config = m.config)
    (hmemory : m'.memory.Fits m.config.memorySize.words)
    (hmoments : ∀ moment ∈ m'.history.moments, moment.Fits m.config.memorySize.words)
    (hgoing : m'.state ≠ .halted → ∀ reason,
      ((m.fetch word).complete core flow).reasonAfter flow = some reason →
        reason.isPause = true) : m'.Safe := by
  obtain ⟨-, hreturns, hpc⟩ := h.execution hgate hexec
  rw [← hconfig] at hmemory hmoments hreturns hpc
  refine ⟨hmemory, ?_, ?_, ?_, hmoments⟩
  · rw [hcore]
    exact hpc flow rfl
  · intro hstate
    -- What the run could go on from was looked up in the core that the instruction left.
    have hlt : (core.follow flow).registers.pc < (core.follow flow).memory.size :=
      pc_lt_of_reasonAfter (hgoing hstate)
    rw [← hcore] at hlt
    exact hmemory.cells ▸ hlt
  · rw [hcore, Core.callStack_follow]
    exact hreturns

/-- Every way for a step to go keeps the invariant. -/
theorem of_move (h : m.Safe) {result : Except Fault Outcome} (hmove : m.Move m' result) :
    m'.Safe := by
  have hmemory := h.memory.of_frame hmove.frame_eq
  have hmoments := h.moments_step hmove
  cases hmove with
  | refused _ => exact h
  | exhausted _ => exact ⟨hmemory, h.pc_le, fun hstate => absurd rfl hstate, h.returns, hmoments⟩
  | pause hgate =>
    cases gate_eq_iff.1 hgate with
    | breakpoint hstate _ _ =>
      exact ⟨hmemory, h.pc_le, fun _ => h.pc_lt hstate, h.returns, hmoments⟩
  | outside hgate => exact absurd hgate h.gate_ne_outside
  | fault hgate hexec =>
    obtain ⟨hpc, hreturns, -⟩ := h.execution hgate hexec
    exact ⟨hmemory, hpc, fun hstate => absurd rfl hstate, hreturns, hmoments⟩
  | stop hgate hexec hreason =>
    refine h.of_complete hgate hexec rfl rfl hmemory hmoments ?_
    intro hstate other hother
    rw [hreason] at hother
    cases hother
    exact isPause_of_state_halt hstate
  | go hgate hexec hreason =>
    refine h.of_complete hgate hexec rfl rfl hmemory hmoments ?_
    intro _ other hother
    rw [hreason] at hother
    cases hother

/-- A step keeps a machine safe. -/
theorem step (h : m.Safe) : m.step.1.Safe := h.of_move m.move_step

/-! ## The other operations -/

/-- A step back keeps a machine safe. -/
theorem stepBack (h : m.Safe) {back : Machine} (hback : m.stepBack = .ok back) : back.Safe := by
  cases retreat_of_stepBack hback with
  | back hpop =>
    obtain ⟨hfits, hrest⟩ := History.forall_of_pop? hpop h.moments
    exact {
      memory := ⟨hfits.cells, h.memory.counts, h.memory.guarded⟩
      pc_le := Nat.le_of_lt hfits.pc
      pc_lt := fun _ => hfits.pc
      returns := hfits.returns
      moments := hrest }

/-- A machine at its beginning is safe as soon as its memory is. -/
theorem reset (hmemory : m.memory.Fits m.config.memorySize.words) : m.reset.Safe where
  memory := hmemory.clear
  pc_le := Nat.zero_le _
  pc_lt := fun _ => m.config.memorySize.words_pos
  returns := fun _ ha => nomatch ha
  moments := fun _ hmoment => nomatch hmoment

/-- Loading words keeps a machine safe. -/
theorem loadWords (h : m.Safe) (words : List Word) : (m.loadWords words).Safe :=
  have hreset : m.reset.Safe := reset h.memory
  ⟨hreset.memory.loadImage words, hreset.pc_le, hreset.pc_lt, hreset.returns, hreset.moments⟩

/-- Loading a program text keeps a machine safe. -/
theorem loadProgram (h : m.Safe) (text : String) : (m.loadProgram text).1.Safe := by
  unfold Machine.loadProgram
  split
  · exact reset h.memory
  · exact h.loadWords _

/-- A machine with a new size is safe. -/
theorem resize {size : MemorySize} {resized : Machine} (hresize : m.resize size = .ok resized) :
    resized.Safe := by
  unfold Machine.resize at hresize
  split at hresize
  · cases hresize
  · cases hresize
    exact reset (Memory.Fits.fresh size m.config.heatmapEnabled)

/-- A new machine is safe. -/
theorem new (config : Config) : (new config).Safe where
  memory := Memory.Fits.fresh config.memorySize config.heatmapEnabled
  pc_le := Nat.zero_le _
  pc_lt := fun _ => config.memorySize.words_pos
  returns := fun _ ha => nomatch ha
  moments := fun _ hmoment => nomatch hmoment

/-- Every operation keeps the invariant. -/
theorem perform (h : m.Safe) (operation : Operation) : (m.perform operation).1.Safe := by
  cases operation with
  | step => exact h.step
  | run budget => exact run_induction (fun _ hm => hm.step) h budget
  | stepBack =>
    simp only [Machine.perform]
    split
    · next back hback => exact h.stepBack hback
    · exact h
  | reset => exact reset h.memory
  | loadWords words => exact h.loadWords words
  | loadProgram text =>
    have hloaded := h.loadProgram text
    simp only [Machine.perform]
    split
    · next loaded words hload => rwa [hload] at hloaded
    · next loaded cause hload => rwa [hload] at hloaded
  | resize size =>
    simp only [Machine.perform]
    split
    · next resized hresize => exact resize hresize
    · exact h
  | setHistoryEnabled on =>
    refine ⟨h.memory, h.pc_le, h.pc_lt, h.returns, ?_⟩
    intro moment hmoment
    cases on with
    | true => exact h.moments moment hmoment
    | false => cases hmoment
  | setMaxHistory limit =>
    exact ⟨h.memory, h.pc_le, h.pc_lt, h.returns,
      fun moment hmoment => h.moments moment (List.mem_of_mem_take hmoment)⟩
  | setHeatmapEnabled on =>
    exact ⟨h.memory.perform (.setTracking on), h.pc_le, h.pc_lt, h.returns, h.moments⟩
  | setMaxCallDepth _ => exact ⟨h.memory, h.pc_le, h.pc_lt, h.returns, h.moments⟩
  | setMaxInstructions _ => exact ⟨h.memory, h.pc_le, h.pc_lt, h.returns, h.moments⟩
  | setBreakpoints _ => exact ⟨h.memory, h.pc_le, h.pc_lt, h.returns, h.moments⟩
  | setWatches _ => exact ⟨h.memory, h.pc_le, h.pc_lt, h.returns, h.moments⟩
  | attach _ => exact ⟨h.memory, h.pc_le, h.pc_lt, h.returns, h.moments⟩
  | drainLogs => exact ⟨h.memory, h.pc_le, h.pc_lt, h.returns, h.moments⟩
  | onMemory operation =>
    exact ⟨h.memory.perform operation, h.pc_le, h.pc_lt, h.returns, h.moments⟩

/-- Whatever operations are done, a machine is safe. -/
theorem performAll (config : Config) (operations : List Operation) :
    ((Machine.new config).performAll operations).Safe :=
  performAll_induction (fun _ operation hm => hm.perform operation) (new config) operations

end Safe

/-! ## What a safe machine answers -/

/-- What may come of a step of a safe machine. -/
inductive Expected (config : Config) : Except Fault Outcome → Prop where
  | continued : Expected config (.ok .continued)
  | haltInstruction : Expected config (.ok (.halted .haltInstruction))
  | endOfMemory : Expected config (.ok (.halted .endOfMemory))
  | breakpoint (a : Nat) : Expected config (.ok (.halted (.breakpoint a)))
  | condition (c : Condition) : Expected config (.ok (.halted (.condition c)))
  | notRunning : Expected config (.error (.notRunning .halted))
  | instructionLimit :
      Expected config (.error (.instructionLimit config.maxInstructions.toNat))
  | callStackOverflow : Expected config (.error (.callStackOverflow config.maxCallDepth.toNat))
  | emptyCallStack : Expected config (.error .emptyCallStack)
  | protectedCell (a : Nat) : Expected config (.error (.memory (.protectedCell a)))

/-- The indices that memory is asked for, and the copies of cells that are brought back, fit. -/
structure InBounds (m : Machine) : Prop where
  access : ∀ a ∈ m.dataAccesses, a < m.memory.cells.size ∧ a < m.memory.counts.size
  load : ∀ a, (∃ answer, m.memory.load a = .ok answer) → a < m.memory.counts.size
  store : ∀ a w, (∃ memory, m.memory.store a w = .ok memory) →
    a < m.memory.cells.size ∧ a < m.memory.counts.size
  image : ∀ image, m.memory.imageFit image ≤ m.memory.cells.size
  restore : ∀ moment rest, m.history.pop? = some (moment, rest) →
    moment.cells.size = m.memory.cells.size

/-- Every reason to stop after an instruction is expected. -/
theorem expected_of_reasonAfter {flow : Flow} {reason : HaltReason}
    (h : m.reasonAfter flow = some reason) (config : Config) :
    Expected config (.ok (.halted reason)) := by
  have hending := m.ending flow
  rw [h] at hending
  cases hending with
  | halt => exact .haltInstruction
  | endOfMemory => exact .endOfMemory
  | outside _ => exact .endOfMemory
  | condition _ _ => exact .condition _

/-- Every fault inside an instruction is expected. -/
theorem expected_of_raises {maxDepth : Nat} {f : Fault} (h : Core.Raises maxDepth f)
    {config : Config} (hdepth : maxDepth = config.maxCallDepth.toNat) :
    Expected config (.error f) := by
  cases h with
  | callStackOverflow => rw [hdepth]; exact .callStackOverflow
  | emptyCallStack => exact .emptyCallStack
  | protectedCell a => exact .protectedCell a

namespace Safe

/-- What comes of a step of a safe machine is expected. -/
theorem expected_of_move (h : m.Safe) {result : Except Fault Outcome} (hmove : m.Move m' result) :
    Expected m.config result := by
  cases hmove with
  | refused _ => exact .notRunning
  | exhausted _ => exact .instructionLimit
  | pause _ => exact .breakpoint _
  | outside hgate => exact absurd hgate h.gate_ne_outside
  | fault _ hexec => exact expected_of_raises (Core.execution_of_eq hexec).raises rfl
  | stop _ _ hreason => exact expected_of_reasonAfter hreason m.config
  | go _ _ _ => exact .continued

/-- A safe machine asks its memory only for cells that are there. -/
theorem inBounds (h : m.Safe) : m.InBounds := by
  have hsizes : m.memory.counts.size = m.memory.cells.size :=
    h.memory.counts.trans h.memory.cells.symm
  refine ⟨?_, ?_, ?_, fun _ => Nat.min_le_right _ _, ?_⟩
  · intro a ha
    have hlt : a < m.memory.cells.size := lt_size_of_mem_dataAccesses ha
    exact ⟨hlt, hsizes ▸ hlt⟩
  · rintro a ⟨answer, hload⟩
    by_cases hlt : a < m.memory.cells.size
    · exact hsizes ▸ hlt
    · rw [Memory.load_of_not_lt hlt] at hload
      cases hload
  · rintro a w ⟨memory, hstore⟩
    by_cases hlt : a < m.memory.cells.size
    · exact ⟨hlt, hsizes ▸ hlt⟩
    · rw [Memory.store_of_not_lt hlt] at hstore
      cases hstore
  · intro moment rest hpop
    have hfits := (History.forall_of_pop? hpop h.moments).1
    exact hfits.cells.trans h.memory.cells.symm

end Safe

/-- Whatever has been done with a machine, the invariant holds, its next step leaves no bounds,
and what comes of that step is one of the expected answers: never a program counter or an address
out of range. -/
theorem safe_after_operations (config : Config) (operations : List Operation) :
    let m := (new config).performAll operations
    m.Safe ∧ m.InBounds ∧
      m.step.1.memory.counts = (m.memory.touchAll m.dataAccesses).counts ∧
      Expected m.config m.step.2 ∧
      (∀ pc, m.step.2 ≠ .ok (.halted (.pcOutOfBounds pc))) ∧
      (∀ a, m.step.2 ≠ .error (.memory (.outOfRange a))) := by
  intro m
  have hsafe : m.Safe := Safe.performAll config operations
  have hexpected : Expected m.config m.step.2 := hsafe.expected_of_move m.move_step
  refine ⟨hsafe, hsafe.inBounds, m.counts_step, hexpected, ?_, ?_⟩
  · intro pc hresult
    rw [hresult] at hexpected
    cases hexpected
  · intro a hresult
    rw [hresult] at hexpected
    cases hexpected

end Machine

end TernaryMachine
