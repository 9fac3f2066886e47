import TernaryMachine.Proofs.Machine.Access
import TernaryMachine.Proofs.Machine.Landing
import TernaryMachine.Proofs.Machine.Operation

/-!
# What a failing step leaves behind

A fault inside an instruction comes up when the word is fetched, the moment before it is recorded
and the program counter is on the operand already.  `Core.Fails` lists the four ways for that to
happen: a call on a full stack, a return on an empty one, and a store into a protected cell,
directly or through a pointer.  Each leaves the core as it was when the opcode was performed, but
for the access to the pointer.

`failed_step` puts this together with the two failures that come before any instruction, and says
of every part of the machine what a step that fails makes of it.
-/

set_option autoImplicit false

namespace TernaryMachine

/-! ## Faults of an opcode -/

namespace Core

/-- The ways for an opcode with its operand to fault, with the core that it leaves. -/
inductive Fails (maxDepth : Nat) (c : Core) (operand : Word) : Opcode → Core → Fault → Prop where
  | overflow (hdepth : maxDepth ≤ c.callStack.length) :
      Fails maxDepth c operand .call c (.callStackOverflow maxDepth)
  | empty (hstack : c.callStack = []) : Fails maxDepth c operand .ret c .emptyCallStack
  | refused {a : Nat} (htarget : c.memory.address? operand = some a)
      (hguard : a ∈ c.memory.guarded) :
      Fails maxDepth c operand .store c (.memory (.protectedCell a))
  | refusedThrough {p a : Nat} (hpointer : c.memory.address? operand = some p)
      (htarget : c.memory.pointee? p = some a) (hguard : a ∈ c.memory.guarded) :
      Fails maxDepth c operand .storei { c with memory := c.memory.touch p }
        (.memory (.protectedCell a))

variable {maxDepth : Nat} {c c' : Core} {f : Fault}

/-- Loading from where a word addresses never fails. -/
theorem loadFrom_address? (c : Core) (w : Word) :
    (c.loadFrom (c.memory.address? w)).2 = .ok .next := by
  cases htarget : c.memory.address? w with
  | none => rfl
  | some a =>
    obtain ⟨v, -, hload⟩ := Memory.load_of_lt (Memory.address?_eq_some_iff.1 htarget).2
    simp only [loadFrom, hload]

/-- Storing to where a word addresses fails only for a protected cell, and then leaves the core. -/
theorem storeTo_address?_eq_error {w : Word}
    (h : c.storeTo (c.memory.address? w) = (c', .error f)) :
    c' = c ∧ ∃ a, c.memory.address? w = some a ∧ a ∈ c.memory.guarded ∧
      f = .memory (.protectedCell a) := by
  cases htarget : c.memory.address? w with
  | none =>
    rw [htarget] at h
    cases h
  | some a =>
    have ha : a < c.memory.size := (Memory.address?_eq_some_iff.1 htarget).2
    by_cases hguard : a ∈ c.memory.guarded
    · simp only [htarget, storeTo, Memory.store_of_guarded ha hguard] at h
      cases h
      exact ⟨rfl, a, rfl, hguard, rfl⟩
    · simp only [htarget, storeTo, Memory.store_of_free ha hguard] at h
      cases h

/-- An access through a pointer is no access at all, or the access to what the pointer names after
the pointer's own cell has been touched. -/
theorem through_address? (access : Core → Option Nat → Core × Except Fault Flow) (c : Core)
    (w : Word) :
    c.through (c.memory.address? w) access = access c none ∨
      ∃ p v, c.memory.address? w = some p ∧ c.memory.pointee? p = c.memory.address? v ∧
        c.through (c.memory.address? w) access =
          access { c with memory := c.memory.touch p } ((c.memory.touch p).address? v) := by
  cases hpointer : c.memory.address? w with
  | none => exact .inl rfl
  | some p =>
    obtain ⟨v, hcell, hload⟩ := Memory.load_of_lt (Memory.address?_eq_some_iff.1 hpointer).2
    refine .inr ⟨p, v, rfl, ?_, ?_⟩
    · simp only [Memory.pointee?, Memory.peek?, hcell, Option.bind_some]
    · simp only [through, hload]

/-- An opcode that faults does so in one of the four ways. -/
theorem fails_of_perform {op : Opcode} {operand : Word}
    (h : c.perform maxDepth op operand = (c', .error f)) : Fails maxDepth c operand op c' f := by
  cases op with
  | call =>
    by_cases hdepth : maxDepth ≤ c.callStack.length
    · simp only [perform, hdepth, if_true] at h
      cases h
      exact .overflow hdepth
    · simp only [perform, hdepth, if_false] at h
      split at h <;> cases h
  | ret =>
    cases hstack : c.callStack with
    | nil =>
      simp only [perform, hstack] at h
      cases h
      exact .empty hstack
    | cons a rest =>
      simp only [perform, hstack] at h
      cases h
  | load =>
    have hload := c.loadFrom_address? operand
    have hresult : (c.loadFrom (c.memory.address? operand)).2 = .error f := congrArg Prod.snd h
    rw [hload] at hresult
    cases hresult
  | store =>
    obtain ⟨rfl, a, htarget, hguard, rfl⟩ := storeTo_address?_eq_error h
    exact .refused htarget hguard
  | loadi =>
    have hresult : (c.through (c.memory.address? operand) loadFrom).2 = .error f :=
      congrArg Prod.snd h
    -- Wherever the pointer leads, a load does not fault.
    rcases through_address? loadFrom c operand with hnone | ⟨p, v, -, -, hthrough⟩
    · rw [hnone] at hresult
      cases hresult
    · have hload := ({ c with memory := c.memory.touch p } : Core).loadFrom_address? v
      rw [hthrough, hload] at hresult
      cases hresult
  | storei =>
    have hthrough : c.through (c.memory.address? operand) storeTo = (c', .error f) := h
    rcases through_address? storeTo c operand with hnone | ⟨p, v, hpointer, hv, heq⟩
    · rw [hnone] at hthrough
      cases hthrough
    · rw [heq] at hthrough
      obtain ⟨rfl, a, htarget, hguard, rfl⟩ :=
        storeTo_address?_eq_error (c := { c with memory := c.memory.touch p }) hthrough
      rw [Memory.address?_touch, ← hv] at htarget
      rw [Memory.guarded_touch] at hguard
      exact .refusedThrough hpointer htarget hguard
  | _ => cases h

/-- What a word that faults leaves of the core.  The program counter is on the last word of the
instruction, and of memory at most the counter of a pointer's cell is another. -/
theorem core_of_execute {word : Word} (h : c.execute maxDepth word = (c', .error f)) :
    ∃ op, Opcode.decode? word = some op ∧ c'.callStack = c.callStack ∧
      c'.registers = { c.registers with pc := c.registers.pc + op.width - 1 } ∧
      (op ≠ .storei ∧ c'.memory = c.memory ∨
        op = .storei ∧ ∃ p, c.memory.pointee? (c.registers.pc + 1) = some p ∧
          c'.memory = c.memory.touch p) := by
  unfold execute at h
  split at h
  · cases h
  · next op hdecode =>
    refine ⟨op, hdecode, ?_⟩
    split at h
    · next hoperand =>
      have hwidth : op.width = 2 := if_pos hoperand
      rw [hwidth]
      dsimp only at h
      split at h
      · cases h
      · next operand hpeek =>
        cases fails_of_perform h with
        | @refusedThrough p a hpointer _ _ =>
          have hp : c.memory.pointee? (c.registers.pc + 1) = some p :=
            Option.bind_eq_some_iff.2 ⟨operand, hpeek, hpointer⟩
          exact ⟨rfl, rfl, .inr ⟨rfl, p, hp, rfl⟩⟩
        | _ => exact ⟨rfl, rfl, .inl ⟨Opcode.noConfusion, rfl⟩⟩
    · next hoperand =>
      have hwidth : op.width = 1 := if_neg hoperand
      rw [hwidth]
      cases fails_of_perform h with
      | refusedThrough _ _ _ => exact absurd rfl hoperand
      | _ => exact ⟨rfl, rfl, .inl ⟨Opcode.noConfusion, rfl⟩⟩

end Core

/-! ## Failing steps -/

/-- A history after one more moment: the moment is the newest, and the oldest makes room for it if
need be.  A history that is not recording stays as it is. -/
structure History.Gains (moment : Moment) (before after : History) : Prop where
  capacity : after.capacity = before.capacity
  enabled : after.enabled = before.enabled
  silent : before.isRecording = false → after.moments = before.moments
  room : before.isRecording = true → before.length < before.capacity →
    after.moments = moment :: before.moments
  full : before.isRecording = true → before.length = before.capacity →
    after.moments = moment :: before.moments.dropLast

/-- Recording a moment is all that a history gains. -/
theorem History.gains_record (h : History) (moment : Moment) :
    h.Gains moment (h.record moment) where
  capacity := h.capacity_record moment
  enabled := h.enabled_record moment
  silent := by
    intro hoff
    rw [record_of_not_recording hoff]
  room := by
    intro hon hlt
    rw [moments_record hon]
    exact List.take_of_length_le hlt
  full := by
    intro hon hfull
    have hpos : 0 < h.capacity := by
      simp only [isRecording, Bool.and_eq_true, decide_eq_true_eq] at hon
      exact hon.2
    obtain ⟨k, hk⟩ : ∃ k, h.capacity = k + 1 := ⟨h.capacity - 1, by omega⟩
    have hlength : h.moments.length - 1 = k := by
      simp only [length] at hfull
      omega
    rw [moments_record hon, hk, List.take_succ_cons, List.dropLast_eq_take, hlength]

namespace Machine

/-- What no failing step changes. -/
structure Spared (m m' : Machine) : Prop where
  acc : m'.registers.acc = m.registers.acc
  cells : m'.memory.cells = m.memory.cells
  guarded : m'.memory.guarded = m.memory.guarded
  tracking : m'.memory.tracking = m.memory.tracking
  callStack : m'.callStack = m.callStack
  instructionCount : m'.instructionCount = m.instructionCount
  config : m'.config = m.config
  breakpoints : m'.breakpoints = m.breakpoints
  watches : m'.watches = m.watches

/-- What a fetched word whose opcode faults changes: the machine is halted on the last word of the
instruction, and the moment before the step is remembered.  An access is counted only for the
pointer that an indirect store has read. -/
structure Interrupted (m : Machine) (f : Fault) (word : Word) (op : Opcode) (m' : Machine) :
    Prop where
  fetched : m.memory.peek? m.registers.pc = some word
  decoded : Opcode.decode? word = some op
  state : m'.state = .halted
  ir : m'.registers.ir = word
  pc : m'.registers.pc = m.registers.pc + op.width - 1
  resumeAt : m'.resumeAt = none
  history : m.history.Gains m.moment m'.history
  counts : op ≠ .storei → m'.memory.counts = m.memory.counts
  counts_indirect : op = .storei → ∃ p, m.memory.pointee? (m.registers.pc + 1) = some p ∧
    m'.memory.counts =
      if m.memory.tracking then m.memory.counts.modify p (· + 1) else m.memory.counts
  observers : m'.observers = m.observers.map (Observer.tell (.fault f))

/-- A move that fails spares all that the program works on. -/
theorem Move.spared {m m' : Machine} {f : Fault} (h : m.Move m' (.error f)) : m.Spared m' := by
  cases h with
  | refused _ => exact ⟨rfl, rfl, rfl, rfl, rfl, rfl, rfl, rfl, rfl⟩
  | exhausted _ => exact ⟨rfl, rfl, rfl, rfl, rfl, rfl, rfl, rfl, rfl⟩
  | @fault word core _ _ hexec =>
    obtain ⟨op, -, hstack, hregisters, hmemory⟩ := Core.core_of_execute hexec
    have hacc : core.registers.acc = m.registers.acc := by
      rw [hregisters]
      rfl
    rcases hmemory with ⟨-, hsame⟩ | ⟨-, p, -, htouch⟩
    · exact ⟨hacc, congrArg Memory.cells hsame, congrArg Memory.guarded hsame,
        congrArg Memory.tracking hsame, hstack, rfl, rfl, rfl, rfl⟩
    · refine ⟨hacc, ?_, ?_, ?_, hstack, rfl, rfl, rfl, rfl⟩
      · exact (congrArg Memory.cells htouch).trans (Memory.cells_touch _ p)
      · exact (congrArg Memory.guarded htouch).trans (Memory.guarded_touch _ p)
      · exact (congrArg Memory.tracking htouch).trans (Memory.tracking_touch _ p)

/-- A fault inside an instruction leaves the machine interrupted on the last word of it. -/
theorem interrupted_of_execute {m : Machine} {word : Word} {core : Core} {f : Fault}
    (hgate : m.gate = .run word)
    (hexec : (m.fetch word).toCore.execute m.config.maxCallDepth.toNat word = (core, .error f)) :
    ∃ op, m.Interrupted f word op (({ m.fetch word with toCore := core } : Machine).fault f).1 := by
  obtain ⟨op, hdecode, -, hregisters, hmemory⟩ := Core.core_of_execute hexec
  have hword : m.memory.peek? m.registers.pc = some word := by
    cases gate_eq_iff.1 hgate with
    | run _ _ _ hword => exact hword
  refine ⟨op, hword, hdecode, rfl, congrArg Registers.ir hregisters,
    congrArg Registers.pc hregisters, rfl, m.history.gains_record m.moment, ?_, ?_, rfl⟩
  · intro hop
    rcases hmemory with ⟨-, hsame⟩ | ⟨hstorei, -⟩
    · exact congrArg Memory.counts hsame
    · exact absurd hstorei hop
  · intro hop
    rcases hmemory with ⟨hother, -⟩ | ⟨-, p, hp, htouch⟩
    · exact absurd hop hother
    · exact ⟨p, hp, (congrArg Memory.counts htouch).trans (Memory.counts_touch _ p)⟩

/-- **A failing step leaves no partial effect.**  Whatever the fault, accumulator, cells, call
stack, protection, count of instructions, configuration, breakpoints and watches are as they were.
A halted machine is not changed at all, and one that has reached its limit only becomes halted, of
which its observers are told.  The faults of instructions are three; with each of them the machine
is halted on the last word of the instruction, with the word in the instruction register, not
resuming, and the moment before the step remembered, and at most one access is counted, to the cell
of a pointer. -/
theorem failed_step (m : Machine) (f : Fault) (h : m.step.2 = .error f) :
    m.Spared m.step.1 ∧
    match f with
    | .notRunning _ => m.step.1 = m
    | .instructionLimit _ => m.step.1 = ({ m with state := .halted } : Machine).notify (.fault f)
    | .callStackOverflow _ | .emptyCallStack | .memory (.protectedCell _) =>
      ∃ word op, m.Interrupted f word op m.step.1
    | .memory _ => False := by
  have hmove := m.move_step
  rw [h] at hmove
  refine ⟨hmove.spared, ?_⟩
  generalize m.step.1 = m' at hmove
  cases hmove with
  | refused _ => rfl
  | exhausted _ => rfl
  | fault hgate hexec =>
    have hinterrupted := interrupted_of_execute hgate hexec
    cases (Core.execution_of_eq hexec).raises with
    | callStackOverflow => exact ⟨_, hinterrupted⟩
    | emptyCallStack => exact ⟨_, hinterrupted⟩
    | protectedCell a => exact ⟨_, hinterrupted⟩

/-- A machine that counts accesses, with room for one moment, before a store through a pointer to a
protected cell. -/
def aboutToFail : Machine :=
  (new { memorySize := .small, maxHistory := 1, heatmapEnabled := true }).performAll
    [.loadWords [9, -10, 4, 0, 20], .onMemory (.protect 20), .step]

/-- A store through a pointer to a protected cell fails with a full history, and counts the access
to the pointer only. -/
theorem failed_step_storingThrough :
    aboutToFail.step.2 = .error (.memory (.protectedCell 20)) ∧
    aboutToFail.history.length = aboutToFail.history.capacity ∧
    aboutToFail.step.1.registers.acc = 1 ∧ aboutToFail.step.1.registers.pc = 2 ∧
    aboutToFail.step.1.history.moments = [aboutToFail.moment] ∧
    aboutToFail.step.1.memory.counts = aboutToFail.memory.counts.modify 4 (· + 1) ∧
    aboutToFail.step.1.memory.cells = aboutToFail.memory.cells := by
  have hfail : aboutToFail.step.2 = .error (.memory (.protectedCell 20)) := by rfl
  have hfull : aboutToFail.history.length = aboutToFail.history.capacity := by decide +kernel
  have hword : aboutToFail.memory.peek? aboutToFail.registers.pc = some (-10) := by
    decide +kernel
  have hpointer : aboutToFail.memory.pointee? (aboutToFail.registers.pc + 1) = some 4 := by
    decide +kernel
  have htracking : aboutToFail.memory.tracking = true := by decide +kernel
  have hpast : aboutToFail.history.moments.dropLast = [] := by decide +kernel
  obtain ⟨hspared, word, op, hinterrupted⟩ := failed_step aboutToFail _ hfail
  obtain rfl : word = -10 := Option.some.inj (hinterrupted.fetched.symm.trans hword)
  obtain rfl : op = .storei := Option.some.inj (hinterrupted.decoded.symm.trans rfl)
  refine ⟨hfail, hfull, hspared.acc.trans (by decide +kernel),
    hinterrupted.pc.trans (by decide +kernel), ?_, ?_, hspared.cells⟩
  · rw [hinterrupted.history.full (by decide +kernel) hfull, hpast]
  · obtain ⟨p, hp, hcounts⟩ := hinterrupted.counts_indirect rfl
    obtain rfl : p = 4 := Option.some.inj (hp.symm.trans hpointer)
    rwa [htracking, if_pos rfl] at hcounts

end Machine

end TernaryMachine
