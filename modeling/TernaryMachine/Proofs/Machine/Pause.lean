import TernaryMachine.Proofs.Machine.Renewal
import TernaryMachine.Proofs.Machine.Transparency

/-!
# Pauses at breakpoint addresses

A machine that pauses at an address remembers it, and the next step passes the breakpoint there
once.  `Poised` is the invariant that ties what the machine remembers to the latest answer that it
gave: it remembers an address just if that answer was a pause there, and then it stands at the
address, paused, with an instruction left to run.  Steps and steps back keep it, in any order
(`Poised.performAll`); a step back that is refused changes nothing and is left out of account.

So an instruction at a breakpoint address is run just after the pause in front of it
(`Poised.executes_iff`), however often control comes by.
-/

set_option autoImplicit false

namespace TernaryMachine

/-- Whether an answer only refuses. -/
def Answer.isRefusal : Answer → Bool
  | .refused _ => true
  | _ => false

/-- The answer of a step that paused at a breakpoint address. -/
def Answer.pausedAt (p : Nat) : Answer := .stepped (.ok (.halted (.breakpoint p)))

namespace Machine

variable {b : Breakpoints} {m m' : Machine} {latest : Option Answer}

/-- The latest answer of a machine to a sequence of operations, refusals left out. -/
def latestAnswer? (m : Machine) (operations : List Operation) : Option Answer :=
  ((m.answers operations).filter fun answer => !answer.isRefusal).getLast?

/-- The operations after which a machine is not about to pass a breakpoint: what begins with a
reset, and a step back that is not refused. -/
inductive Rests (m : Machine) : Operation → Prop where
  | clears {operation : Operation} (h : m.Clears operation) : Rests m operation
  | stepBack {back : Machine} (h : m.stepBack = .ok back) : Rests m .stepBack

/-- What a machine with these breakpoints remembers of its latest answer. -/
structure Poised (b : Breakpoints) (m : Machine) (latest : Option Answer) : Prop where
  safe : m.Safe
  breakpoints : m.breakpoints = b
  resume : ∀ p, m.resumeAt = some p ↔ latest = some (.pausedAt p)
  ready : ∀ p, m.resumeAt = some p →
    m.registers.pc = p ∧ m.state = .paused ∧ ¬ m.Spent ∧ b.contains p = true

/-! ## Where nothing is remembered -/

/-- After a step back, the machine is not about to resume. -/
theorem resumeAt_stepBack {back : Machine} (h : m.stepBack = .ok back) : back.resumeAt = none := by
  cases retreat_of_stepBack h
  rfl

/-- A step back leaves the breakpoints. -/
theorem breakpoints_stepBack {back : Machine} (h : m.stepBack = .ok back) :
    back.breakpoints = m.breakpoints := by
  cases retreat_of_stepBack h
  rfl

/-- After an operation that lets it rest, the machine is not about to resume. -/
theorem resumeAt_of_rests {operation : Operation} (h : m.Rests operation) :
    (m.perform operation).1.resumeAt = none := by
  cases h with
  | clears hclears =>
    cases hclears with
    | reset => rfl
    | loadWords words => rfl
    | loadProgram text =>
      rw [perform_loadProgram_fst]
      unfold loadProgram
      split <;> rfl
    | resize size hstate =>
      simp only [perform, resize, if_neg hstate]
      rfl
  | stepBack hback =>
    simp only [perform, hback]
    exact resumeAt_stepBack hback

/-- A machine that is not about to resume, and did not pause last, is poised. -/
theorem Poised.of_none (hsafe : m.Safe) (hbreakpoints : m.breakpoints = b)
    (hnone : m.resumeAt = none) (hlatest : ∀ p, latest ≠ some (.pausedAt p)) :
    Poised b m latest where
  safe := hsafe
  breakpoints := hbreakpoints
  resume p := by
    rw [hnone]
    exact iff_of_false nofun (hlatest p)
  ready p hp := by
    rw [hnone] at hp
    cases hp

/-! ## Steps in either direction -/

/-- A move leaves the breakpoints. -/
theorem Move.breakpoints_eq {result : Except Fault Outcome} (h : m.Move m' result) :
    m'.breakpoints = m.breakpoints := by
  cases h <;> rfl

namespace Poised

/-- A machine that cannot run the next instruction remembers nothing. -/
theorem resumeAt_eq_none (h : Poised b m latest) (hstop : m.state = .halted ∨ m.Spent) :
    m.resumeAt = none := by
  cases hresume : m.resumeAt with
  | none => rfl
  | some p =>
    obtain ⟨-, hpaused, hleft, -⟩ := h.ready p hresume
    rcases hstop with hstate | hspent
    · rw [hstate] at hpaused
      cases hpaused
    · exact absurd hspent hleft

/-- A move leaves the machine poised, with its result for the latest answer. -/
theorem of_move (h : Poised b m latest) {result : Except Fault Outcome}
    (hmove : m.Move m' result) : Poised b m' (some (.stepped result)) := by
  have hsafe : m'.Safe := h.safe.of_move hmove
  have hbreakpoints : m'.breakpoints = b := hmove.breakpoints_eq.trans h.breakpoints
  cases hmove with
  | refused hgate =>
    exact of_none hsafe hbreakpoints (h.resumeAt_eq_none (.inl (state_of_refused hgate))) nofun
  | exhausted hgate =>
    cases gate_eq_iff.1 hgate with
    | exhausted _ hspent =>
      exact of_none hsafe hbreakpoints (h.resumeAt_eq_none (.inr hspent)) nofun
  | pause hgate =>
    cases gate_eq_iff.1 hgate with
    | breakpoint hstate hspent hbreak =>
      refine ⟨hsafe, hbreakpoints, ?_, ?_⟩
      · intro p
        show some m.registers.pc = some p ↔ _
        constructor
        · intro hp
          cases hp
          rfl
        · intro hp
          cases hp
          rfl
      · intro p hp
        have hpc : m.registers.pc = p := Option.some.inj hp
        subst hpc
        exact ⟨rfl, rfl, hspent, h.breakpoints ▸ hbreak.2⟩
  | outside hgate => exact absurd hgate h.safe.gate_ne_outside
  | fault _ _ => exact of_none hsafe hbreakpoints rfl nofun
  | @stop word core flow reason _ _ hreason =>
    refine of_none hsafe hbreakpoints rfl ?_
    rintro p hp
    cases hp
    exact reasonAfter_ne_breakpoint _ flow p hreason
  | go _ _ _ => exact of_none hsafe hbreakpoints rfl nofun

/-- One call: what is remembered is renewed by an answer and outlasts a refusal. -/
theorem perform (h : Poised b m latest) {call : Operation}
    (hcall : call = .step ∨ call = .stepBack) :
    Poised b (m.perform call).1
      (if (m.perform call).2.isRefusal then latest else some (m.perform call).2) := by
  rcases hcall with rfl | rfl
  · exact h.of_move m.move_step
  · cases hback : m.stepBack with
    | error refusal =>
      simp only [Machine.perform, hback]
      exact h
    | ok back =>
      simp only [Machine.perform, hback]
      have hbreakpoints : back.breakpoints = b :=
        (breakpoints_stepBack hback).trans h.breakpoints
      refine of_none (h.safe.stepBack hback) hbreakpoints (resumeAt_stepBack hback) ?_
      intro p hp
      cases hp

end Poised

/-! ## Rows of calls -/

/-- The first of a row of operations is the latest to answer only if none behind it does. -/
theorem latestAnswer?_cons (m : Machine) (call : Operation) (rest : List Operation) :
    (m.latestAnswer? (call :: rest)).or latest =
      ((m.perform call).1.latestAnswer? rest).or
        (if (m.perform call).2.isRefusal then latest else some (m.perform call).2) := by
  unfold latestAnswer?
  rw [answers]
  cases hrefusal : (m.perform call).2.isRefusal with
  | true => rw [List.filter_cons_of_neg (by simp [hrefusal]), if_pos rfl]
  | false =>
    rw [List.filter_cons_of_pos (by simp [hrefusal]), List.getLast?_cons]
    cases (((m.perform call).1.answers rest).filter fun answer => !answer.isRefusal).getLast? <;>
      rfl

namespace Poised

/-- Steps and steps back keep the machine poised. -/
theorem performAll (h : Poised b m latest) {calls : List Operation}
    (hcalls : ∀ call ∈ calls, call = .step ∨ call = .stepBack) :
    Poised b (m.performAll calls) ((m.latestAnswer? calls).or latest) := by
  induction calls generalizing m latest with
  | nil => exact h
  | cons call rest ih =>
    obtain ⟨hcall, hrest⟩ := List.forall_mem_cons.1 hcalls
    rw [latestAnswer?_cons]
    exact ih (h.perform hcall) hrest

/-- The instruction at a breakpoint address is what runs next just if the latest answer was the
pause there. -/
theorem executes_iff (h : Poised b m latest) (p : Nat) :
    (m.executes = true ∧ m.registers.pc = p ∧ b.contains p = true) ↔
      latest = some (.pausedAt p) := by
  rw [← h.resume]
  constructor
  · rintro ⟨hrun, rfl, hcontains⟩
    obtain ⟨word, hgate⟩ := exists_gate_of_executes hrun
    cases gate_eq_iff.1 hgate with
    | run _ _ hbreak _ =>
      -- A breakpoint that the machine does not resume from would have stopped it.
      apply Classical.byContradiction
      intro hresume
      rw [← h.breakpoints] at hcontains
      exact hbreak ⟨hresume, hcontains⟩
  · intro hresume
    obtain ⟨rfl, hstate, hspent, hcontains⟩ := h.ready p hresume
    have halive : m.state ≠ .halted := by
      rw [hstate]
      decide
    have hpc : m.registers.pc < m.memory.cells.size := by
      rw [h.safe.memory.cells]
      exact h.safe.pc_lt halive
    have hword : m.memory.peek? m.registers.pc = some m.memory.cells[m.registers.pc] :=
      Array.getElem?_eq_getElem hpc
    have hbreak : ¬ m.AtBreakpoint := fun hat => hat.1 hresume
    exact ⟨executes_of_gate (gate_eq_iff.2 (.run halive hspent hbreak hword)), rfl, hcontains⟩

end Poised

/-- A step that pauses at an address only remembers it, and tells the observers. -/
theorem step_eq_of_pause {p : Nat} (h : m.step.2 = .ok (.halted (.breakpoint p))) :
    p = m.registers.pc ∧ m.step.1 =
      { m with
        state := .paused
        resumeAt := some p
        observers := m.observers.map (Observer.tell (.halt (.breakpoint p))) } := by
  have hpause : m.turn.isPause = true := by
    simp only [Turn.isPause, turn, h]
  have hstep := (Move.pause ((isPause_turn m).1 hpause)).step_eq
  rw [hstep] at h ⊢
  cases h
  exact ⟨rfl, rfl⟩

/-- **Breakpoint addresses are exact.**  Let a machine that was reached by operations be reset,
loaded, resized or taken back a step, and set its breakpoints.  However it is then stepped forward
and back, the instruction at a breakpoint address is what runs next just if the latest call that was
not refused was a step that paused at that address: it is never run without the pause, and never
paused at twice.  A step that pauses there changes nothing but the state and the address to resume
at. -/
theorem breakpoints_exact (config : Config) (operations : List Operation) (start : Operation)
    (hstart : ((new config).performAll operations).Rests start) (breakpoints : Breakpoints)
    (calls : List Operation) (hcalls : ∀ call ∈ calls, call = .step ∨ call = .stepBack) :
    let m : Machine :=
      { (((new config).performAll operations).perform start).1 with breakpoints := breakpoints }
    let now := m.performAll calls
    (∀ p, (now.executes = true ∧ now.registers.pc = p ∧ breakpoints.contains p = true) ↔
      m.latestAnswer? calls = some (.pausedAt p)) ∧
    ∀ p, now.step.2 = .ok (.halted (.breakpoint p)) →
      p = now.registers.pc ∧ now.step.1 =
        { now with
          state := .paused
          resumeAt := some p
          observers := now.observers.map (Observer.tell (.halt (.breakpoint p))) } := by
  intro m now
  have hsafe : (((new config).performAll operations).perform start).1.Safe :=
    (Safe.performAll config operations).perform start
  have hm : Poised breakpoints m none := by
    refine Poised.of_none ?_ rfl (resumeAt_of_rests hstart) nofun
    exact ⟨hsafe.memory, hsafe.pc_le, hsafe.pc_lt, hsafe.returns, hsafe.moments⟩
  have hnow : Poised breakpoints now (m.latestAnswer? calls) := by
    have hall := hm.performAll hcalls
    rwa [Option.or_none] at hall
  exact ⟨hnow.executes_iff, fun p => step_eq_of_pause⟩

/-- A machine taken back to a jump to itself, where a breakpoint is set then. -/
def selfJump : Machine :=
  { (((new {}).performAll [.loadWords [3, 0], .step]).perform .stepBack).1 with
    breakpoints := Breakpoints.none.add 0 }

/-- A machine that paused at a breakpoint still runs on after a step back that is refused, and
pauses when it comes to the breakpoint again. -/
theorem breakpoints_exact_selfJump :
    (selfJump.performAll [.step, .stepBack]).executes = true ∧
    (selfJump.performAll [.step, .stepBack, .step]).executes = false := by
  have hexact : ∀ calls : List Operation, (∀ call ∈ calls, call = .step ∨ call = .stepBack) →
      ((selfJump.performAll calls).executes = true ∧
        (selfJump.performAll calls).registers.pc = 0 ∧ (Breakpoints.none.add 0).contains 0 = true ↔
          selfJump.latestAnswer? calls = some (.pausedAt 0)) := by
    intro calls hcalls
    exact (breakpoints_exact {} [.loadWords [3, 0], .step] .stepBack (.stepBack rfl)
      (Breakpoints.none.add 0) calls hcalls).1 0
  constructor
  · obtain ⟨hrun, -, -⟩ := (hexact [.step, .stepBack] (by decide)).2 rfl
    exact hrun
  · rw [Bool.eq_false_iff]
    intro hrun
    have hpause := (hexact [.step, .stepBack, .step] (by decide)).1
      ⟨hrun, by decide +kernel, by decide +kernel⟩
    cases hpause

end Machine

end TernaryMachine
