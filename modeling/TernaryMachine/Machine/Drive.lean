import TernaryMachine.Machine.Step

/-!
# Driving a machine to its end

`Machine.drive` takes one step after another and goes on through pauses, until the program stops
or a step fails.  It always comes to an end: every instruction uses up one of those that the
limit leaves, and a pause at an address is followed by an instruction.  `Machine.remaining`
counts both, and `remaining_step_lt` says that it falls with every step that is gone on from.
-/

set_option autoImplicit false

namespace TernaryMachine

/-- One step of a machine with the machine before and after it. -/
structure Turn where
  before : Machine
  after : Machine
  result : Except Fault Outcome

/-- Whether driving goes on after a step: it does after pauses, not after other stops. -/
def goesOn : Except Fault Outcome → Bool
  | .ok .continued => true
  | .ok (.halted reason) => reason.isPause
  | .error _ => false

namespace Machine

/-- The next step as a turn. -/
def turn (m : Machine) : Turn := ⟨m, m.step.1, m.step.2⟩

/-- A bound for the steps that a machine can still be driven: two for each instruction left,
one less if the machine is about to pass the breakpoint that it is paused at. -/
def remaining (m : Machine) : Nat :=
  2 * (m.config.maxInstructions.toNat - m.instructionCount) +
    (if m.resumeAt = some m.registers.pc then 0 else 1)

/-- What is left of a drive is at most twice the instructions that are left, and one more for a
breakpoint to pause at. -/
theorem remaining_le (m : Machine) :
    m.remaining ≤ 2 * (m.config.maxInstructions.toNat - m.instructionCount) + 1 := by
  unfold remaining
  split <;> omega

/-- An instruction after which a drive goes on is counted once, under the same limit. -/
theorem instructionCount_runWord {m : Machine} {word : Word}
    (h : goesOn (m.runWord word).2 = true) :
    (m.runWord word).1.instructionCount = m.instructionCount + 1 ∧
      (m.runWord word).1.config = m.config := by
  unfold runWord at h ⊢
  cases hexec : (m.fetch word).toCore.execute (m.fetch word).config.maxCallDepth.toNat word with
  | mk core result =>
    cases result with
    | error f => simp [hexec, fault, goesOn] at h
    | ok flow =>
      simp only [hexec]
      cases ((m.fetch word).complete core flow).reasonAfter flow with
      | none => exact ⟨rfl, rfl⟩
      | some reason => exact ⟨rfl, rfl⟩

/-- A machine meets a breakpoint only where it is not about to resume. -/
theorem resumeAt_ne_of_gate {m : Machine} (h : m.gate = .breakpoint) :
    m.resumeAt ≠ some m.registers.pc := by
  unfold gate at h
  split at h
  · cases h
  · split at h
    · cases h
    · split at h
      · next hb => exact hb.1
      · split at h <;> cases h

/-- A step that is gone on from leaves fewer steps to go. -/
theorem remaining_step_lt {m : Machine} (h : goesOn m.step.2 = true) :
    m.step.1.remaining < m.remaining := by
  cases hgate : m.gate with
  | refused => simp [step, hgate, goesOn] at h
  | exhausted => simp [step, hgate, fault, goesOn] at h
  | breakpoint =>
    have hresume := resumeAt_ne_of_gate hgate
    simp [step, hgate, halt, notify, remaining, hresume]
  | outside => simp [step, hgate, halt, goesOn, HaltReason.isPause] at h
  | run word =>
    simp only [step, hgate] at h ⊢
    have hlt := instructionCount_lt_of_gate hgate
    obtain ⟨hcount, hconfig⟩ := instructionCount_runWord h
    have hle := remaining_le (m.runWord word).1
    rw [hcount, hconfig] at hle
    unfold remaining at hle ⊢
    omega

/-- Takes steps through pauses to the end, telling `visit` every step but the last, which is
given back. -/
def drive {σ : Type} (visit : σ → Turn → σ) (s : σ) (m : Machine) : σ × Turn :=
  let turn := m.turn
  if _h : goesOn turn.result = true then drive visit (visit s turn) turn.after else (s, turn)
termination_by m.remaining
decreasing_by exact remaining_step_lt _h

end Machine

end TernaryMachine
