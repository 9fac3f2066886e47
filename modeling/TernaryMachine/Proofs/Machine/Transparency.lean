import TernaryMachine.Proofs.Machine.Turns

/-!
# Breakpoints are transparent

A machine with breakpoints, driven through its pauses to the end, does what it does without them.
`Shadows` relates the two: the plain machine is as far as the other, and only what breakpoints
themselves bring about tells them apart, which is whether the machine is paused, where it resumes
and what the observers were told.  One step of the machine with breakpoints is either a pause at an
address, and then the plain machine stands still, or it is matched by a step of the plain one
(`Shadows.step`).  A pause on a condition is matched by a step that simply continues.

`drive_withoutBreakpoints` carries this through the whole drive, by induction on the steps that
remain: same end, same machine there, and turn by turn the same work.
-/

set_option autoImplicit false

namespace TernaryMachine

/-- Whether a turn only paused at a breakpoint address. -/
def Turn.isPause (turn : Turn) : Bool :=
  match turn.result with
  | .ok (.halted (.breakpoint _)) => true
  | _ => false

/-- How far a machine is: what it computes with, the instructions that it ran, its history. -/
structure Progress where
  core : Core
  instructionCount : Nat
  history : History

/-- How far a machine is. -/
def Machine.progress (m : Machine) : Progress := ⟨m.toCore, m.instructionCount, m.history⟩

/-- What a turn did: how far the machine was before it and how far after it. -/
def Turn.effect (turn : Turn) : Progress × Progress := (turn.before.progress, turn.after.progress)

namespace Machine

/-- The machine with no breakpoints, neither addresses nor conditions. -/
def withoutBreakpoints (m : Machine) : Machine := { m with breakpoints := .none }

/-! ## The plain machine beside the other -/

/-- The machine `plain` is as far as `m` and has no breakpoints. -/
structure Shadows (m plain : Machine) : Prop where
  progress : plain.progress = m.progress
  config : plain.config = m.config
  halted : plain.state = .halted ↔ m.state = .halted
  breakpoints : plain.breakpoints = .none

/-- Without its breakpoints, a machine is as far as it is with them. -/
theorem shadows_withoutBreakpoints (m : Machine) : Shadows m m.withoutBreakpoints :=
  ⟨rfl, rfl, Iff.rfl, rfl⟩

section Shadows

variable {m plain : Machine}

/-- A machine without breakpoints is at none. -/
theorem not_atBreakpoint (h : plain.breakpoints = .none) : ¬ plain.AtBreakpoint := by
  apply not_atBreakpoint_of_addresses
  rw [h]
  rfl

namespace Shadows

/-- The plain machine computes with the same. -/
theorem core (h : Shadows m plain) : plain.toCore = m.toCore := congrArg Progress.core h.progress

/-- The plain machine has run as many instructions. -/
theorem instructionCount (h : Shadows m plain) : plain.instructionCount = m.instructionCount :=
  congrArg Progress.instructionCount h.progress

/-- The plain machine has the same history. -/
theorem history (h : Shadows m plain) : plain.history = m.history :=
  congrArg Progress.history h.progress

/-- The plain machine meets the gate that the other one meets, unless that is a breakpoint. -/
theorem gate_eq (h : Shadows m plain) (hgate : m.gate ≠ .breakpoint) : plain.gate = m.gate := by
  have hcore := h.core
  have hspent : plain.Spent ↔ m.Spent := by
    unfold Spent
    rw [h.config, h.instructionCount]
  have hfree := not_atBreakpoint h.breakpoints
  rw [gate_eq_iff]
  have hmeets := m.meets_gate
  generalize m.gate = g at hgate hmeets
  cases hmeets with
  | refused hstate => exact .refused (h.halted.2 hstate)
  | exhausted hstate hspent' =>
    exact .exhausted (mt h.halted.1 hstate) (hspent.2 hspent')
  | breakpoint _ _ _ => exact absurd rfl hgate
  | outside hstate hspent' _ hpc =>
    refine .outside (mt h.halted.1 hstate) (mt hspent.1 hspent') hfree ?_
    rwa [hcore]
  | run hstate hspent' _ hword =>
    refine .run (mt h.halted.1 hstate) (mt hspent.1 hspent') hfree ?_
    rwa [hcore]

end Shadows

/-- Fetching keeps two machines side by side. -/
theorem Shadows.progress_fetch (h : Shadows m plain) (word : Word) :
    (plain.fetch word).progress = (m.fetch word).progress := by
  have hcore := h.core
  have hmoment : plain.moment = m.moment := by
    show (⟨plain.toCore.registers, plain.toCore.memory.cells, plain.toCore.callStack,
      plain.instructionCount⟩ : Moment) = _
    rw [hcore, h.instructionCount]
    rfl
  show (⟨{ plain.toCore with registers := { plain.toCore.registers with ir := word } },
    plain.instructionCount, plain.history.record plain.moment⟩ : Progress) = _
  rw [hcore, h.instructionCount, h.history, hmoment]
  rfl

/-- Without breakpoints an instruction ends the run for the same reason, unless that is a pause. -/
theorem reasonAfter_of_no_breakpoints (hcore : plain.toCore = m.toCore)
    (hfree : plain.breakpoints = .none) (flow : Flow) :
    plain.reasonAfter flow = (m.reasonAfter flow).filter fun reason => !reason.isPause := by
  have hhit : plain.breakpoints.firstHit plain.registers.acc plain.memory.cells = none := by
    rw [hfree]
    rfl
  have hafter : (if plain.memory.size ≤ plain.registers.pc then some HaltReason.endOfMemory
      else (plain.breakpoints.firstHit plain.registers.acc plain.memory.cells).map .condition) =
      (if m.memory.size ≤ m.registers.pc then some HaltReason.endOfMemory
        else (m.breakpoints.firstHit m.registers.acc m.memory.cells).map .condition).filter
          fun reason => !reason.isPause := by
    rw [hhit, hcore]
    by_cases hend : m.memory.size ≤ m.registers.pc
    · rw [if_pos hend, if_pos hend]
      rfl
    · rw [if_neg hend, if_neg hend]
      cases m.breakpoints.firstHit m.registers.acc m.memory.cells <;> rfl
  cases flow with
  | halt => rfl
  | endOfMemory => rfl
  | next => exact hafter
  | jump a => exact hafter

/-- What two machines side by side make of an instruction that runs through. -/
theorem Shadows.progress_complete (h : Shadows m plain) {word : Word} {core : Core} {flow : Flow}
    (hexec : (m.fetch word).toCore.execute m.config.maxCallDepth.toNat word = (core, .ok flow)) :
    ((plain.fetch word).complete core flow).progress =
        ((m.fetch word).complete core flow).progress ∧
      ((plain.fetch word).complete core flow).reasonAfter flow =
        (((m.fetch word).complete core flow).reasonAfter flow).filter
          (fun reason => !reason.isPause) ∧
      (plain.fetch word).toCore.execute plain.config.maxCallDepth.toNat word =
        (core, .ok flow) := by
  have hfetch := h.progress_fetch word
  have hcore : (plain.fetch word).toCore = (m.fetch word).toCore := congrArg Progress.core hfetch
  refine ⟨?_, ?_, ?_⟩
  · exact congrArg (fun p : Progress =>
      (⟨core.follow flow, p.instructionCount + 1, p.history⟩ : Progress)) hfetch
  · have hfree : ((plain.fetch word).complete core flow).breakpoints = .none := h.breakpoints
    have hsame : ((plain.fetch word).complete core flow).toCore =
        ((m.fetch word).complete core flow).toCore := rfl
    exact reasonAfter_of_no_breakpoints hsame hfree flow
  · rwa [hcore, h.config]

/-- How a step of a machine, with what came of it, is matched by a step of the plain machine. -/
structure Matched (m' plain' : Machine) (result result' : Except Fault Outcome) : Prop where
  shadows : Shadows m' plain'
  goesOn : goesOn result' = goesOn result
  result : TernaryMachine.goesOn result = false → result' = result ∧ plain'.state = m'.state

/-- Two machines side by side that both stop in the same way. -/
theorem matched_of_halted {m' plain' : Machine} {result : Except Fault Outcome}
    (hprogress : plain'.progress = m'.progress) (hconfig : plain'.config = m'.config)
    (hfree : plain'.breakpoints = .none) (hm : m'.state = .halted)
    (hplain : plain'.state = .halted) : Matched m' plain' result result where
  shadows := ⟨hprogress, hconfig, iff_of_true hplain hm, hfree⟩
  goesOn := rfl
  result _ := ⟨rfl, hplain.trans hm.symm⟩

/-- A step that does not pause at an address is matched by a step of the plain machine. -/
theorem Shadows.step (h : Shadows m plain) (hgate : m.gate ≠ .breakpoint) {m' : Machine}
    {result : Except Fault Outcome} (hmove : m.Move m' result) :
    Matched m' plain.step.1 result plain.step.2 := by
  have hplain := h.gate_eq hgate
  cases hmove with
  | refused hm =>
    rw [(Move.refused (hplain.trans hm)).step_eq]
    have hstate := state_of_refused hm
    exact matched_of_halted h.progress h.config h.breakpoints hstate (h.halted.2 hstate)
  | exhausted hm =>
    rw [(Move.exhausted (hplain.trans hm)).step_eq, h.config]
    exact matched_of_halted h.progress h.config h.breakpoints rfl rfl
  | pause hm => exact absurd hm hgate
  | outside hm =>
    have hpc : plain.registers.pc = m.registers.pc := congrArg (fun c => c.registers.pc) h.core
    rw [(Move.outside (hplain.trans hm)).step_eq, hpc]
    exact matched_of_halted h.progress h.config h.breakpoints rfl rfl
  | @fault word core f hm hexec =>
    have hfetch := h.progress_fetch word
    have hcore : (plain.fetch word).toCore = (m.fetch word).toCore := congrArg Progress.core hfetch
    rw [← hcore, ← h.config] at hexec
    rw [(Move.fault (hplain.trans hm) hexec).step_eq]
    have hprogress := congrArg (fun p : Progress => { p with core := core }) hfetch
    exact matched_of_halted hprogress h.config h.breakpoints rfl rfl
  | @stop word core flow reason hm hexec hreason =>
    obtain ⟨hprogress, hafter, hexec'⟩ := h.progress_complete hexec
    rw [hreason] at hafter
    cases hpause : reason.isPause with
    | true =>
      simp only [Option.filter, hpause, Bool.not_true, Bool.false_eq_true, if_false] at hafter
      rw [(Move.go (hplain.trans hm) hexec' hafter).step_eq]
      have hstate : (((m.fetch word).complete core flow).notifyState.halt reason).1.state =
          .paused := by
        rw [state_halt, hpause]
        rfl
      refine ⟨⟨hprogress, h.config, ?_, h.breakpoints⟩, ?_, ?_⟩
      · refine iff_of_false (by intro hrun; cases hrun) ?_
        rw [hstate]
        decide
      · exact hpause.symm
      · intro hstop
        exact absurd (hpause.symm.trans hstop) (by decide)
    | false =>
      simp only [Option.filter, hpause, Bool.not_false, if_true] at hafter
      rw [(Move.stop (hplain.trans hm) hexec' hafter).step_eq]
      refine matched_of_halted hprogress h.config h.breakpoints ?_ ?_
      · rw [state_halt, hpause]
        rfl
      · rw [state_halt, hpause]
        rfl
  | @go word core flow hm hexec hreason =>
    obtain ⟨hprogress, hafter, hexec'⟩ := h.progress_complete hexec
    rw [hreason] at hafter
    rw [(Move.go (hplain.trans hm) hexec' hafter).step_eq]
    refine ⟨⟨hprogress, h.config, ?_, h.breakpoints⟩, rfl, ?_⟩
    · exact iff_of_false (by intro hrun; cases hrun) (by intro hrun; cases hrun)
    · intro hstop
      cases hstop

/-! ## Pauses at addresses -/

/-- Only the breakpoint gate makes a turn that pauses at an address. -/
theorem isPause_turn (m : Machine) : m.turn.isPause = true ↔ m.gate = .breakpoint := by
  have hmove := m.move_step
  unfold Turn.isPause turn
  generalize m.step.2 = result at hmove
  generalize m.step.1 = m' at hmove
  cases hmove with
  | refused hgate => simp [hgate]
  | exhausted hgate => simp [hgate]
  | pause hgate => simp [hgate]
  | outside hgate => simp [hgate]
  | fault hgate _ => simp [hgate]
  | go hgate _ _ => simp [hgate]
  | @stop word core flow reason hgate _ hreason =>
    have hne : ∀ a, reason ≠ .breakpoint a := by
      rintro a rfl
      exact reasonAfter_ne_breakpoint _ flow a hreason
    cases reason with
    | breakpoint a => exact absurd rfl (hne a)
    | _ => simp [hgate]

/-- A pause at an address is no progress, and driving goes on from it. -/
theorem step_of_breakpoint {m : Machine} (hgate : m.gate = .breakpoint) :
    goesOn m.step.2 = true ∧ m.step.1.progress = m.progress ∧ m.step.1.config = m.config ∧
      m.step.1.state = .paused := by
  rw [(Move.pause hgate).step_eq]
  exact ⟨rfl, rfl, rfl, rfl⟩

/-- While the machine pauses at a breakpoint, the plain machine waits. -/
theorem Shadows.pause (h : Shadows m plain) (hgate : m.gate = .breakpoint) :
    Shadows m.step.1 plain := by
  obtain ⟨-, hprogress, hconfig, hstate⟩ := step_of_breakpoint hgate
  refine ⟨h.progress.trans hprogress.symm, h.config.trans hconfig.symm, ?_, h.breakpoints⟩
  have halive : m.state ≠ .halted := by
    cases gate_eq_iff.1 hgate with
    | breakpoint halive _ _ => exact halive
  rw [hstate]
  exact iff_of_false (mt h.halted.1 halive) (by decide)

/-! ## The whole drive -/

/-- Two machines side by side end the same way, and the plain one does the same work in the turns
that the other one does not spend on pausing at an address. -/
theorem Shadows.drive (h : Shadows m plain) :
    let last := (m.drive (fun _ _ => ()) ()).2
    let last' := (plain.drive (fun _ _ => ()) ()).2
    last'.result = last.result ∧ last'.after.progress = last.after.progress ∧
      last'.after.state = last.after.state ∧
      plain.driven.map Turn.effect =
        (m.driven.filter fun turn => !turn.isPause).map Turn.effect := by
  induction m using drive_induction generalizing plain with
  | h m ih =>
    intro last last'
    by_cases hgate : m.gate = .breakpoint
    · have hgo := (step_of_breakpoint hgate).1
      have hpause := (isPause_turn m).2 hgate
      obtain ⟨hresult, hprogress, hstate, hdriven⟩ := ih hgo (h.pause hgate)
      have hlast : last = (m.step.1.drive (fun _ _ => ()) ()).2 := by
        simp only [last, drive_of_goesOn _ () hgo]
      rw [hlast, driven_of_goesOn hgo, List.filter_cons_of_neg (by simp [hpause])]
      exact ⟨hresult, hprogress, hstate, hdriven⟩
    · have hmatched := h.step hgate m.move_step
      have hpause : m.turn.isPause = false := by
        rw [Bool.eq_false_iff]
        exact mt (isPause_turn m).1 hgate
      have heffect : plain.turn.effect = m.turn.effect :=
        Prod.ext h.progress hmatched.shadows.progress
      by_cases hgo : goesOn m.step.2 = true
      · have hgo' : goesOn plain.step.2 = true := hmatched.goesOn.trans hgo
        obtain ⟨hresult, hprogress, hstate, hdriven⟩ := ih hgo hmatched.shadows
        have hlast : last = (m.step.1.drive (fun _ _ => ()) ()).2 := by
          simp only [last, drive_of_goesOn _ () hgo]
        have hlast' : last' = (plain.step.1.drive (fun _ _ => ()) ()).2 := by
          simp only [last', drive_of_goesOn _ () hgo']
        rw [hlast, hlast', driven_of_goesOn hgo, driven_of_goesOn hgo',
          List.filter_cons_of_pos (by simp [hpause]), List.map_cons, List.map_cons, heffect,
          hdriven]
        exact ⟨hresult, hprogress, hstate, rfl⟩
      · rw [Bool.not_eq_true] at hgo
        have hstop' : goesOn plain.step.2 = false := hmatched.goesOn.trans hgo
        obtain ⟨hresult, hstate⟩ := hmatched.result hgo
        have hlast : last = m.turn := by simp only [last, drive_of_stop _ () hgo]
        have hlast' : last' = plain.turn := by simp only [last', drive_of_stop _ () hstop']
        rw [hlast, hlast', driven_of_stop hgo, driven_of_stop hstop',
          List.filter_cons_of_pos (by simp [hpause])]
        refine ⟨hresult, hmatched.shadows.progress, hstate, ?_⟩
        simp only [List.filter_nil, List.map_cons, List.map_nil, heffect]

end Shadows

/-- **Breakpoints are transparent.**  Drive any machine through its pauses to the end, and drive the
same machine with all its breakpoints removed.  Both end with the same halt reason or fault, with
the same registers, memory (words, protection and counters), call stack, number of instructions,
history and state.  On the way the turns that do not pause at an address are, one by one, the turns
of the machine without breakpoints, and a turn that does pause at one changes nothing of all that:
so no instruction is skipped, repeated or counted twice. -/
theorem drive_withoutBreakpoints {σ : Type} (visit : σ → Turn → σ) (s : σ) (m : Machine) :
    let last := (m.drive visit s).2
    let plain := (m.withoutBreakpoints.drive visit s).2
    plain.result = last.result ∧
    plain.after.toCore = last.after.toCore ∧
    plain.after.instructionCount = last.after.instructionCount ∧
    plain.after.history = last.after.history ∧
    plain.after.state = last.after.state ∧
    m.withoutBreakpoints.driven.map Turn.effect =
      (m.driven.filter fun turn => !turn.isPause).map Turn.effect ∧
    ∀ turn ∈ m.driven, turn.isPause = true → turn.after.progress = turn.before.progress := by
  intro last plain
  have hlast : last = (m.drive (fun _ _ => ()) ()).2 := drive_last _ _ _ _ m
  have hplain : plain = (m.withoutBreakpoints.drive (fun _ _ => ()) ()).2 := drive_last _ _ _ _ _
  obtain ⟨hresult, hprogress, hstate, hdriven⟩ := (shadows_withoutBreakpoints m).drive
  rw [← hlast, ← hplain] at hresult hprogress hstate
  refine ⟨hresult, congrArg Progress.core hprogress, congrArg Progress.instructionCount hprogress,
    congrArg Progress.history hprogress, hstate, hdriven, ?_⟩
  intro turn hturn hpause
  obtain ⟨before, rfl⟩ := exists_turn_of_mem_driven hturn
  exact (step_of_breakpoint ((isPause_turn before).1 hpause)).2.1

end Machine

end TernaryMachine
