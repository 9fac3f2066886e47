import TernaryMachine.Proofs.Debugger.Action
import TernaryMachine.Proofs.Machine.Unobserved

/-!
# Ticks are a run

A debugger that runs takes one step with every tick, empties its log each time, and lets the ticks
pass without a step as soon as one step does not go on.  `Mirrors` is the simulation: the
debugger's machine is the machine of a run with a budget, apart from what stands in the log.  One
tick is one step of the run (`Mirrors.step`), and `Mirrors.ticks` goes through a whole run.

What the status line says in the end is read off the events of the last step alone
(`status_of_stop`), since the log was empty before.
-/

set_option autoImplicit false

namespace TernaryMachine

/-- How a run with a budget of one step ends that has this result. -/
def RunStop.ofResult : Except Fault Outcome → RunStop
  | .ok .continued => .budget
  | .ok (.halted reason) => .halted reason
  | .error f => .faulted f

/-- What the debugger says of how a run stopped; nothing where it was only to take no more steps. -/
def RunStop.status? : RunStop → Option String
  | .halted reason => some reason.message
  | .faulted (.notRunning _) => some "VM halted. Press 'x' to reset."
  | .faulted f => some ("Error: " ++ f.message)
  | .budget => none

namespace Machine

variable {m m' : Machine}

/-! ## Runs of the machine, step by step -/

/-- A run that starts with some steps taken only counts them in addition. -/
theorem runFrom_eq (taken budget : Nat) (m : Machine) :
    runFrom taken budget m =
      ((m.run budget).1, ⟨taken + (m.run budget).2.steps, (m.run budget).2.stop⟩) := by
  unfold run
  induction budget generalizing taken m with
  | zero => rfl
  | succ budget ih =>
    unfold runFrom
    cases m.step with
    | mk next result =>
      cases result with
      | error f => rfl
      | ok outcome =>
        cases outcome with
        | halted reason => rfl
        | continued =>
          show runFrom (taken + 1) budget next = _
          rw [ih (taken + 1) next]
          simp only
          rw [ih (0 + 1) next]
          simp only [Prod.mk.injEq, RunSummary.mk.injEq, true_and, and_true]
          omega

/-- A run goes on behind a first step that goes on. -/
theorem run_of_continued (h : m.step.2 = .ok .continued) (budget : Nat) :
    (m.run (budget + 1)).1 = (m.step.1.run budget).1 ∧
      (m.run (budget + 1)).2.stop = (m.step.1.run budget).2.stop := by
  have hrun : m.run (budget + 1) = runFrom (0 + 1) budget m.step.1 := by
    unfold run
    rw [runFrom]
    cases hstep : m.step with
    | mk next result =>
      rw [hstep] at h
      cases h
      rfl
  rw [hrun, runFrom_eq]
  exact ⟨rfl, rfl⟩

/-- A run ends with a first step that stops. -/
theorem run_of_stopped (h : m.step.2 ≠ .ok .continued) (budget : Nat) :
    (m.run (budget + 1)).1 = m.step.1 ∧
      (m.run (budget + 1)).2.stop = .ofResult m.step.2 := by
  unfold run
  rw [runFrom]
  cases hstep : m.step with
  | mk next result =>
    rw [hstep] at h
    cases result with
    | error f => exact ⟨rfl, rfl⟩
    | ok outcome =>
      cases outcome with
      | continued => exact absurd rfl h
      | halted reason => exact ⟨rfl, rfl⟩

/-- The result of a step lets a run use up its budget just when the machine goes on. -/
theorem ofResult_eq_budget_iff {result : Except Fault Outcome} :
    RunStop.ofResult result = .budget ↔ result = .ok .continued := by
  constructor
  · intro h
    cases result with
    | error f => cases h
    | ok outcome =>
      cases outcome with
      | continued => rfl
      | halted reason => cases h
  · rintro rfl
    rfl

/-- Only a machine that is halted already refuses a step. -/
theorem exists_refused_iff (m : Machine) :
    (∃ state, m.step.2 = .error (.notRunning state)) ↔ m.state = .halted := by
  constructor
  · rintro ⟨state, hresult⟩
    have hmove := m.move_step
    rw [hresult] at hmove
    generalize m.step.1 = next at hmove
    cases hmove with
    | refused hgate => exact state_of_refused hgate
    | fault _ hexec =>
      have hraises := (Core.execution_of_eq hexec).raises
      exact absurd rfl (ne_notRunning_of_raises hraises state)
  · intro hstate
    have hgate : m.gate = .refused := gate_eq_iff.2 (.refused hstate)
    rw [(Move.refused hgate).step_eq]
    exact ⟨.halted, rfl⟩

end Machine

/-! ## The status line -/

/-- Whatever ends a run, short of its budget, has a status text. -/
theorem RunStop.exists_status {stop : RunStop} (h : stop ≠ .budget) :
    ∃ text, stop.status? = some text := by
  cases stop with
  | halted reason => exact ⟨_, rfl⟩
  | faulted f => cases f <;> exact ⟨_, rfl⟩
  | budget => exact absurd rfl h

/-- The events of a step say what the status line is to say of how it stopped. -/
theorem Machine.Reports.findSome?_stopText {m m' : Machine} {result : Except Fault Outcome}
    {events : List Event} (h : m.Reports m' result events) {text : String}
    (htext : (RunStop.ofResult result).status? = some text) :
    (events.reverse.findSome? Debugger.stopText).getD "VM halted. Press 'x' to reset." = text := by
  cases h with
  | refused _ _ => exact Option.some.inj htext
  | @fault f hf _ =>
    cases f with
    | notRunning state => exact absurd rfl (hf state)
    | instructionLimit _ => exact Option.some.inj htext
    | callStackOverflow _ => exact Option.some.inj htext
    | emptyCallStack => exact Option.some.inj htext
    | memory _ => exact Option.some.inj htext
  | continued _ _ => cases htext
  | _ => exact Option.some.inj htext

/-- Words that begin with another letter are not those for a halted machine. -/
theorem ne_halted_of_append {first rest : String} (hfirst : first.toList ≠ [])
    (h : first.toList.head? ≠ some 'V') :
    some (first ++ rest) ≠ some "VM halted. Press 'x' to reset." := by
  intro heq
  apply h
  have hhead : (first ++ rest).toList.head? = some 'V' := by
    rw [Option.some.inj heq]
    rfl
  rw [String.toList_append, List.head?_append_of_ne_nil _ hfirst] at hhead
  exact hhead

/-- No reason for a halt reads like the status of a machine that was halted already. -/
theorem HaltReason.message_ne_halted (reason : HaltReason) :
    some reason.message ≠ some "VM halted. Press 'x' to reset." := by
  cases reason with
  | haltInstruction =>
    show some "Halt instruction (0) encountered" ≠ _
    simp
  | pcOutOfBounds pc =>
    show some ("Program counter out of bounds (" ++ pc.repr ++ ")") ≠ _
    rw [String.append_assoc]
    exact ne_halted_of_append (by decide) (by decide)
  | endOfMemory =>
    show some "End of memory reached" ≠ _
    simp
  | breakpoint address =>
    exact ne_halted_of_append (by decide : "Breakpoint hit at address ".toList ≠ []) (by decide)
  | condition c =>
    exact ne_halted_of_append (by decide : "Conditional breakpoint hit: ".toList ≠ []) (by decide)

/-- A stop has its own words: those for a halted machine are said of no other. -/
theorem RunStop.status?_eq_halted_iff {result : Except Fault Outcome} :
    (RunStop.ofResult result).status? = some "VM halted. Press 'x' to reset." ↔
      ∃ state, result = .error (.notRunning state) := by
  constructor
  · intro h
    cases result with
    | error f =>
      have herror : some ("Error: " ++ f.message) ≠ some "VM halted. Press 'x' to reset." :=
        ne_halted_of_append (by decide) (by decide)
      cases f with
      | notRunning state => exact ⟨state, rfl⟩
      | instructionLimit _ => exact absurd h herror
      | callStackOverflow _ => exact absurd h herror
      | emptyCallStack => exact absurd h herror
      | memory _ => exact absurd h herror
    | ok outcome =>
      cases outcome with
      | continued => cases h
      | halted reason => exact absurd h reason.message_ne_halted
  · rintro ⟨state, rfl⟩
    rfl

namespace Debugger

variable {d : Debugger} {m : Machine}

/-- When a step stops, the status line shows the text for the way it stopped. -/
theorem status_of_stop (h : d.Drained) {text : String}
    (htext : (RunStop.ofResult d.machine.step.2).status? = some text) : d.step.status = text := by
  have hstop : d.machine.step.2 ≠ .ok .continued := by
    intro hgo
    rw [hgo] at htext
    cases htext
  have hlog : ownEvents d.machine.step.1 = d.machine.turn.events.reverse := by
    unfold ownEvents
    rw [observers_step_of_log h, List.append_nil]
  rw [status_step d hstop, hlog]
  exact d.machine.move_step.reports.findSome?_stopText htext

/-! ## Ticks -/

/-- A debugger that is not running stays as it is, whatever the number of ticks. -/
theorem ticks_of_not_running (h : ¬ d.running = true) (n : Nat) : ticks n d = d := by
  induction n with
  | zero => rfl
  | succ n ih =>
    have htick : d.tick = d := if_neg h
    rw [ticks, htick]
    exact ih

/-- The debugger's machine is the given one, but for what stands in the debugger's log. -/
structure Mirrors (d : Debugger) (m : Machine) : Prop where
  drained : d.Drained
  log : ∃ latest, m.observers = [.log latest]
  rest : d.machine.unobserved = m.unobserved

namespace Mirrors

/-- A debugger that mirrors a machine has it with an empty log. -/
theorem machine_eq (h : d.Mirrors m) : d.machine = m.drainLogs := by
  obtain ⟨latest, hlog⟩ := h.log
  have hobservers : d.machine.observers = m.drainLogs.observers := by
    rw [h.drained, Machine.drainLogs, hlog]
    rfl
  have hmachine : d.machine = { d.machine.unobserved with observers := d.machine.observers } := rfl
  rw [hmachine, h.rest, hobservers]
  rfl

/-- A debugger that mirrors a machine gets the same result from a step. -/
theorem result_eq (h : d.Mirrors m) : d.machine.step.2 = m.step.2 := by
  have hleft := d.machine.step_unobserved
  rw [h.rest, m.step_unobserved] at hleft
  exact (Prod.mk.inj hleft).2.symm

/-- A step of the debugger is a step of the machine. -/
theorem step (h : d.Mirrors m) : d.step.Mirrors m.step.1 := by
  obtain ⟨latest, hlog⟩ := h.log
  refine ⟨h.drained.step, ⟨_, observers_step_of_log hlog⟩, ?_⟩
  have hstep := d.machine.step_unobserved
  rw [h.rest, m.step_unobserved] at hstep
  rw [machine_step, drainOwn_eq (observers_step_of_log h.drained)]
  exact (Prod.mk.inj hstep).1.symm

/-- Ticks of a running debugger are a run of the machine with as many steps as budget: they leave
the same machine, the debugger runs on just if the budget was used up, and otherwise it says why
not. -/
theorem ticks (h : d.Mirrors m) (hrunning : d.running = true) (n : Nat) :
    (ticks n d).machine = (m.run n).1.drainLogs ∧
    ((Debugger.ticks n d).running = true ↔ (m.run n).2.stop = .budget) ∧
    ∀ text, (m.run n).2.stop.status? = some text → (Debugger.ticks n d).status = text := by
  induction n generalizing d m with
  | zero =>
    refine ⟨h.machine_eq, iff_of_true hrunning rfl, ?_⟩
    intro text htext
    cases htext
  | succ n ih =>
    have htick : Debugger.ticks (n + 1) d = Debugger.ticks n d.step := by
      rw [Debugger.ticks, tick, if_pos hrunning]
    rw [htick]
    by_cases hgo : m.step.2 = .ok .continued
    · have hstill : d.step.running = true :=
        (running_step d).2 ⟨hrunning, h.result_eq.trans hgo⟩
      obtain ⟨hmachine, hstop⟩ := Machine.run_of_continued hgo n
      rw [hmachine, hstop]
      exact ih h.step hstill
    · have hdone : ¬ d.step.running = true := by
        intro hstill
        exact hgo (h.result_eq ▸ ((running_step d).1 hstill).2)
      obtain ⟨hmachine, hstop⟩ := Machine.run_of_stopped hgo n
      rw [ticks_of_not_running hdone, hmachine, hstop]
      refine ⟨h.step.machine_eq, ?_, ?_⟩
      · rw [Machine.ofResult_eq_budget_iff]
        exact iff_of_false hdone hgo
      · intro text htext
        rw [← h.result_eq] at htext
        exact status_of_stop h.drained htext

end Mirrors

/-- **Ticks are a run.**  Take any debugger that its own actions lead to, and let it run for `n`
ticks.  Its machine is then the one that a run of `n` steps leaves, with the log read; it is still
running just if the run used up its budget; and otherwise it says what stopped the run.  Its log is
empty after every action.  A step that does not go on is the last one, however many ticks follow,
and the status line has the words for that step: those for a halted machine only if the machine was
halted before. -/
theorem ticks_eq_run (program : List Word) (config : Config) (actions : List Action) (n : Nat) :
    let d := (new program config).actAll actions
    let ran := d.machine.run n
    d.machine.observers = [.log []] ∧
    (ticks n d.run).machine = ran.1.drainLogs ∧
    ((ticks n d.run).running = true ↔ ran.2.stop = .budget) ∧
    (∀ text, ran.2.stop.status? = some text → (ticks n d.run).status = text) ∧
    (d.machine.step.2 ≠ .ok .continued →
      (∀ k, ticks k d.step = d.step) ∧
      (RunStop.ofResult d.machine.step.2).status? = some d.step.status ∧
      (d.step.status = "VM halted. Press 'x' to reset." ↔ d.machine.state = .halted)) := by
  intro d ran
  have hdrained : d.Drained := Drained.actAll program config actions
  have hmirrors : d.run.Mirrors d.machine := ⟨hdrained, ⟨[], hdrained⟩, rfl⟩
  obtain ⟨hmachine, hrunning, hstatus⟩ := hmirrors.ticks rfl n
  refine ⟨hdrained, hmachine, hrunning, hstatus, ?_⟩
  intro hstop
  have hdone : ¬ d.step.running = true := fun hstill => hstop ((running_step d).1 hstill).2
  have hbudget : RunStop.ofResult d.machine.step.2 ≠ .budget := by
    rw [Ne, Machine.ofResult_eq_budget_iff]
    exact hstop
  obtain ⟨text, htext⟩ := RunStop.exists_status hbudget
  obtain rfl : d.step.status = text := status_of_stop hdrained htext
  refine ⟨ticks_of_not_running hdone, htext, ?_⟩
  rw [← d.machine.exists_refused_iff, ← RunStop.status?_eq_halted_iff, htext, Option.some_inj]

end Debugger

end TernaryMachine
