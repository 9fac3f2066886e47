import TernaryMachine.Debugger.Session
import TernaryMachine.Proofs.Machine.Report

/-!
# Actions of the debugger

Everything that can be asked of a debugger is an `Action`, so that "a debugger reached by its own
actions" is a list of them, and what every action keeps is kept by all of them
(`actAll_induction`).

A debugger reads its log in every action that writes to it.  Between actions the log is empty
(`Drained.actAll`), which is why a debugger that looks for the reason of a stop finds the one of the
latest step and no older one.
-/

set_option autoImplicit false

namespace TernaryMachine.Debugger

variable {d : Debugger} {m : Machine}

/-- What may be asked of a debugger. -/
inductive Action where
  | step
  | stepBack
  | run
  | tick
  | pause
  | toggleBreakpoint
  | toggleProtection
  | toggleHeatmap
  | reset
  | select (delta : Int)
  | scroll (rows : Nat)
  | quit
  deriving DecidableEq, Repr

/-- A debugger after one action. -/
def act (d : Debugger) : Action → Debugger
  | .step => d.step
  | .stepBack => d.stepBack
  | .run => d.run
  | .tick => d.tick
  | .pause => d.pause
  | .toggleBreakpoint => d.toggleBreakpoint
  | .toggleProtection => d.toggleProtection
  | .toggleHeatmap => d.toggleHeatmap
  | .reset => d.reset
  | .select delta => d.select delta
  | .scroll rows => d.scrollToSelection rows
  | .quit => { d with quitting := true }

/-- A debugger after a sequence of actions. -/
def actAll (d : Debugger) (actions : List Action) : Debugger := actions.foldl act d

/-- What every action preserves, a row of actions preserves. -/
theorem actAll_induction {P : Debugger → Prop} (hact : ∀ d action, P d → P (d.act action))
    (h : P d) (actions : List Action) : P (d.actAll actions) := by
  induction actions generalizing d with
  | nil => exact h
  | cons action rest ih =>
    apply ih
    exact hact d action h

/-! ## What actions leave -/

/-- A step changes the machine, whether the debugger runs and what it says, and nothing else. -/
theorem step_changes (d : Debugger) :
    d.step =
      { d with
        machine := drainOwn d.machine.step.1
        running := d.step.running
        status := d.step.status } := by
  unfold step
  cases hstep : d.machine.step with
  | mk m result =>
    cases result with
    | error f => rfl
    | ok outcome => cases outcome <;> rfl

/-- A step of the debugger is a step of its machine, and its log is emptied after it. -/
theorem machine_step (d : Debugger) : d.step.machine = drainOwn d.machine.step.1 := by
  rw [step_changes]

/-- The debugger runs on just when it was running and its machine goes on. -/
theorem running_step (d : Debugger) :
    d.step.running = true ↔ d.running = true ∧ d.machine.step.2 = .ok .continued := by
  unfold step
  cases hstep : d.machine.step with
  | mk m result =>
    cases result with
    | error f => simp
    | ok outcome => cases outcome <;> simp

/-- When the machine stops, the status line quotes the event that says why. -/
theorem status_step (d : Debugger) (hstop : d.machine.step.2 ≠ .ok .continued) :
    d.step.status = ((ownEvents d.machine.step.1).findSome? stopText).getD
      "VM halted. Press 'x' to reset." := by
  unfold step
  cases hstep : d.machine.step with
  | mk m result =>
    rw [hstep] at hstop
    cases result with
    | error f => rfl
    | ok outcome =>
      cases outcome with
      | continued => exact absurd rfl hstop
      | halted reason => rfl

/-- Scrolling changes where the memory view begins, and nothing else. -/
theorem scrollToSelection_changes (d : Debugger) (rows : Nat) :
    d.scrollToSelection rows = { d with scroll := (d.scrollToSelection rows).scroll } := by
  unfold scrollToSelection
  split
  · rfl
  · split <;> rfl

/-- Scrolling leaves the machine. -/
theorem machine_scrollToSelection (d : Debugger) (rows : Nat) :
    (d.scrollToSelection rows).machine = d.machine := by
  rw [scrollToSelection_changes]

/-! ## The log of the debugger -/

/-- The only observer of the debugger's machine is the debugger's own log, and nothing stands in
it. -/
def Drained (d : Debugger) : Prop := d.machine.observers = [.log []]

/-- With no other observer than its log, emptying the debugger's log empties all of them. -/
theorem drainOwn_eq {latest : List Event} (h : m.observers = [.log latest]) :
    drainOwn m = m.drainLogs := by
  unfold drainOwn Machine.drainLogs
  rw [h]
  rfl

/-- With no other observer than its log, the debugger leaves it empty. -/
theorem observers_drainOwn {latest : List Event} (h : m.observers = [.log latest]) :
    (drainOwn m).observers = [.log []] := by
  rw [drainOwn_eq h]
  unfold Machine.drainLogs
  rw [h]
  rfl

/-- A log takes the events of a step in, the latest first. -/
theorem observers_step_of_log {latest : List Event} (h : m.observers = [.log latest]) :
    m.step.1.observers = [.log (m.turn.events.reverse ++ latest)] := by
  rw [m.observers_step, h, List.map_singleton, Observer.hear_log]

namespace Drained

/-- A step of the debugger leaves its log empty. -/
theorem step (h : d.Drained) : d.step.Drained := by
  unfold Drained
  rw [machine_step]
  exact observers_drainOwn (observers_step_of_log h)

/-- A step back of the debugger leaves its log empty. -/
theorem stepBack (h : d.Drained) : d.stepBack.Drained := by
  unfold Debugger.stepBack
  split
  · next m hback =>
    have hlog : m.observers = [.log [m.position]] := by
      rw [Machine.observers_stepBack hback, h]
      rfl
    exact observers_drainOwn hlog
  · exact observers_drainOwn h

/-- Toggling the protection of a cell leaves the log empty. -/
theorem toggleProtection (h : d.Drained) : d.toggleProtection.Drained := by
  unfold Debugger.toggleProtection
  simp only
  split
  · exact h
  · split
    · exact h
    · exact h

/-- Scrolling leaves the log empty. -/
theorem scrollToSelection (h : d.Drained) (rows : Nat) : (d.scrollToSelection rows).Drained := by
  unfold Drained
  rw [machine_scrollToSelection]
  exact h

/-- Every action leaves the log empty. -/
theorem act (h : d.Drained) (action : Action) : (d.act action).Drained := by
  cases action with
  | step => exact h.step
  | stepBack => exact h.stepBack
  | tick =>
    unfold Debugger.act Debugger.tick
    by_cases hrunning : d.running = true
    · rw [if_pos hrunning]
      exact h.step
    · rw [if_neg hrunning]
      exact h
  | reset =>
    have hlog : (d.machine.loadWords d.program).observers = [.log []] := h
    exact observers_drainOwn hlog
  | toggleProtection => exact h.toggleProtection
  | scroll rows => exact h.scrollToSelection rows
  | _ => exact h

/-- A new debugger has an empty log. -/
theorem new (program : List Word) (config : Config) : (new program config).Drained := rfl

/-- The log of a debugger is empty after whatever actions. -/
theorem actAll (program : List Word) (config : Config) (actions : List Action) :
    ((Debugger.new program config).actAll actions).Drained :=
  actAll_induction (fun _ action h => h.act action) (new program config) actions

end Drained

end TernaryMachine.Debugger
