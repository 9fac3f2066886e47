import Mathlib.Logic.Function.Iterate
import TernaryMachine.Proofs.Debugger.Action

/-!
# The heat map and what it leaves behind

Accesses are counted while the memory view shows them, and while the configuration asks for it.
`HeatMap` is what a debugger has of this: the view, the setting and whether memory counts.  Only
the toggle changes any of it (`heatMap_act`), so a session leaves what its toggles leave
(`heatMap_actAll`).

The toggle asks the setting and then writes the answer back into it.  The first one shows the counts
and so turns the setting on, and nothing turns it off again: from there on accesses are counted
whether they are shown or not (`toggle_iterate`).
-/

set_option autoImplicit false

namespace TernaryMachine.Debugger

/-- What a debugger has of the heat map. -/
structure HeatMap where
  /-- Whether the memory view shows access counts. -/
  shown : Bool
  /-- Whether the machine's configuration asks for accesses to be counted. -/
  asked : Bool
  /-- Whether memory counts accesses. -/
  counting : Bool

/-- The heat map with the view changed: accesses are counted if the view shows them or the setting
asks for it, and that is the setting from then on. -/
def HeatMap.toggle (h : HeatMap) : HeatMap where
  shown := !h.shown
  asked := !h.shown || h.asked
  counting := !h.shown || h.asked

/-- A debugger's heat map. -/
def heatMap (d : Debugger) : HeatMap where
  shown := d.showHeatmap
  asked := d.machine.config.heatmapEnabled
  counting := d.machine.memory.tracking

variable {d d' : Debugger}

/-! ## Actions that leave it alone -/

/-- Emptying the log leaves the configuration. -/
theorem config_drainOwn (m : Machine) : (drainOwn m).config = m.config := by
  unfold drainOwn
  split <;> rfl

/-- Emptying the log leaves the memory. -/
theorem memory_drainOwn (m : Machine) : (drainOwn m).memory = m.memory := by
  unfold drainOwn
  split <;> rfl

/-- An action that reads the log leaves the heat map to the machine that it reads the log of. -/
theorem heatMap_of_drained {m : Machine} (hshown : d'.showHeatmap = d.showHeatmap)
    (hmachine : d'.machine = drainOwn m) (hconfig : m.config = d.machine.config)
    (htracking : m.memory.tracking = d.machine.memory.tracking) : d'.heatMap = d.heatMap := by
  unfold heatMap
  rw [hshown, hmachine, config_drainOwn, memory_drainOwn, hconfig, htracking]

/-- A step leaves what the debugger shows. -/
theorem showHeatmap_step (d : Debugger) : d.step.showHeatmap = d.showHeatmap := by
  rw [step_changes]

/-- A step leaves the state of the heat map. -/
theorem heatMap_step (d : Debugger) : d.step.heatMap = d.heatMap := by
  have hmove := d.machine.move_step
  exact heatMap_of_drained d.showHeatmap_step d.machine_step hmove.config_eq
    (congrArg Frame.tracking hmove.frame_eq)

/-- A step back leaves the state of the heat map. -/
theorem heatMap_stepBack (d : Debugger) : d.stepBack.heatMap = d.heatMap := by
  unfold stepBack
  cases hback : d.machine.stepBack with
  | error refusal => exact heatMap_of_drained rfl rfl rfl rfl
  | ok back =>
    cases Machine.retreat_of_stepBack hback with
    | back _ => exact heatMap_of_drained rfl rfl rfl rfl

/-- Toggling the protection of a cell leaves the state of the heat map. -/
theorem heatMap_toggleProtection (d : Debugger) : d.toggleProtection.heatMap = d.heatMap := by
  have hkeep : ∀ memory, d.machine.memory.protect d.selected = .ok memory →
      memory.tracking = d.machine.memory.tracking := by
    intro memory hprotect
    unfold Memory.protect at hprotect
    split at hprotect
    · cases hprotect
    · cases hprotect
      rfl
  unfold toggleProtection
  simp only
  split
  · rfl
  · split
    · next memory hprotect => exact congrArg (HeatMap.mk _ _) (hkeep memory hprotect)
    · rfl

/-- Scrolling leaves the state of the heat map. -/
theorem heatMap_scrollToSelection (d : Debugger) (rows : Nat) :
    (d.scrollToSelection rows).heatMap = d.heatMap := by
  rw [scrollToSelection_changes]
  rfl

/-- Only the toggle changes the heat map. -/
theorem heatMap_act (d : Debugger) (action : Action) :
    (d.act action).heatMap =
      if action = .toggleHeatmap then d.heatMap.toggle else d.heatMap := by
  cases action with
  | toggleHeatmap => rfl
  | step => exact d.heatMap_step
  | stepBack => exact d.heatMap_stepBack
  | tick =>
    show d.tick.heatMap = d.heatMap
    unfold tick
    split
    · exact d.heatMap_step
    · rfl
  | toggleProtection => exact d.heatMap_toggleProtection
  | reset => exact heatMap_of_drained rfl rfl rfl rfl
  | scroll rows => exact d.heatMap_scrollToSelection rows
  | _ => rfl

/-! ## Sessions -/

/-- A session leaves what its toggles leave. -/
theorem heatMap_actAll (d : Debugger) (actions : List Action) :
    (d.actAll actions).heatMap = HeatMap.toggle^[actions.count .toggleHeatmap] d.heatMap := by
  induction actions generalizing d with
  | nil => rfl
  | cons action rest ih =>
    have hrest : (d.actAll (action :: rest)).heatMap =
        HeatMap.toggle^[rest.count .toggleHeatmap] (d.act action).heatMap := ih (d.act action)
    rw [hrest, heatMap_act]
    by_cases haction : action = .toggleHeatmap
    · rw [if_pos haction, haction, List.count_cons_self, Function.iterate_succ_apply]
    · rw [if_neg haction, List.count_cons_of_ne haction]

/-- The view alternates, and the first toggle turns the setting on for good. -/
theorem toggle_iterate (asked : Bool) (n : Nat) :
    HeatMap.toggle^[n] ⟨false, asked, asked⟩ =
      ⟨decide (n % 2 = 1), asked || decide (0 < n), asked || decide (0 < n)⟩ := by
  induction n with
  | zero => simp
  | succ n ih =>
    have hparity : (!decide (n % 2 = 1)) = decide ((n + 1) % 2 = 1) := by
      rcases Nat.mod_two_eq_zero_or_one n with h | h <;> simp [h, Nat.add_mod]
    -- Either this toggle shows the counts, or an earlier one did.
    have hon : (!decide (n % 2 = 1) || (asked || decide (0 < n))) = true := by
      cases n with
      | zero => rfl
      | succ n => simp
    have hlater : (asked || decide (0 < n + 1)) = true := by simp
    rw [Function.iterate_succ_apply', ih]
    unfold HeatMap.toggle
    rw [hon, hlater, hparity]

/-- **Toggling the heat map turns the counting of accesses on for good.**  After any session of a
debugger the heat map is shown just if it was toggled an odd number of times, and accesses are
counted just if the configuration that the debugger began with asks for it or the heat map was ever
toggled.  So counting is in step with the view and that configuration only where the one or the
other turns it on, or where nothing was toggled; and two toggles, which bring the view back, leave
counting on in any case. -/
theorem heat_map_after_actions (program : List Word) (config : Config) (actions : List Action) :
    let d := (new program config).actAll actions
    let toggles := actions.count .toggleHeatmap
    let twice := d.toggleHeatmap.toggleHeatmap
    (d.showHeatmap = true ↔ toggles % 2 = 1) ∧
    (d.machine.memory.tracking = true ↔ config.heatmapEnabled = true ∨ 0 < toggles) ∧
    d.machine.config.heatmapEnabled = d.machine.memory.tracking ∧
    ((d.machine.memory.tracking = true ↔
        d.showHeatmap = true ∨ config.heatmapEnabled = true) ↔
      d.showHeatmap = true ∨ config.heatmapEnabled = true ∨ toggles = 0) ∧
    twice.showHeatmap = d.showHeatmap ∧
    twice.machine.memory.tracking = true := by
  intro d toggles twice
  have hmap : d.heatMap = ⟨decide (toggles % 2 = 1), config.heatmapEnabled || decide (0 < toggles),
      config.heatmapEnabled || decide (0 < toggles)⟩ :=
    (heatMap_actAll (new program config) actions).trans (toggle_iterate _ toggles)
  have hshown : d.showHeatmap = true ↔ toggles % 2 = 1 := by
    have hview : d.showHeatmap = decide (toggles % 2 = 1) := congrArg HeatMap.shown hmap
    rw [hview, decide_eq_true_eq]
  have hcounting : d.machine.memory.tracking = true ↔
      config.heatmapEnabled = true ∨ 0 < toggles := by
    have hmemory : d.machine.memory.tracking = (config.heatmapEnabled || decide (0 < toggles)) :=
      congrArg HeatMap.counting hmap
    rw [hmemory, Bool.or_eq_true, decide_eq_true_eq]
  have hsame : d.machine.config.heatmapEnabled = d.machine.memory.tracking :=
    (congrArg HeatMap.asked hmap).trans (congrArg HeatMap.counting hmap).symm
  refine ⟨hshown, hcounting, hsame, ?_, Bool.not_not _, ?_⟩
  · rw [hcounting, hshown]
    rcases Nat.eq_zero_or_pos toggles with hzero | hpos
    · simp [hzero]
    · have hne : toggles ≠ 0 := Nat.ne_of_gt hpos
      simp only [hpos, or_true, true_iff, hne, or_false]
  · -- One of the two toggles shows the counts and turns the setting on.
    show (!(!d.showHeatmap) || (!d.showHeatmap || d.machine.config.heatmapEnabled)) = true
    cases d.showHeatmap <;> rfl

/-- A heat map that was looked at once goes on counting, though nobody asked for it. -/
theorem heat_map_after_actions_put_away :
    let d := (new [] {}).actAll [.toggleHeatmap, .toggleHeatmap]
    ({} : Config).heatmapEnabled = false ∧ d.showHeatmap = false ∧
      d.machine.memory.tracking = true ∧
      ¬ (d.machine.memory.tracking = true ↔
        d.showHeatmap = true ∨ ({} : Config).heatmapEnabled = true) := by
  decide +kernel

end TernaryMachine.Debugger
