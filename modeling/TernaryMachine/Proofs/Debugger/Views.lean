import Mathlib.Data.List.Nodup
import TernaryMachine.Proofs.Debugger.Action
import TernaryMachine.Proofs.Machine.Safety

/-!
# What the views of the debugger show

An action changes the debugger's machine by operations only (`Drained.machine_act`), and none of
them is to give memory another size.  So the machine of a debugger is one that operations lead to
from a new machine, its memory keeps the size of the configuration, and the cursor stays on a cell
of it.  `Reached` is the invariant that says so.

The memory view may begin anywhere from `d.selected + 1 - rows` to `d.selected` for the cursor to be
in one of its rows (`Shows`).  Scrolling brings its beginning to the nearest place of these
(`scrollToSelection_eq`), as long as the rows do not reach past the last address.  The disassembly
view is a row of addresses around the program counter, which stands there once.
-/

set_option autoImplicit false

namespace TernaryMachine

namespace Machine

/-! ## Operations that keep the size of memory -/

/-- Operations one row behind the other are done in this order. -/
theorem performAll_append (m : Machine) (first second : List Operation) :
    m.performAll (first ++ second) = (m.performAll first).performAll second :=
  List.foldl_append

/-- No operation but a resize gives the configuration another size of memory. -/
theorem memorySize_perform (m : Machine) {operation : Operation}
    (hkeep : ∀ size, operation ≠ .resize size) :
    (m.perform operation).1.config.memorySize = m.config.memorySize := by
  cases operation with
  | step => exact congrArg Config.memorySize m.move_step.config_eq
  | run budget =>
    refine run_induction (P := fun next => next.config.memorySize = m.config.memorySize)
      ?_ rfl budget
    intro next hnext
    exact (congrArg Config.memorySize next.move_step.config_eq).trans hnext
  | stepBack =>
    simp only [perform]
    split
    · next back hback =>
      cases retreat_of_stepBack hback with
      | back _ => rfl
    · rfl
  | loadProgram text =>
    rw [perform_loadProgram_fst]
    unfold loadProgram
    split <;> rfl
  | resize size => exact absurd rfl (hkeep size)
  | _ => rfl

/-- The memory size stays without an operation that changes it. -/
theorem memorySize_performAll (m : Machine) {operations : List Operation}
    (hkeep : ∀ size, .resize size ∉ operations) :
    (m.performAll operations).config.memorySize = m.config.memorySize := by
  induction operations generalizing m with
  | nil => rfl
  | cons operation rest ih =>
    have hfirst : ∀ size, operation ≠ .resize size := by
      rintro size rfl
      exact hkeep size List.mem_cons_self
    have hrest : ∀ size, .resize size ∉ rest :=
      fun size hsize => hkeep size (List.mem_cons_of_mem _ hsize)
    exact (ih (m.perform operation).1 hrest).trans (m.memorySize_perform hfirst)

end Machine

namespace Debugger

variable {d : Debugger}

/-! ## What actions ask of the machine -/

/-- The operations that an action asks of the machine. -/
def requests (d : Debugger) : Action → List Operation
  | .step => [.step, .drainLogs]
  | .stepBack => [.stepBack, .drainLogs]
  | .tick => if d.running then [.step, .drainLogs] else []
  | .toggleBreakpoint => [.setBreakpoints (d.machine.breakpoints.toggle d.selected)]
  | .toggleProtection =>
    if d.machine.memory.isProtected d.selected then [.onMemory (.unprotect d.selected)]
    else [.onMemory (.protect d.selected)]
  | .toggleHeatmap => [.setHeatmapEnabled (!d.showHeatmap || d.machine.config.heatmapEnabled)]
  | .reset => [.loadWords d.program, .drainLogs]
  | _ => []

/-- No action asks the machine for another memory size. -/
theorem resize_not_mem_requests (d : Debugger) (action : Action) (size : MemorySize) :
    .resize size ∉ d.requests action := by
  cases action with
  | tick =>
    show Operation.resize size ∉ if d.running then [.step, .drainLogs] else []
    split <;> simp
  | toggleProtection =>
    show Operation.resize size ∉ if d.machine.memory.isProtected d.selected then
      [.onMemory (.unprotect d.selected)] else [.onMemory (.protect d.selected)]
    split <;> simp
  | _ => simp [requests]

/-- Toggling the protection of a cell asks the machine for nothing else. -/
theorem machine_toggleProtection (d : Debugger) :
    d.toggleProtection.machine = d.machine.performAll (d.requests .toggleProtection) := by
  unfold toggleProtection requests
  simp only
  by_cases hguard : d.machine.memory.isProtected d.selected = true
  · rw [if_pos hguard, if_pos hguard]
    rfl
  · rw [if_neg hguard, if_neg hguard]
    show _ = d.machine.withMemory (d.machine.memory.perform (.protect d.selected)).1
    simp only [Memory.perform]
    cases d.machine.memory.protect d.selected with
    | ok memory => rfl
    | error cause => rfl

namespace Drained

/-- A step asks the machine for a step and an empty log. -/
theorem machine_step (h : d.Drained) :
    d.step.machine = d.machine.performAll [.step, .drainLogs] := by
  rw [Debugger.machine_step]
  exact drainOwn_eq (observers_step_of_log h)

/-- A step back asks the machine for a step back and an empty log. -/
theorem machine_stepBack (h : d.Drained) :
    d.stepBack.machine = d.machine.performAll [.stepBack, .drainLogs] := by
  show _ = (d.machine.perform .stepBack).1.drainLogs
  unfold Debugger.stepBack
  simp only [Machine.perform]
  cases hback : d.machine.stepBack with
  | error refusal => exact drainOwn_eq h
  | ok back =>
    have hlog : back.observers = [.log [back.position]] := by
      rw [Machine.observers_stepBack hback, h]
      rfl
    exact drainOwn_eq hlog

/-- An action does to the machine what the operations do that it asks for. -/
theorem machine_act (h : d.Drained) (action : Action) :
    (d.act action).machine = d.machine.performAll (d.requests action) := by
  cases action with
  | step => exact h.machine_step
  | stepBack => exact h.machine_stepBack
  | tick =>
    show d.tick.machine = d.machine.performAll (if d.running then [.step, .drainLogs] else [])
    unfold tick
    by_cases hrunning : d.running = true
    · rw [if_pos hrunning, if_pos hrunning]
      exact h.machine_step
    · rw [if_neg hrunning, if_neg hrunning]
      rfl
  | toggleProtection => exact machine_toggleProtection d
  | reset =>
    have hlog : (d.machine.loadWords d.program).observers = [.log []] := h
    exact drainOwn_eq hlog
  | scroll rows => exact machine_scrollToSelection d rows
  | _ => rfl

end Drained

/-! ## The cursor -/

/-- A step leaves the selection. -/
theorem selected_step (d : Debugger) : d.step.selected = d.selected := by
  rw [step_changes]

/-- A step back leaves the selection. -/
theorem selected_stepBack (d : Debugger) : d.stepBack.selected = d.selected := by
  unfold stepBack
  split <;> rfl

/-- Toggling the protection of a cell leaves the selection. -/
theorem selected_toggleProtection (d : Debugger) : d.toggleProtection.selected = d.selected := by
  unfold toggleProtection
  simp only
  split
  · rfl
  · split <;> rfl

/-- Scrolling leaves the selection. -/
theorem selected_scrollToSelection (d : Debugger) (rows : Nat) :
    (d.scrollToSelection rows).selected = d.selected := by
  rw [scrollToSelection_changes]

/-- Only a selection moves the cursor. -/
theorem selected_act (d : Debugger) {action : Action} (hother : ∀ delta, action ≠ .select delta) :
    (d.act action).selected = d.selected := by
  cases action with
  | step => exact d.selected_step
  | stepBack => exact d.selected_stepBack
  | tick =>
    show d.tick.selected = d.selected
    unfold tick
    split
    · exact d.selected_step
    · rfl
  | toggleProtection => exact d.selected_toggleProtection
  | scroll rows => exact d.selected_scrollToSelection rows
  | select delta => exact absurd rfl (hother delta)
  | _ => rfl

/-- The cursor moves as far as asked, but for the ends of memory. -/
theorem selected_select (hsize : 0 < d.machine.memory.size) (delta : Int) :
    ((d.select delta).selected : Int) =
      max 0 (min (d.selected + delta) (d.machine.memory.size - 1)) := by
  unfold select
  simp only
  omega

/-! ## Debuggers at work -/

/-- A debugger that its own actions may have led to.  Its machine comes from operations on a new
machine, none of which is a resize, and the cursor is in memory. -/
structure Reached (config : Config) (d : Debugger) : Prop where
  drained : d.Drained
  machine : ∃ operations, (∀ size, Operation.resize size ∉ operations) ∧
    d.machine = (Machine.new config).performAll operations
  selected : d.selected < config.memorySize.words

namespace Reached

variable {config : Config}

/-- A debugger's memory keeps the size of its configuration. -/
theorem size (h : d.Reached config) : d.machine.memory.size = config.memorySize.words := by
  obtain ⟨operations, hkeep, hmachine⟩ := h.machine
  have hsafe := Machine.Safe.performAll config operations
  rw [hmachine]
  exact hsafe.memory.cells.trans
    (congrArg MemorySize.words ((Machine.new config).memorySize_performAll hkeep))

/-- A new debugger is one that actions reach. -/
theorem new (program : List Word) (config : Config) : (new program config).Reached config where
  drained := .new program config
  machine := ⟨[.attach (.log []), .loadWords program], by simp, rfl⟩
  selected := config.memorySize.words_pos

/-- Every action leads on to a debugger that actions reach. -/
theorem act (h : d.Reached config) (action : Action) : (d.act action).Reached config := by
  refine ⟨h.drained.act action, ?_, ?_⟩
  · obtain ⟨operations, hkeep, hmachine⟩ := h.machine
    refine ⟨operations ++ d.requests action, ?_, ?_⟩
    · intro size hsize
      rcases List.mem_append.1 hsize with hfront | hlast
      · exact hkeep size hfront
      · exact d.resize_not_mem_requests action size hlast
    · rw [h.drained.machine_act, hmachine, Machine.performAll_append]
  · by_cases hselect : ∃ delta, action = .select delta
    · obtain ⟨delta, rfl⟩ := hselect
      have hpos := config.memorySize.words_pos
      have hselected := selected_select (h.size ▸ hpos) delta
      rw [h.size] at hselected
      show (d.select delta).selected < _
      omega
    · rw [d.selected_act fun delta haction => hselect ⟨delta, haction⟩]
      exact h.selected

/-- Whatever row of actions leads to a debugger that actions reach. -/
theorem actAll (program : List Word) (config : Config) (actions : List Action) :
    ((Debugger.new program config).actAll actions).Reached config :=
  actAll_induction (fun _ action h => h.act action) (new program config) actions

end Reached

/-! ## The memory view -/

/-- The cursor is in one of the rows of the memory view. -/
def Shows (d : Debugger) (rows : Nat) : Prop :=
  d.scroll ≤ d.selected ∧ d.selected < d.scroll + rows

/-- Every cell of a memory can be addressed, with addresses to spare. -/
theorem words_lt_addressCount (size : MemorySize) : size.words < addressCount := by
  cases size <;> decide

section Scrolling

variable {rows : Nat} (hrows : 1 ≤ rows) (hroom : d.scroll + rows < addressCount)
  (hcell : d.selected + 1 < addressCount)

include hrows hroom hcell

/-- The view begins where it did, or at the nearest place from which the cursor is seen. -/
theorem scrollToSelection_eq :
    d.scrollToSelection rows =
      { d with scroll := max (d.selected + 1 - rows) (min d.scroll d.selected) } := by
  unfold scrollToSelection
  by_cases habove : d.selected < d.scroll
  · have hscroll : max (d.selected + 1 - rows) (min d.scroll d.selected) = d.selected := by omega
    rw [if_pos habove, hscroll]
  · rw [if_neg habove, Nat.mod_eq_of_lt hroom]
    by_cases hbelow : d.scroll + rows ≤ d.selected
    · have hscroll : max (d.selected + 1 - rows) (min d.scroll d.selected) =
          d.selected + 1 - rows := by omega
      have hback : d.selected + 1 + addressCount - rows =
          d.selected + 1 - rows + addressCount := by omega
      rw [if_pos ⟨hrows, hbelow⟩, hscroll, hback, Nat.add_mod_right,
        Nat.mod_eq_of_lt (Nat.lt_of_le_of_lt (Nat.sub_le _ _) hcell)]
    · have hscroll : max (d.selected + 1 - rows) (min d.scroll d.selected) = d.scroll := by omega
      rw [if_neg fun hboth => hbelow hboth.2, hscroll]

/-- After scrolling, the selection is among the rows shown. -/
theorem shows_scrollToSelection : (d.scrollToSelection rows).Shows rows := by
  rw [scrollToSelection_eq hrows hroom hcell]
  unfold Shows
  simp only
  omega

/-- Scrolling does nothing when the selection is shown already. -/
theorem scrollToSelection_of_shows (h : d.Shows rows) : d.scrollToSelection rows = d := by
  have hscroll : max (d.selected + 1 - rows) (min d.scroll d.selected) = d.scroll := by
    unfold Shows at h
    omega
  rw [scrollToSelection_eq hrows hroom hcell, hscroll]

/-- No beginning from which the cursor is seen is nearer to the old one than the new one is. -/
theorem scrollToSelection_least {scroll : Nat} (h : { d with scroll := scroll }.Shows rows) :
    (((d.scrollToSelection rows).scroll : Int) - d.scroll).natAbs ≤
      ((scroll : Int) - d.scroll).natAbs := by
  rw [scrollToSelection_eq hrows hroom hcell]
  unfold Shows at h
  simp only at h ⊢
  omega

/-- Scrolling once is enough. -/
theorem scrollToSelection_twice :
    (d.scrollToSelection rows).scrollToSelection rows = d.scrollToSelection rows := by
  have hshows := shows_scrollToSelection hrows hroom hcell
  have hselected := d.selected_scrollToSelection rows
  have hroom' : (d.scrollToSelection rows).scroll + rows < addressCount := by
    rw [scrollToSelection_eq hrows hroom hcell]
    simp only
    omega
  exact scrollToSelection_of_shows hrows hroom' (hselected ▸ hcell) hshows

end Scrolling

/-! ## The disassembly view -/

/-- The lines of the disassembly have consecutive addresses, from half the lines before the program
counter on. -/
theorem map_address_disassembly (d : Debugger) (lines : Nat) :
    (d.disassembly lines).map ViewLine.address =
      List.range' (d.machine.registers.pc - lines / 2) (d.disassembly lines).length := by
  simp only [disassembly, List.map_map, List.length_map, List.length_range']
  exact List.map_id _

/-- The disassembly has no more lines than there is room for. -/
theorem length_disassembly_le (d : Debugger) (lines : Nat) :
    (d.disassembly lines).length ≤ lines := by
  simp only [disassembly, List.length_map, List.length_range']
  exact Nat.min_le_left _ _

/-- The line of the program counter is marked, and no other. -/
theorem filter_isCurrent_disassembly {lines : Nat}
    (hpc : d.machine.registers.pc < d.machine.memory.size) (hlines : 1 ≤ lines) :
    (d.disassembly lines).filter ViewLine.isCurrent =
      [⟨d.machine.registers.pc, Item.atAddress d.machine.memory.cells d.machine.registers.pc,
        true⟩] := by
  have hsize : d.machine.registers.pc < d.machine.memory.cells.size := hpc
  unfold disassembly
  simp only
  generalize d.machine.registers.pc = pc at hsize
  generalize d.machine.memory.cells = cells at hsize
  generalize hshown : List.range' (pc - lines / 2) (min lines (cells.size - (pc - lines / 2))) =
    shown
  have hmem : pc ∈ shown := by
    rw [← hshown, List.mem_range'_1]
    omega
  have hnodup : shown.Nodup := hshown ▸ List.nodup_range'
  have hcurrent : shown.filter (fun a => a == pc) = [pc] := by
    rw [List.filter_beq, List.count_eq_one_of_mem hnodup hmem]
    rfl
  rw [List.filter_map]
  show (shown.filter fun a => a == pc).map _ = _
  rw [hcurrent, List.map_singleton, beq_self_eq_true]

/-- **The views show the point of interest.**  After any actions of a debugger the cursor is on a
cell of memory, and a selection moves it as far as asked or to the end of memory.  Scrolling a
memory view that has rows, none of them beyond the last address, brings the cursor into one of them;
it moves the view as little as that takes, not at all if the cursor was there, and a second time
changes nothing.  The disassembly view of any machine whose program counter is in memory has no more
lines than asked for, with one address after the other from half of them before the program counter
or from the beginning of memory, and marks the line of the program counter and no other. -/
theorem points_of_interest_in_view (program : List Word) (config : Config)
    (actions : List Action) :
    let d := (new program config).actAll actions
    d.selected < d.machine.memory.size ∧
    (∀ delta : Int, ((d.select delta).selected : Int) =
      max 0 (min (d.selected + delta) (d.machine.memory.size - 1))) ∧
    (∀ rows, 1 ≤ rows → d.scroll + rows < addressCount →
      let scrolled := d.scrollToSelection rows
      scrolled = { d with scroll := scrolled.scroll } ∧
      scrolled.scroll ≤ d.selected ∧ d.selected < scrolled.scroll + rows ∧
      (∀ scroll, scroll ≤ d.selected → d.selected < scroll + rows →
        ((scrolled.scroll : Int) - d.scroll).natAbs ≤ ((scroll : Int) - d.scroll).natAbs) ∧
      (d.scroll ≤ d.selected → d.selected < d.scroll + rows → scrolled = d) ∧
      scrolled.scrollToSelection rows = scrolled) ∧
    ∀ (shown : Debugger) (lines : Nat),
      shown.machine.registers.pc < shown.machine.memory.size → 1 ≤ lines →
      let pc := shown.machine.registers.pc
      let view := shown.disassembly lines
      view.length ≤ lines ∧
      (∃ start : Nat, (start : Int) = max 0 ((pc : Int) - lines / 2) ∧
        view.map ViewLine.address = List.range' start view.length) ∧
      view.filter ViewLine.isCurrent =
        [⟨pc, Item.atAddress shown.machine.memory.cells pc, true⟩] := by
  intro d
  have hreached : d.Reached config := .actAll program config actions
  have hselected : d.selected < d.machine.memory.size := hreached.size ▸ hreached.selected
  have hcell : d.selected + 1 < addressCount :=
    Nat.lt_of_le_of_lt hreached.selected (words_lt_addressCount config.memorySize)
  refine ⟨hselected, selected_select (Nat.zero_lt_of_lt hselected), ?_, ?_⟩
  · intro rows hrows hroom scrolled
    have hshows : scrolled.Shows rows := shows_scrollToSelection hrows hroom hcell
    have hcursor : scrolled.selected = d.selected := d.selected_scrollToSelection rows
    unfold Shows at hshows
    rw [hcursor] at hshows
    refine ⟨d.scrollToSelection_changes rows, hshows.1, hshows.2, ?_, ?_,
      scrollToSelection_twice hrows hroom hcell⟩
    · intro scroll habove hbelow
      exact scrollToSelection_least hrows hroom hcell ⟨habove, hbelow⟩
    · intro habove hbelow
      exact scrollToSelection_of_shows hrows hroom hcell ⟨habove, hbelow⟩
  · intro shown lines hpc hlines pc view
    refine ⟨shown.length_disassembly_le lines, ⟨pc - lines / 2, ?_, ?_⟩, ?_⟩
    · omega
    · exact shown.map_address_disassembly lines
    · exact filter_isCurrent_disassembly hpc hlines

/-- A cursor that was sent past the end of memory and back above the view, and a program counter
near the end. -/
theorem points_of_interest_in_view_at_end :
    let d := (new [3, 25] { memorySize := .small }).actAll
      [.select 40, .scroll 5, .select (-9), .step]
    d.selected = 17 ∧ d.scroll = 22 ∧ (d.select (-40)).selected = 0 ∧
      22 + 3 < addressCount ∧ (d.scrollToSelection 3).scroll = 17 ∧
      d.machine.registers.pc < d.machine.memory.size ∧
      (d.disassembly 5).length ≤ 5 ∧
      (d.disassembly 5).filter ViewLine.isCurrent =
        [⟨25, Item.atAddress d.machine.memory.cells 25, true⟩] := by
  intro d
  have hselected : d.selected = 17 := by decide +kernel
  have hscroll : d.scroll = 22 := by decide +kernel
  have hpc : d.machine.registers.pc = 25 := by decide +kernel
  have hlt : d.machine.registers.pc < d.machine.memory.size := by decide +kernel
  have hroom : d.scroll + 3 < addressCount := by decide +kernel
  obtain ⟨-, hselect, hview, hlisting⟩ := points_of_interest_in_view [3, 25]
    { memorySize := .small } [.select 40, .scroll 5, .select (-9), .step]
  obtain ⟨-, habove, hbelow, hleast, -⟩ := hview 3 (by decide) hroom
  obtain ⟨hlength, -, hcurrent⟩ := hlisting d 5 hlt (by decide)
  refine ⟨hselected, hscroll, ?_, hscroll ▸ hroom, ?_, hlt, hlength, hpc ▸ hcurrent⟩
  · have hzero : ((d.select (-40)).selected : Int) = 0 :=
      (hselect (-40)).trans (by decide +kernel)
    omega
  · -- Of the views that show the cursor the one that begins there is the nearest.
    have hnear : ((d.scrollToSelection 3).scroll - d.scroll : Int).natAbs ≤
        ((17 : Nat) - d.scroll : Int).natAbs :=
      hleast 17 (by decide +kernel) (by decide +kernel)
    have hat : (d.scrollToSelection 3).scroll ≤ d.selected := habove
    omega

end Debugger

end TernaryMachine
