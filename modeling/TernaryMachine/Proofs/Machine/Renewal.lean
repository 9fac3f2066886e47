import TernaryMachine.Proofs.Machine.Safety
import TernaryMachine.Proofs.Machine.Unobserved

/-!
# A reset leaves nothing behind

A machine keeps some of its settings twice: memory knows whether it counts accesses, and the
history knows its capacity and whether it is turned on.  `Synced` says that both agree with the
configuration, and every operation keeps it, except for counting that is switched in memory itself
(`Synced.perform`).

A reset clears memory and history but does not build them anew, so only a machine that is synced,
and safe, is like a new one of its configuration afterwards (`reset_eq`).  Every operation that
begins with a reset (`Clears`) then does what it does to a new machine (`perform_of_clears`), and
two machines that are set up in the same way cannot be told apart any more (`renewed`).
-/

set_option autoImplicit false

namespace TernaryMachine

/-- The settings that memory and history hold are those of the configuration. -/
structure Machine.Synced (m : Machine) : Prop where
  tracking : m.memory.tracking = m.config.heatmapEnabled
  capacity : m.history.capacity = m.config.maxHistory.toNat
  enabled : m.history.enabled = m.config.historyEnabled

/-- Only its own operation changes whether accesses are counted. -/
theorem Memory.tracking_perform (m : Memory) (operation : MemoryOperation)
    (h : ∀ on, operation ≠ .setTracking on) : (m.perform operation).1.tracking = m.tracking := by
  have hcalled := m.called operation
  generalize (m.perform operation).1 = m', (m.perform operation).2 = answer at hcalled ⊢
  cases hcalled with
  | load _ _ => exact tracking_touch m _
  | store w _ _ => exact tracking_touch (m.write _ w) _
  | setTracking on => exact absurd rfl (h on)
  | _ => rfl

/-- Cleared memory is like new memory of its size. -/
theorem Memory.Fits.clear_eq {m : Memory} {size : MemorySize} (h : m.Fits size.words) :
    m.clear = (Memory.fresh size).setTracking m.tracking := by
  unfold Memory.clear Memory.fresh Memory.setTracking
  rw [h.cells, h.counts]

/-- Loading an empty image changes nothing. -/
theorem Memory.loadImage_nil (m : Memory) : m.loadImage [] = m := by
  simp [loadImage]

/-- Popping a moment leaves capacity and switch. -/
theorem History.settings_of_pop? {h h' : History} {moment : Moment}
    (hpop : h.pop? = some (moment, h')) : h'.capacity = h.capacity ∧ h'.enabled = h.enabled := by
  unfold pop? at hpop
  split at hpop
  · cases hpop
  · cases hpop
    exact ⟨rfl, rfl⟩

namespace Machine

variable {m m' : Machine}

/-! ## Settings that are kept twice -/

namespace Synced

/-- A move keeps memory and history in step with the configuration. -/
theorem of_move (h : m.Synced) {result : Except Fault Outcome} (hmove : m.Move m' result) :
    m'.Synced := by
  have htracking : m'.memory.tracking = m.memory.tracking :=
    congrArg Frame.tracking hmove.frame_eq
  refine ⟨?_, ?_, ?_⟩
  · rw [htracking, hmove.config_eq, h.tracking]
  · rw [hmove.capacity_eq, hmove.config_eq, h.capacity]
  · rw [hmove.enabled_eq, hmove.config_eq, h.enabled]

/-- A step back keeps memory and history in step with the configuration. -/
theorem stepBack (h : m.Synced) {back : Machine} (hback : m.stepBack = .ok back) :
    back.Synced := by
  cases retreat_of_stepBack hback with
  | back hpop =>
    obtain ⟨hcapacity, henabled⟩ := History.settings_of_pop? hpop
    exact ⟨h.tracking, hcapacity.trans h.capacity, henabled.trans h.enabled⟩

/-- Loading a program text keeps memory and history in step with the configuration. -/
theorem loadProgram (h : m.Synced) (text : String) : (m.loadProgram text).1.Synced := by
  unfold Machine.loadProgram
  split
  · exact ⟨h.tracking, h.capacity, h.enabled⟩
  · exact ⟨h.tracking, h.capacity, h.enabled⟩

/-- Changing the size keeps memory and history in step with the configuration. -/
theorem resize (h : m.Synced) {size : MemorySize} {resized : Machine}
    (hresize : m.resize size = .ok resized) : resized.Synced := by
  unfold Machine.resize at hresize
  split at hresize
  · cases hresize
  · cases hresize
    exact ⟨rfl, h.capacity, h.enabled⟩

/-- Every operation keeps the settings in step, unless counting is switched in memory itself. -/
theorem perform (h : m.Synced) (operation : Operation)
    (hswitch : ∀ on, operation ≠ .onMemory (.setTracking on)) :
    (m.perform operation).1.Synced := by
  cases operation with
  | step => exact h.of_move m.move_step
  | run budget =>
    exact run_induction (fun m hm => of_move hm m.move_step) h budget
  | stepBack =>
    simp only [Machine.perform]
    split
    · next back hback => exact h.stepBack hback
    · exact h
  | loadProgram text =>
    rw [perform_loadProgram_fst]
    exact h.loadProgram text
  | resize size =>
    simp only [Machine.perform]
    split
    · next resized hresize => exact h.resize hresize
    · exact h
  | setHistoryEnabled on => exact ⟨h.tracking, h.capacity, rfl⟩
  | setMaxHistory limit => exact ⟨h.tracking, rfl, h.enabled⟩
  | setHeatmapEnabled on => exact ⟨rfl, h.capacity, h.enabled⟩
  | onMemory operation =>
    have hkeep : ∀ on, operation ≠ .setTracking on := by
      rintro on rfl
      exact hswitch on rfl
    exact ⟨(m.memory.tracking_perform operation hkeep).trans h.tracking, h.capacity, h.enabled⟩
  | _ => exact ⟨h.tracking, h.capacity, h.enabled⟩

/-- Memory and history of a new machine are in step with its configuration. -/
theorem new (config : Config) : (new config).Synced := ⟨rfl, rfl, rfl⟩

/-- Operations keep memory and history in step with the configuration, as long as none goes to the
counters behind its back. -/
theorem performAll (h : m.Synced) (operations : List Operation)
    (hswitch : ∀ on, .onMemory (.setTracking on) ∉ operations) :
    (m.performAll operations).Synced := by
  induction operations generalizing m with
  | nil => exact h
  | cons operation rest ih =>
    have hfirst : ∀ on, operation ≠ .onMemory (.setTracking on) := by
      rintro on rfl
      exact hswitch on List.mem_cons_self
    have hrest : ∀ on, .onMemory (.setTracking on) ∉ rest :=
      fun on hmem => hswitch on (List.mem_cons_of_mem _ hmem)
    exact ih (h.perform operation hfirst) hrest

end Synced

/-! ## A new machine in the place of an old one -/

/-- A fresh machine in the place of another: breakpoints, watches and observers are those of the
machine that was there. -/
def replacedBy (m fresh : Machine) : Machine :=
  { fresh with breakpoints := m.breakpoints, watches := m.watches, observers := m.observers }

section Renewal

variable (hfits : m.memory.Fits m.config.memorySize.words) (hsynced : m.Synced)

include hfits hsynced

/-- A reset puts a fresh machine in the place of another. -/
theorem reset_eq : m.reset = m.replacedBy (new m.config) := by
  have hmemory : m.memory.clear =
      (Memory.fresh m.config.memorySize).setTracking m.config.heatmapEnabled := by
    rw [hfits.clear_eq, hsynced.tracking]
  have hhistory : m.history.clear =
      .fresh m.config.maxHistory.toNat m.config.historyEnabled := by
    unfold History.clear History.fresh
    rw [hsynced.capacity, hsynced.enabled]
  unfold reset replacedBy new
  rw [hmemory, hhistory]

end Renewal

/-- There is nothing to reset in a new machine. -/
theorem reset_new (config : Config) : (new config).reset = new config :=
  reset_eq (Memory.Fits.fresh config.memorySize config.heatmapEnabled) (.new config)

/-- A reset is loading no words. -/
theorem reset_eq_loadWords (m : Machine) : m.reset = m.loadWords [] := by
  simp only [loadWords, Memory.loadImage_nil]

/-- The operations that begin with a reset; a change of size is one only where it is not refused. -/
inductive Clears (m : Machine) : Operation → Prop where
  | reset : Clears m .reset
  | loadWords (words : List Word) : Clears m (.loadWords words)
  | loadProgram (text : String) : Clears m (.loadProgram text)
  | resize (size : MemorySize) (hstate : m.state ≠ .running) : Clears m (.resize size)

/-- Unless a machine is running, a new size puts a fresh machine of that size in its place. -/
theorem resize_eq (hsynced : m.Synced) {size : MemorySize} (hstate : m.state ≠ .running) :
    m.resize size = .ok (m.replacedBy (new { m.config with memorySize := size })) := by
  have hfresh := Memory.Fits.fresh size m.config.heatmapEnabled
  unfold resize
  rw [if_neg hstate]
  exact congrArg Except.ok (reset_eq hfresh ⟨rfl, hsynced.capacity, hsynced.enabled⟩)

section Renewal

variable (hfits : m.memory.Fits m.config.memorySize.words) (hsynced : m.Synced)

include hfits hsynced

/-- Loading words puts a fresh machine that has loaded them in the place of another. -/
theorem loadWords_eq (words : List Word) :
    m.loadWords words = m.replacedBy ((new m.config).loadWords words) := by
  unfold loadWords
  rw [reset_eq hfits hsynced, reset_new]
  rfl

/-- An operation that begins with a reset does to a machine what it does to a new one. -/
theorem perform_of_clears {operation : Operation} (h : m.Clears operation) :
    m.perform operation =
      (m.replacedBy ((new m.config).perform operation).1,
        ((new m.config).perform operation).2) := by
  have hsize : m.memory.size = (new m.config).memory.size :=
    hfits.cells.trans (Memory.Fits.fresh m.config.memorySize m.config.heatmapEnabled).cells.symm
  have hfit : ∀ words, m.memory.imageFit words = (new m.config).memory.imageFit words :=
    fun words => congrArg (min words.length) hsize
  cases h with
  | reset =>
    simp only [perform, reset_eq hfits hsynced, reset_new]
  | loadWords words =>
    simp only [perform, loadWords_eq hfits hsynced, hfit]
  | loadProgram text =>
    simp only [perform, loadProgram]
    cases Program.parse text with
    | ok words =>
      simp only [loadWords_eq hfits hsynced, hfit]
    | error cause =>
      simp only [reset_eq hfits hsynced, reset_new]
  | resize size hstate =>
    have hidle : (new m.config).state ≠ .running := RunState.noConfusion
    simp only [perform, resize_eq hsynced hstate, resize_eq (.new m.config) hidle]
    rfl

end Renewal

/-- What is the same in two machines that are set up in the same way. -/
structure SetUpAlike (m m' : Machine) : Prop where
  config : m.config = m'.config
  breakpoints : m.breakpoints = m'.breakpoints
  watches : m.watches = m'.watches

/-- Put in the place of machines that are set up alike, a fresh machine is the same. -/
theorem SetUpAlike.unobserved_replacedBy (h : m.SetUpAlike m') (fresh : Machine) :
    (m.replacedBy fresh).unobserved = (m'.replacedBy fresh).unobserved := by
  unfold unobserved replacedBy
  rw [h.breakpoints, h.watches]

/-- What is reached by operations, memory's own switch for counting excepted. -/
theorem synced_performAll (config : Config) {operations : List Operation}
    (hswitch : ∀ on, .onMemory (.setTracking on) ∉ operations) :
    let m := (new config).performAll operations
    m.memory.Fits m.config.memorySize.words ∧ m.Synced :=
  ⟨(Safe.performAll config operations).memory, (Synced.new config).performAll operations hswitch⟩

/-- Nothing of what a machine went through is left after a load, a reset or a change of size: it is
like a new machine of its configuration, apart from breakpoints, watches and observers.  So two
machines that are set up alike answer alike from there on, whatever became of either before. -/
theorem renewed_after_operations (config : Config) (operations : List Operation)
    (hswitch : ∀ on, .onMemory (.setTracking on) ∉ operations) :
    let m := (new config).performAll operations
    (∀ words, m.loadWords words = m.replacedBy ((new m.config).loadWords words)) ∧
    m.reset = m.loadWords [] ∧
    (∀ text, m.loadProgram text =
      match Program.parse text with
      | .ok words => (m.loadWords words, .ok (m.memory.imageFit words))
      | .error cause => (m.reset, .error cause)) ∧
    (∀ size, m.perform (.resize size) =
      if m.state = .running then (m, .refused .resizeWhileRunning)
      else (m.replacedBy ((new { m.config with memorySize := size }).loadWords []), .done)) ∧
    ∀ config' operations', (∀ on, .onMemory (.setTracking on) ∉ operations') →
      let m' := (new config').performAll operations'
      m.SetUpAlike m' → ∀ start, m.Clears start → m'.Clears start → ∀ later,
        m.answers (start :: later) = m'.answers (start :: later) ∧
          (m.performAll (start :: later)).unobserved =
            (m'.performAll (start :: later)).unobserved := by
  intro m
  obtain ⟨hfits, hsynced⟩ : m.memory.Fits m.config.memorySize.words ∧ m.Synced :=
    synced_performAll config hswitch
  refine ⟨loadWords_eq hfits hsynced, m.reset_eq_loadWords, ?_, ?_, ?_⟩
  · intro text
    unfold loadProgram
    cases Program.parse text with
    | ok words => rfl
    | error cause => rfl
  · intro size
    by_cases hstate : m.state = .running
    · rw [if_pos hstate]
      simp only [perform, resize, hstate, if_true]
    · rw [if_neg hstate, ← reset_eq_loadWords, reset_new]
      simp only [perform, resize_eq hsynced hstate]
  · intro config' operations' hswitch' m' halike start hclears hclears' later
    obtain ⟨hfits', hsynced'⟩ : m'.memory.Fits m'.config.memorySize.words ∧ m'.Synced :=
      synced_performAll config' hswitch'
    have hstart := perform_of_clears hfits hsynced hclears
    have hstart' := perform_of_clears hfits' hsynced' hclears'
    rw [← halike.config] at hstart'
    have hafter : (m.perform start).1.unobserved = (m'.perform start).1.unobserved := by
      rw [hstart, hstart']
      exact halike.unobserved_replacedBy _
    obtain ⟨hanswers, hlast⟩ := answers_congr hafter later
    refine ⟨?_, hlast⟩
    have hanswer : (m.perform start).2 = (m'.perform start).2 := by rw [hstart, hstart']
    rw [answers, answers, hanswer, hanswers]

/-- A machine that counts accesses and has run a program answers, when it loads another, like one
that has not. -/
theorem renewed_after_operations_counting :
    let m := (new {}).performAll [.setHeatmapEnabled true, .loadWords [9, 9, 0], .run 2]
    let m' := (new {}).performAll [.setHeatmapEnabled true]
    m ≠ m' ∧ m.reset = m.loadWords [] ∧
      m.answers [.loadWords [9, 0], .run 5] = m'.answers [.loadWords [9, 0], .run 5] := by
  intro m m'
  obtain ⟨-, hreset, -, -, hanswers⟩ := renewed_after_operations {}
    [.setHeatmapEnabled true, .loadWords [9, 9, 0], .run 2] (by decide)
  have halike : m.SetUpAlike m' := ⟨by decide +kernel, by decide +kernel, by decide +kernel⟩
  have hsame := hanswers {} [.setHeatmapEnabled true] (by decide) halike (.loadWords [9, 0])
    (.loadWords _) (.loadWords _) [.run 5]
  exact ⟨by decide +kernel, hreset, hsame.1⟩

end Machine

end TernaryMachine
