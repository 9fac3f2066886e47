import Mathlib.Data.List.Chain
import TernaryMachine.Proofs.Machine.Limit
import TernaryMachine.Proofs.Machine.Renewal
import TernaryMachine.Proofs.Machine.Report
import TernaryMachine.Proofs.Machine.Undo

/-!
# The history is a chain without gaps

Every moment of a history was recorded one instruction after the moment behind it.  Recording puts a
moment in front, and everything that takes moments away takes them at one of the two ends, so the
counts of instructions go down one by one from the newest moment to the oldest
(`History.Chained`).

The newest moment is one instruction behind the machine, with one exception.  An instruction that
faults is recorded but not counted, and as long as the machine stays halted there, the newest moment
has the count of the machine (`Machine.Reaches`).  `Machine.Chained` puts the two together, and
`Machine.Chained.change` takes them through everything that may become of a machine.
-/

set_option autoImplicit false

namespace TernaryMachine

namespace History

/-- A history within its capacity, empty unless it records, whose counts of instructions go down one
by one from the newest moment to the oldest. -/
structure Chained (h : History) : Prop where
  bounded : h.moments.length ≤ h.capacity
  idle : h.isRecording = false → h.moments = []
  linked : h.moments.IsChain fun newer older =>
    newer.instructionCount = older.instructionCount + 1

namespace Chained

variable {h rest : History} {moment : Moment}

/-- A history without moments is a chain. -/
theorem of_nil (hnil : h.moments = []) : h.Chained := by
  refine ⟨?_, fun _ => hnil, ?_⟩
  · rw [hnil]
    exact Nat.zero_le _
  · rw [hnil]
    exact List.isChain_nil

/-- A moment that follows on the newest one can be recorded. -/
theorem record (hchain : h.Chained) (hnext : ∀ newest ∈ h.moments.head?,
    moment.instructionCount = newest.instructionCount + 1) : (h.record moment).Chained := by
  cases hrec : h.isRecording with
  | false =>
    rw [record_of_not_recording hrec]
    exact hchain
  | true =>
    rw [record_eq hrec]
    refine ⟨List.length_take_le _ _, ?_, ?_⟩
    · intro hoff
      have hnot : h.isRecording = false := hoff
      rw [hrec] at hnot
      cases hnot
    · apply List.IsChain.take
      exact hchain.linked.cons hnext

/-- The moment taken out follows on the newest one that is left. -/
theorem pop? (hchain : h.Chained) (hpop : h.pop? = some (moment, rest)) :
    rest.Chained ∧ ∀ newest ∈ rest.moments.head?,
      moment.instructionCount = newest.instructionCount + 1 := by
  unfold History.pop? at hpop
  split at hpop
  · cases hpop
  · next newest older hmoments =>
    cases hpop
    obtain ⟨hbounded, hidle, hlinked⟩ := hchain
    rw [hmoments] at hbounded hlinked
    rw [List.length_cons] at hbounded
    refine ⟨⟨?_, ?_, hlinked.tail⟩, ?_⟩
    · show older.length ≤ h.capacity
      omega
    · intro hoff
      rw [hidle hoff] at hmoments
      cases hmoments
    · intro next hnext
      exact hlinked.rel_head? hnext

/-- A history cut down to a capacity is still a chain. -/
theorem setCapacity (hchain : h.Chained) (capacity : Nat) : (h.setCapacity capacity).Chained := by
  refine ⟨List.length_take_le _ _, ?_, hchain.linked.take _⟩
  intro hoff
  show h.moments.take capacity = []
  cases hrec : h.isRecording with
  | false => rw [hchain.idle hrec, List.take_nil]
  | true =>
    -- A history that was recording stops only when nothing is left of its capacity.
    have hzero : capacity = 0 := by
      have henabled : h.enabled = true := (Bool.and_eq_true_iff.1 hrec).1
      have hsmall : (h.enabled && decide (0 < capacity)) = false := hoff
      rw [henabled, Bool.true_and, decide_eq_false_iff_not] at hsmall
      omega
    rw [hzero, List.take_zero]

/-- A history switched off or on is still a chain. -/
theorem setEnabled (hchain : h.Chained) (on : Bool) : (h.setEnabled on).Chained := by
  cases on with
  | false => exact of_nil rfl
  | true =>
    refine ⟨hchain.bounded, ?_, hchain.linked⟩
    intro hoff
    apply hchain.idle
    simp only [isRecording, History.setEnabled, Bool.true_and] at hoff
    simp only [isRecording, hoff, Bool.and_false]

end Chained

end History

namespace Machine

variable {m m' : Machine} {past : List Turn} {result : Except Fault Outcome}

/-! ## The newest moment -/

/-- The latest turn that ran an instruction or faulted inside one. -/
def lastExecuted? (turns : List Turn) : Option Turn := (turns.filter Turn.executed).getLast?

/-- A turn that executed is the latest that did. -/
theorem lastExecuted?_of_executed {turn : Turn} (hrun : turn.executed = true) :
    lastExecuted? (past ++ [turn]) = some turn := by
  unfold lastExecuted?
  rw [List.filter_append, List.filter_cons_of_pos hrun, List.filter_nil, List.getLast?_concat]

/-- A turn that did not execute leaves which was the latest that did. -/
theorem lastExecuted?_of_not_executed {turn : Turn} (hstay : turn.executed = false) :
    lastExecuted? (past ++ [turn]) = lastExecuted? past := by
  have hskip : ¬ turn.executed = true := by
    rw [hstay]
    exact Bool.false_ne_true
  unfold lastExecuted?
  rw [List.filter_append, List.filter_cons_of_neg hskip, List.filter_nil, List.append_nil]

/-- The machine has come one instruction further than a moment, or it is halted by the fault of the
very turn that the moment was recorded for, the latest of the turns so far that executed. -/
def Reaches (past : List Turn) (m : Machine) (moment : Moment) : Prop :=
  moment.instructionCount + 1 = m.instructionCount ∨
    (moment.instructionCount = m.instructionCount ∧ m.state = .halted ∧
      ∃ turn f, lastExecuted? past = some turn ∧ turn.before.moment = moment ∧
        turn.result = .error f)

/-- Unless it is halted, a machine is one instruction further than the newest moment. -/
theorem Reaches.of_alive {moment : Moment} (h : m.Reaches past moment)
    (hstate : m.state ≠ .halted) :
    moment.instructionCount + 1 = m.instructionCount := by
  rcases h with hnext | ⟨-, hhalted, -⟩
  · exact hnext
  · exact absurd hhalted hstate

/-- An instruction is counted unless it faults. -/
theorem Move.counted (h : m.Move m' result) (hrun : m.executes = true) :
    m.instructionCount + 1 = m'.instructionCount ∨
      (m.instructionCount = m'.instructionCount ∧ m'.state = .halted ∧ ∃ f, result = .error f) := by
  obtain ⟨word, hgate⟩ := exists_gate_of_executes hrun
  cases h with
  | refused hother => rw [hother] at hgate; cases hgate
  | exhausted hother => rw [hother] at hgate; cases hgate
  | pause hother => rw [hother] at hgate; cases hgate
  | outside hother => rw [hother] at hgate; cases hgate
  | fault _ _ => exact .inr ⟨rfl, rfl, _, rfl⟩
  | stop _ _ _ => exact .inl rfl
  | go _ _ _ => exact .inl rfl

/-- A step that the gate keeps from an instruction counts none, and leaves a halted machine as it
is. -/
theorem Move.uncounted (h : m.Move m' result) (hstay : m.executes = false) :
    m.instructionCount = m'.instructionCount ∧ (m.state = .halted → m' = m) := by
  have hnever : ∀ {word : Word}, m.gate ≠ .run word := by
    intro word hgate
    rw [executes_of_gate hgate] at hstay
    cases hstay
  cases h with
  | refused _ => exact ⟨rfl, fun _ => rfl⟩
  | exhausted hgate =>
    cases gate_eq_iff.1 hgate with
    | exhausted hstate _ => exact ⟨rfl, fun hhalted => absurd hhalted hstate⟩
  | pause hgate =>
    cases gate_eq_iff.1 hgate with
    | breakpoint hstate _ _ => exact ⟨rfl, fun hhalted => absurd hhalted hstate⟩
  | outside hgate =>
    cases gate_eq_iff.1 hgate with
    | outside hstate _ _ _ => exact ⟨rfl, fun hhalted => absurd hhalted hstate⟩
  | fault hgate _ => exact absurd hgate hnever
  | stop hgate _ _ => exact absurd hgate hnever
  | go hgate _ _ => exact absurd hgate hnever

/-- A machine that is about to run an instruction is not halted. -/
theorem state_of_executes (hrun : m.executes = true) : m.state ≠ .halted := by
  obtain ⟨word, hgate⟩ := exists_gate_of_executes hrun
  cases gate_eq_iff.1 hgate with
  | run hstate _ _ _ => exact hstate

/-! ## The chain and the machine -/

/-- A machine whose history is a chain that ends at the machine, with the settings of the
configuration; `past` are the turns that it has taken so far. -/
structure Chained (past : List Turn) (m : Machine) : Prop where
  history : m.history.Chained
  capacity : m.history.capacity = m.config.maxHistory.toNat
  enabled : m.history.enabled = m.config.historyEnabled
  newest : ∀ moment ∈ m.history.moments.head?, m.Reaches past moment

namespace Chained

/-- A machine without moments has nothing to link. -/
theorem of_nil (hnil : m.history.moments = [])
    (hcapacity : m.history.capacity = m.config.maxHistory.toNat)
    (henabled : m.history.enabled = m.config.historyEnabled) : m.Chained past where
  history := .of_nil hnil
  capacity := hcapacity
  enabled := henabled
  newest moment hmoment := by
    rw [hnil] at hmoment
    cases hmoment

/-- Only the history, the settings for it, the count and the state matter. -/
theorem congr (h : m.Chained past) (hhistory : m'.history = m.history)
    (hlimit : m'.config.maxHistory = m.config.maxHistory)
    (henabled : m'.config.historyEnabled = m.config.historyEnabled)
    (hcount : m'.instructionCount = m.instructionCount) (hstate : m'.state = m.state) :
    m'.Chained past := by
  refine ⟨?_, ?_, ?_, ?_⟩
  · rw [hhistory]
    exact h.history
  · rw [hhistory, hlimit]
    exact h.capacity
  · rw [hhistory, henabled]
    exact h.enabled
  · intro moment hmoment
    rw [hhistory] at hmoment
    unfold Reaches
    rw [hcount, hstate]
    exact h.newest moment hmoment

/-- A move keeps a machine chained, with one more turn taken. -/
theorem of_move (h : m.Chained past) (hmove : m.Move m' result) :
    m'.Chained (past ++ [⟨m, m', result⟩]) := by
  have hcapacity : m'.history.capacity = m'.config.maxHistory.toNat := by
    rw [hmove.capacity_eq, hmove.config_eq, h.capacity]
  have henabled : m'.history.enabled = m'.config.historyEnabled := by
    rw [hmove.enabled_eq, hmove.config_eq, h.enabled]
  have hhistory := hmove.history_eq
  cases hrun : m.executes with
  | false =>
    have hlast : lastExecuted? (past ++ [⟨m, m', result⟩]) = lastExecuted? past :=
      lastExecuted?_of_not_executed hrun
    obtain ⟨hcount, hsame⟩ := hmove.uncounted hrun
    rw [hrun, if_neg Bool.false_ne_true] at hhistory
    refine ⟨hhistory ▸ h.history, hcapacity, henabled, ?_⟩
    intro moment hmoment
    rw [hhistory] at hmoment
    have hreaches := h.newest moment hmoment
    by_cases hstate : m.state = .halted
    · obtain rfl := hsame hstate
      unfold Reaches
      rw [hlast]
      exact hreaches
    · exact .inl ((hreaches.of_alive hstate).trans hcount)
  | true =>
    have hlast : lastExecuted? (past ++ [⟨m, m', result⟩]) = some ⟨m, m', result⟩ :=
      lastExecuted?_of_executed hrun
    rw [hrun, if_pos rfl] at hhistory
    -- What the step records follows on the newest moment, since the machine was not halted.
    have hfollows : ∀ newest ∈ m.history.moments.head?,
        m.moment.instructionCount = newest.instructionCount + 1 :=
      fun newest hnewest => ((h.newest newest hnewest).of_alive (state_of_executes hrun)).symm
    refine ⟨hhistory ▸ h.history.record hfollows, hcapacity, henabled, ?_⟩
    intro moment hmoment
    rw [hhistory] at hmoment
    cases hrec : m.history.isRecording with
    | false =>
      rw [History.record_of_not_recording hrec, h.history.idle hrec] at hmoment
      cases hmoment
    | true =>
      rw [History.head_record hrec] at hmoment
      cases hmoment
      rcases hmove.counted hrun with hnext | ⟨hcount, hstate, f, hfault⟩
      · exact .inl hnext
      · exact .inr ⟨hcount, hstate, _, f, hlast, rfl, hfault⟩

/-- A step keeps a machine chained, with one more turn taken. -/
theorem step (h : m.Chained past) : m.step.1.Chained (past ++ [m.turn]) := h.of_move m.move_step

/-- Steps keep a machine chained, with their turns taken. -/
theorem after (h : m.Chained past) (n : Nat) :
    (after n m).Chained (past ++ turns n m) := by
  induction n generalizing m past with
  | zero =>
    rw [turns, List.append_nil]
    exact h
  | succ n ih =>
    have hrest := ih h.step
    rwa [List.append_assoc] at hrest

/-- A step back keeps a machine chained, and takes no turn. -/
theorem stepBack (h : m.Chained past) {back : Machine} (hback : m.stepBack = .ok back) :
    back.Chained past := by
  cases retreat_of_stepBack hback with
  | back hpop =>
    obtain ⟨hrest, hnext⟩ := h.history.pop? hpop
    obtain ⟨hcapacity, henabled⟩ := History.settings_of_pop? hpop
    refine ⟨hrest, hcapacity.trans h.capacity, henabled.trans h.enabled, ?_⟩
    intro moment hmoment
    exact .inl (hnext moment hmoment).symm

/-- A new capacity keeps a machine chained. -/
theorem setMaxHistory (h : m.Chained past) (limit : UInt64) :
    (m.setMaxHistory limit).Chained past := by
  refine ⟨h.history.setCapacity _, rfl, h.enabled, ?_⟩
  intro moment hmoment
  apply h.newest
  -- Moments are dropped at the old end, so as long as one is left the newest stays.
  have hhead : moment ∈ (m.history.moments.take limit.toNat).head? := hmoment
  rw [List.head?_take] at hhead
  split at hhead
  · cases hhead
  · exact hhead

/-- Switching the history off or on keeps a machine chained. -/
theorem setHistoryEnabled (h : m.Chained past) (on : Bool) :
    (m.setHistoryEnabled on).Chained past := by
  refine ⟨h.history.setEnabled on, h.capacity, rfl, ?_⟩
  intro moment hmoment
  cases on with
  | false => cases hmoment
  | true => exact h.newest moment hmoment

/-- Operations that take no steps keep the chain as it is. -/
theorem perform (h : m.Chained past) {operation : Operation} (hstep : operation ≠ .step)
    (hrun : ∀ budget, operation ≠ .run budget) : (m.perform operation).1.Chained past := by
  cases operation with
  | step => exact absurd rfl hstep
  | run budget => exact absurd rfl (hrun budget)
  | stepBack =>
    simp only [Machine.perform]
    split
    · next back hback => exact h.stepBack hback
    · exact h
  | reset => exact of_nil rfl h.capacity h.enabled
  | loadWords words => exact of_nil rfl h.capacity h.enabled
  | loadProgram text =>
    rw [perform_loadProgram_fst]
    unfold loadProgram
    split
    · exact of_nil rfl h.capacity h.enabled
    · exact of_nil rfl h.capacity h.enabled
  | resize size =>
    simp only [Machine.perform, resize]
    by_cases hstate : m.state = .running
    · rw [if_pos hstate]
      exact h
    · rw [if_neg hstate]
      exact of_nil rfl h.capacity h.enabled
  | setHistoryEnabled on => exact h.setHistoryEnabled on
  | setMaxHistory limit => exact h.setMaxHistory limit
  | _ => exact h.congr rfl rfl rfl rfl rfl

end Chained

/-! ## Everything that may become of a machine -/

/-- The turns that a change takes. -/
def turnsDuring (m : Machine) : Change → List Turn
  | .operation operation => m.turnsIn operation
  | .memory _ => []

/-- The turns of a sequence of changes. -/
def turnsThrough : Machine → List Change → List Turn
  | _, [] => []
  | m, first :: rest => m.turnsDuring first ++ turnsThrough (m.change first) rest

namespace Chained

/-- Every operation keeps a machine chained, with the operation's turns taken. -/
theorem operation (h : m.Chained past) (operation : Operation) :
    (m.perform operation).1.Chained (past ++ m.turnsIn operation) := by
  cases operation with
  | step => exact h.step
  | run budget =>
    have hrun : (m.perform (.run budget)).1 = Machine.after (runLength budget m) m :=
      m.run_eq_after budget
    rw [hrun]
    exact h.after _
  | _ =>
    show (m.perform _).1.Chained (past ++ [])
    rw [List.append_nil]
    exact h.perform Operation.noConfusion fun _ => Operation.noConfusion

/-- Every change keeps a machine chained, with the change's turns taken. -/
theorem change (h : m.Chained past) (change : Change) :
    (m.change change).Chained (past ++ m.turnsDuring change) := by
  cases change with
  | operation operation => exact h.operation operation
  | memory memory =>
    rw [turnsDuring, List.append_nil]
    exact h.congr rfl rfl rfl rfl rfl

/-- A row of changes keeps a machine chained, with all their turns taken. -/
theorem changeAll (h : m.Chained past) (changes : List Change) :
    (m.changeAll changes).Chained (past ++ m.turnsThrough changes) := by
  induction changes generalizing m past with
  | nil =>
    rw [turnsThrough, List.append_nil]
    exact h
  | cons first rest ih =>
    rw [turnsThrough, ← List.append_assoc]
    exact ih (h.change first)

end Chained

/-- **The history is a chain without gaps.**  Whatever becomes of a machine, its history has no more
moments than the configuration allows and none while it does not record, and from the oldest moment
to the newest the counts of instructions grow one by one.  The newest is one instruction behind the
machine, or else the machine is halted by the fault of the step that recorded it, and no other step
has executed since. -/
theorem history_gapless (config : Config) (changes : List Change) :
    let m := (new config).changeAll changes
    m.history.length ≤ m.config.maxHistory.toNat ∧
    m.history.isRecording = (m.config.historyEnabled && decide (0 < m.config.maxHistory.toNat)) ∧
    (m.history.isRecording = false → m.history.length = 0) ∧
    (m.history.moments.reverse.map Moment.instructionCount).IsChain
      (fun older newer => newer = older + 1) ∧
    ∀ newest, m.history.moments.head? = some newest →
      newest.instructionCount + 1 = m.instructionCount ∨
        (newest.instructionCount = m.instructionCount ∧ m.state = .halted ∧
          ∃ turn f, lastExecuted? ((new config).turnsThrough changes) = some turn ∧
            turn.before.moment = newest ∧ turn.result = .error f) := by
  intro m
  have hnew : (new config).Chained [] := .of_nil rfl rfl rfl
  have hm : m.Chained ((new config).turnsThrough changes) := hnew.changeAll changes
  refine ⟨?_, ?_, ?_, ?_, hm.newest⟩
  · rw [← hm.capacity]
    exact hm.history.bounded
  · rw [← hm.capacity, ← hm.enabled]
    rfl
  · intro hoff
    exact List.length_eq_zero_iff.2 (hm.history.idle hoff)
  · rw [List.isChain_map, List.isChain_reverse]
    exact hm.history.linked

end Machine

end TernaryMachine
