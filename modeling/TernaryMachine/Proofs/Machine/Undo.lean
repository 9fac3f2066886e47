import TernaryMachine.Proofs.Machine.Operation
import TernaryMachine.Proofs.Machine.Turns

/-!
# Stepping back undoes stepping

A step that gets past the gate puts the moment before it at the front of the history, and no
other step touches the history.  So after any number of steps the history holds the moments
before those of them that got past, latest first, in front of what it held at the beginning, all
of it cut to the capacity (`moments_after`).  Stepping back `j` times in a row brings the `j`-th of
them back (`restores_stepsBack`).  The two together are `stepsBack_after_turns`: whatever the
steps did, stepping back undoes them one by one, as far as the capacity reaches.
-/

set_option autoImplicit false

namespace TernaryMachine

/-- What is cut off anyway need not be there. -/
theorem take_append_take {α : Type} (n : Nat) (front l : List α) :
    (front ++ l.take n).take n = (front ++ l).take n := by
  rw [List.take_append, List.take_append, List.take_take]
  congr 2
  omega

namespace History

/-- The history with moments recorded one by one; they are given latest first. -/
def recordAll (h : History) (latestFirst : List Moment) : History :=
  latestFirst.foldr (fun moment h => h.record moment) h

/-- The newest of a row of moments is recorded last. -/
@[simp]
theorem recordAll_cons (h : History) (moment : Moment) (rest : List Moment) :
    h.recordAll (moment :: rest) = (h.recordAll rest).record moment := rfl

/-- Moments are recorded one row after the other, the older row first. -/
theorem recordAll_append (h : History) (latest rest : List Moment) :
    h.recordAll (latest ++ rest) = (h.recordAll rest).recordAll latest :=
  List.foldr_append

section Recording

variable {h : History} (hon : h.isRecording = true)

include hon

/-- A recorded moment goes in front, and the history is cut down to its capacity. -/
theorem record_eq (moment : Moment) :
    h.record moment = { h with moments := (moment :: h.moments).take h.capacity } := by
  show (⟨(h.record moment).moments, (h.record moment).capacity, (h.record moment).enabled⟩ :
    History) = _
  rw [moments_record hon, capacity_record, enabled_record]

/-- What is recorded stands in front, and all of it is cut to the capacity.  A history that holds
more than that to begin with is cut by the first moment recorded. -/
theorem recordAll_eq {moments : List Moment} (hne : moments ≠ []) :
    h.recordAll moments = { h with moments := (moments ++ h.moments).take h.capacity } := by
  induction moments with
  | nil => exact absurd rfl hne
  | cons moment rest ih =>
    -- The oldest moment comes first, and recording it cuts a history that is too long.
    cases rest with
    | nil => exact record_eq hon moment
    | cons second rest =>
      have hlater := ih (List.cons_ne_nil second rest)
      have hrecord := record_eq (h := { h with
        moments := (second :: rest ++ h.moments).take h.capacity }) hon moment
      have hcut := take_append_take h.capacity [moment] (second :: rest ++ h.moments)
      rw [recordAll_cons, hlater, hrecord]
      exact congrArg (fun moments => { h with moments := moments }) hcut

/-- Recorded moments go in front, and a history within its capacity is cut down to it. -/
theorem recordAll_eq_of_room (hroom : h.length ≤ h.capacity) (moments : List Moment) :
    h.recordAll moments = { h with moments := (moments ++ h.moments).take h.capacity } := by
  cases moments with
  | nil =>
    have hall : h.moments.take h.capacity = h.moments := List.take_of_length_le hroom
    rw [List.nil_append, hall]
    rfl
  | cons moment rest => exact recordAll_eq hon (List.cons_ne_nil moment rest)

end Recording

end History

namespace Machine

/-- Takes `j` steps back in a row, as long as none is refused. -/
def stepsBack : Nat → Machine → Except Refusal Machine
  | 0, m => .ok m
  | j + 1, m => m.stepBack.bind (stepsBack j)

/-- The machine `back` is what has to come of taking `last` back to a moment: the moment itself,
and everything else as it was, but ready to run on. -/
structure Restores (moment : Moment) (last back : Machine) : Prop where
  registers : back.registers = moment.registers
  cells : back.memory.cells = moment.cells
  callStack : back.callStack = moment.callStack
  instructionCount : back.instructionCount = moment.instructionCount
  guarded : back.memory.guarded = last.memory.guarded
  counts : back.memory.counts = last.memory.counts
  tracking : back.memory.tracking = last.memory.tracking
  breakpoints : back.breakpoints = last.breakpoints
  watches : back.watches = last.watches
  config : back.config = last.config
  state : back.state = .running
  resumeAt : back.resumeAt = none

/-! ## Stepping back along the history -/

/-- Restoring one moment and then an older one is restoring the older one. -/
theorem Restores.trans {first second : Moment} {last middle back : Machine}
    (hlast : Restores first last middle) (hmiddle : Restores second middle back) :
    Restores second last back :=
  { hmiddle with
    guarded := hmiddle.guarded.trans hlast.guarded
    counts := hmiddle.counts.trans hlast.counts
    tracking := hmiddle.tracking.trans hlast.tracking
    breakpoints := hmiddle.breakpoints.trans hlast.breakpoints
    watches := hmiddle.watches.trans hlast.watches
    config := hmiddle.config.trans hlast.config }

/-- With a moment in the history, a step back restores the newest and takes it off. -/
theorem stepBack_of_cons {m : Machine} {moment : Moment} {rest : List Moment}
    (h : m.history.moments = moment :: rest) :
    ∃ back, m.stepBack = .ok back ∧ back.history.moments = rest ∧ Restores moment m back := by
  have hpop : m.history.pop? = some (moment, { m.history with moments := rest }) := by
    simp only [History.pop?, h]
  simp only [stepBack, hpop]
  exact ⟨_, rfl, rfl, ⟨rfl, rfl, rfl, rfl, rfl, rfl, rfl, rfl, rfl, rfl, rfl, rfl⟩⟩

/-- Without a moment in the history, a step back is refused. -/
theorem perform_stepBack_of_nil {m : Machine} (h : m.history.moments = []) :
    m.perform .stepBack = (m, .refused .noHistory) := by
  have hpop : m.history.pop? = none := by simp only [History.pop?, h]
  have hback : m.stepBack = .error .noHistory := by simp only [stepBack, hpop]
  simp only [perform, hback]

/-- Stepping back `j + 1` times brings the moment number `j` of the history back. -/
theorem restores_stepsBack {m : Machine} {j : Nat} {moment : Moment}
    (h : m.history.moments[j]? = some moment) :
    ∃ back, stepsBack (j + 1) m = .ok back ∧ Restores moment m back := by
  induction j generalizing m with
  | zero =>
    obtain ⟨rest, hmoments⟩ : ∃ rest, m.history.moments = moment :: rest := by
      cases hm : m.history.moments with
      | nil => simp [hm] at h
      | cons first rest =>
        rw [hm] at h
        cases h
        exact ⟨rest, rfl⟩
    obtain ⟨back, hback, -, hrestores⟩ := stepBack_of_cons hmoments
    refine ⟨back, ?_, hrestores⟩
    simp only [stepsBack, hback, Except.bind]
  | succ j ih =>
    obtain ⟨first, rest, hmoments⟩ : ∃ first rest, m.history.moments = first :: rest := by
      cases hm : m.history.moments with
      | nil => simp [hm] at h
      | cons first rest => exact ⟨first, rest, rfl⟩
    obtain ⟨middle, hmiddle, hrest, hfirst⟩ := stepBack_of_cons hmoments
    have hnext : middle.history.moments[j]? = some moment := by
      rw [hrest]
      rw [hmoments] at h
      simpa using h
    obtain ⟨back, hback, hsecond⟩ := ih hnext
    refine ⟨back, ?_, hfirst.trans hsecond⟩
    rw [stepsBack, hmiddle]
    exact hback

/-! ## The history after a run -/

/-- The moments before those turns that got past the gate, latest first. -/
def recorded (turns : List Turn) : List Moment :=
  (turns.filter Turn.executed).reverse.map fun turn => turn.before.moment

/-- The first of a row of steps records its moment first, if it executes. -/
theorem recorded_turns_succ (n : Nat) (m : Machine) :
    recorded (turns (n + 1) m) =
      recorded (turns n m.step.1) ++ (if m.executes then [m.moment] else []) := by
  unfold recorded
  cases hexec : m.executes with
  | false => simp [turns, turn, Turn.executed, hexec]
  | true => simp [turns, turn, Turn.executed, hexec]

/-- After a run the history is what it was with the moments of the run recorded one by one. -/
theorem history_after (n : Nat) (m : Machine) :
    (after n m).history = m.history.recordAll (recorded (turns n m)) := by
  induction n generalizing m with
  | zero => rfl
  | succ n ih =>
    rw [after, ih, m.move_step.history_eq, recorded_turns_succ, History.recordAll_append]
    cases m.executes with
    | false => rfl
    | true => rfl

/-- After a row of steps, the history has their moments in front of the older ones, as far as there
is room. -/
theorem moments_after {m : Machine} (hon : m.history.isRecording = true)
    (hroom : m.history.length ≤ m.history.capacity) (n : Nat) :
    (after n m).history.moments =
      (recorded (turns n m) ++ m.history.moments).take m.history.capacity := by
  rw [history_after, History.recordAll_eq_of_room hon hroom]

/-- **Stepping back undoes stepping.**  Let a machine that records take any `n` steps, and let `ran`
be those of them that got past the gate.  Then the history has grown by as many moments as its
capacity allows, and for every `j` up to their number and the capacity, the `j`-th step back in a
row succeeds and brings the machine back to where it was before the `j`-th latest of them, cell by
cell of the same memory.  Without history there is no way back, and nothing is changed. -/
theorem stepsBack_after_turns (m : Machine) (n : Nat) (hon : m.history.isRecording = true)
    (hroom : m.history.length ≤ m.history.capacity) :
    let ran := (turns n m).filter Turn.executed
    (after n m).history.length = min (m.history.length + ran.length) m.history.capacity ∧
    (∀ j, 1 ≤ j → j ≤ min ran.length m.history.capacity → ∃ turn back,
      ran[ran.length - j]? = some turn ∧ turn.before.memory.size = (after n m).memory.size ∧
      stepsBack j (after n m) = .ok back ∧ Restores turn.before.moment (after n m) back) ∧
    ∀ idle : Machine, idle.history.length = 0 →
      idle.perform .stepBack = (idle, .refused .noHistory) := by
  intro ran
  have hmoments : (after n m).history.moments =
      (ran.reverse.map (fun turn => turn.before.moment) ++ m.history.moments).take
        m.history.capacity := moments_after hon hroom n
  refine ⟨?_, ?_, ?_⟩
  · rw [History.length, hmoments, History.length]
    simp only [List.length_take, List.length_append, List.length_map, List.length_reverse]
    omega
  · intro j hpos hj
    obtain ⟨i, rfl⟩ : ∃ i, j = i + 1 := ⟨j - 1, by omega⟩
    have hi : i < ran.length := by omega
    have hturn : ran[ran.length - (i + 1)]? = some ran[ran.length - (i + 1)] :=
      List.getElem?_eq_getElem (by omega)
    have hmoment : (after n m).history.moments[i]? =
        some ran[ran.length - (i + 1)].before.moment := by
      have hindex : ran.length - 1 - i = ran.length - (i + 1) := by omega
      have hfront : i < (ran.reverse.map fun turn => turn.before.moment).length := by
        simpa using hi
      rw [hmoments, List.getElem?_take_of_lt (by omega), List.getElem?_append_left hfront,
        List.getElem?_map, List.getElem?_reverse hi, hindex, hturn]
      rfl
    obtain ⟨back, hback, hrestores⟩ := restores_stepsBack hmoment
    obtain ⟨hlast, hbefore⟩ := frame_after n m
    have hmem : ran[ran.length - (i + 1)] ∈ turns n m :=
      (List.mem_filter.1 (List.getElem_mem _)).1
    exact ⟨_, back, hturn, Memory.size_of_frame ((hbefore _ hmem).trans hlast.symm), hback,
      hrestores⟩
  · intro idle hidle
    exact perform_stepBack_of_nil (List.eq_nil_of_length_eq_zero hidle)

/-- A machine with room for two moments whose program overwrites its own first word, pausing on
the way. -/
def selfModifying : Machine :=
  let m := (new { memorySize := .small, maxHistory := 2 }).loadWords [9, -2, 0, 7, 1]
  { m with breakpoints := Breakpoints.none.add 1 }

/-- A program that overwrites itself, with room for two moments and a pause on the way, is restored
two steps back. -/
theorem stepsBack_after_turns_selfModifying :
    selfModifying.history.isRecording = true ∧
    selfModifying.history.length ≤ selfModifying.history.capacity ∧
    (after 4 selfModifying).memory.cells[0]? = some 1 ∧
    (after 4 selfModifying).history.length = 2 ∧
    ∃ back, stepsBack 2 (after 4 selfModifying) = .ok back ∧
      back.registers = ⟨1, 1, 9⟩ ∧ back.memory.cells[0]? = some 9 ∧ back.state = .running := by
  have hon : selfModifying.history.isRecording = true := by decide
  have hroom : selfModifying.history.length ≤ selfModifying.history.capacity := by decide
  have hran : ((turns 4 selfModifying).filter Turn.executed).length = 3 := by decide +kernel
  have hpast : (((turns 4 selfModifying).filter Turn.executed)[1]?).map
      (fun turn => (turn.before.registers, turn.before.memory.cells[0]?)) =
        some (⟨1, 1, 9⟩, some 9) := by decide +kernel
  obtain ⟨hlength, hback, -⟩ := stepsBack_after_turns selfModifying 4 hon hroom
  obtain ⟨turn, back, hturn, -, hsteps, hrestores⟩ := hback 2 (by decide) (by rw [hran]; decide)
  rw [hran] at hlength hturn
  rw [hturn] at hpast
  obtain ⟨hregisters, hcell⟩ := Prod.mk.inj (Option.some.inj hpast)
  refine ⟨hon, hroom, by decide +kernel, hlength, back, hsteps, ?_, ?_, hrestores.state⟩
  · exact hrestores.registers.trans hregisters
  · rw [hrestores.cells]
    exact hcell

end Machine

end TernaryMachine
