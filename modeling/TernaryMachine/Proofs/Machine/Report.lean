import Mathlib.Data.List.Basic
import TernaryMachine.Proofs.Machine.Landing
import TernaryMachine.Proofs.Machine.Operation
import TernaryMachine.Proofs.Machine.Turns

/-!
# What observers are told

A turn decides by its result what observers are told of it (`Turn.events`), and all observers are
told the same (`Move.observers_eq`).  `Reports` ties the three together: the result of a step, the
state that it leaves and the events.  At most one of the events of a step is a fault or a stop, and
there is one just if the step ended the run.

From single steps it goes to any sequence of operations.  A log can be emptied on the way, so what
is compared is all that was ever read from it (`collected`), and that is what the operations told
one after the other (`collected_eq`).  `reports_agree` is the whole of it.
-/

set_option autoImplicit false

namespace TernaryMachine

/-- The text that an event comes with, if it comes with one. -/
def Event.text? : Event → Option String
  | .stateChange _ _ => none
  | .fault f => some f.message
  | .halt reason => some reason.message

/-- Whether an event tells of the end of a run, for which there is a text. -/
def Event.isEnd (event : Event) : Bool := event.text?.isSome

namespace Observer

/-- An observer after it was told several events. -/
def hear (events : List Event) (observer : Observer) : Observer :=
  events.foldl (fun observer event => observer.tell event) observer

/-- Events are heard one row after the other. -/
theorem hear_append (first second : List Event) :
    hear (first ++ second) = hear second ∘ hear first := by
  funext observer
  exact List.foldl_append

/-- A log has the events that it heard in front, latest first. -/
theorem hear_log (events latest : List Event) :
    hear events (.log latest) = .log (events.reverse ++ latest) := by
  induction events generalizing latest with
  | nil => rfl
  | cons event rest ih =>
    have hrest : hear (event :: rest) (.log latest) = hear rest (.log (event :: latest)) := rfl
    rw [hrest, ih, List.reverse_cons, List.append_assoc]
    rfl

end Observer

namespace Machine

/-- The event that tells where a machine is. -/
def position (m : Machine) : Event := .stateChange m.registers.pc m.registers.acc

/-- Hearing of no events changes nothing. -/
theorem map_hear_nil (m : Machine) : m.observers.map (Observer.hear []) = m.observers :=
  List.map_id _

end Machine

/-! ## One step -/

/-- What observers are told of a turn. -/
def Turn.events (turn : Turn) : List Event :=
  match turn.result with
  | .error (.notRunning _) => []
  | .error f => [.fault f]
  | .ok .continued => [turn.after.position]
  | .ok (.halted reason) =>
    if turn.executed then [turn.after.position, .halt reason] else [.halt reason]

/-- The event with which a run ends at a turn, if it ends there: a step that is refused since the
machine is halted already does not end anything. -/
def Turn.ending (turn : Turn) : Option Event :=
  match turn.result with
  | .error (.notRunning _) => none
  | .error f => some (.fault f)
  | .ok .continued => none
  | .ok (.halted reason) => some (.halt reason)

/-- Of the events of a turn just one tells of an end if the turn is one, and otherwise none. -/
theorem Turn.filter_events (turn : Turn) :
    turn.events.filter Event.isEnd = turn.ending.toList := by
  unfold events ending
  split
  · rfl
  · rfl
  · rfl
  · split <;> rfl

namespace Machine

variable {m m' : Machine} {result : Except Fault Outcome}

/-- Observers are told of a fault inside an instruction and of nothing else. -/
theorem events_of_raises {maxDepth : Nat} {f : Fault} (h : Core.Raises maxDepth f)
    (m m' : Machine) : Turn.events ⟨m, m', .error f⟩ = [.fault f] := by
  cases h with
  | callStackOverflow => rfl
  | emptyCallStack => rfl
  | protectedCell a => rfl

/-- No fault inside an instruction reads like the refusal of a halted machine. -/
theorem ne_notRunning_of_raises {maxDepth : Nat} {f : Fault} (h : Core.Raises maxDepth f)
    (state : RunState) : f ≠ .notRunning state := by
  rintro rfl
  cases h

/-- Of an instruction that ends a run, observers are told where it led, then why the run ends. -/
theorem events_of_executes {reason : HaltReason} (h : m.executes = true) :
    Turn.events ⟨m, m', .ok (.halted reason)⟩ = [m'.position, .halt reason] :=
  if_pos h

/-- Of a stop without an instruction, observers are told only why. -/
theorem events_of_not_executes {reason : HaltReason} (h : m.executes = false) :
    Turn.events ⟨m, m', .ok (.halted reason)⟩ = [.halt reason] :=
  if_neg (Bool.eq_false_iff.1 h)

/-- Every observer is told the events of the turn, in their order. -/
theorem Move.observers_eq (h : m.Move m' result) :
    m'.observers = m.observers.map (Observer.hear (Turn.events ⟨m, m', result⟩)) := by
  cases h with
  | refused _ => exact m.map_hear_nil.symm
  | exhausted _ => rfl
  | pause hgate =>
    have hstay : m.executes = false := by simp only [executes, hgate]
    rw [events_of_not_executes hstay]
    rfl
  | outside hgate =>
    have hstay : m.executes = false := by simp only [executes, hgate]
    rw [events_of_not_executes hstay]
    rfl
  | fault _ hexec =>
    rw [events_of_raises (Core.execution_of_eq hexec).raises]
    rfl
  | stop hgate _ _ =>
    rw [events_of_executes (executes_of_gate hgate)]
    exact List.map_map
  | go _ _ _ => rfl

/-- How the result of a step, the state that it leaves and the events told of it belong
together. -/
inductive Reports (m m' : Machine) : Except Fault Outcome → List Event → Prop where
  | refused {state : RunState} (hstate : m.state = .halted) (hsame : m' = m) :
      Reports m m' (.error (.notRunning state)) []
  | fault {f : Fault} (hf : ∀ state, f ≠ .notRunning state) (hstate : m'.state = .halted) :
      Reports m m' (.error f) [.fault f]
  | breakpoint {a : Nat} (hstay : m.executes = false) (hstate : m'.state = .paused) :
      Reports m m' (.ok (.halted (.breakpoint a))) [.halt (.breakpoint a)]
  | outside {pc : Nat} (hstay : m.executes = false) (hstate : m'.state = .halted) :
      Reports m m' (.ok (.halted (.pcOutOfBounds pc))) [.halt (.pcOutOfBounds pc)]
  | condition {c : Condition} (hrun : m.executes = true) (hstate : m'.state = .paused) :
      Reports m m' (.ok (.halted (.condition c))) [m'.position, .halt (.condition c)]
  | stopped {reason : HaltReason} (hrun : m.executes = true)
      (hreason : reason = .haltInstruction ∨ reason = .endOfMemory) (hstate : m'.state = .halted) :
      Reports m m' (.ok (.halted reason)) [m'.position, .halt reason]
  | continued (hrun : m.executes = true) (hstate : m'.state = .running) :
      Reports m m' (.ok .continued) [m'.position]

/-- What a move comes to, the state that it leaves and its events belong together. -/
theorem Move.reports (h : m.Move m' result) :
    m.Reports m' result (Turn.events ⟨m, m', result⟩) := by
  cases h with
  | refused hgate => exact .refused (state_of_refused hgate) rfl
  | exhausted _ => exact .fault nofun rfl
  | pause hgate =>
    have hstay : m.executes = false := by simp only [executes, hgate]
    rw [events_of_not_executes hstay]
    exact .breakpoint hstay rfl
  | outside hgate =>
    have hstay : m.executes = false := by simp only [executes, hgate]
    rw [events_of_not_executes hstay]
    exact .outside hstay rfl
  | fault _ hexec =>
    have hraises := (Core.execution_of_eq hexec).raises
    rw [events_of_raises hraises]
    exact .fault (ne_notRunning_of_raises hraises) rfl
  | @stop word core flow reason hgate _ hreason =>
    have hrun : m.executes = true := executes_of_gate hgate
    have hending := ((m.fetch word).complete core flow).ending flow
    rw [events_of_executes hrun]
    rw [hreason] at hending
    cases hending with
    | halt => exact .stopped hrun (.inl rfl) rfl
    | endOfMemory => exact .stopped hrun (.inr rfl) rfl
    | outside _ => exact .stopped hrun (.inr rfl) rfl
    | condition _ _ => exact .condition hrun rfl
  | go hgate _ _ => exact .continued (executes_of_gate hgate) rfl

/-- What is told with a text is told with the text of the result. -/
theorem Reports.text_eq {events : List Event} (h : m.Reports m' result events) {event : Event}
    (hevent : event ∈ events) {text : String} (htext : event.text? = some text) :
    (∃ f, result = .error f ∧ text = f.message) ∨
      ∃ reason, result = .ok (.halted reason) ∧ text = reason.message := by
  have hhalt : ∀ {reason : HaltReason}, event = .halt reason → text = reason.message := by
    rintro reason rfl
    exact (Option.some.inj htext).symm
  have hnot : event ≠ m'.position := by
    rintro rfl
    cases htext
  cases h with
  | refused _ _ => cases hevent
  | fault _ _ =>
    cases List.mem_singleton.1 hevent
    exact .inl ⟨_, rfl, (Option.some.inj htext).symm⟩
  | breakpoint _ _ => exact .inr ⟨_, rfl, hhalt (List.mem_singleton.1 hevent)⟩
  | outside _ _ => exact .inr ⟨_, rfl, hhalt (List.mem_singleton.1 hevent)⟩
  | condition _ _ =>
    have hlast := (List.mem_cons.1 hevent).resolve_left hnot
    exact .inr ⟨_, rfl, hhalt (List.mem_singleton.1 hlast)⟩
  | stopped _ _ _ =>
    have hlast := (List.mem_cons.1 hevent).resolve_left hnot
    exact .inr ⟨_, rfl, hhalt (List.mem_singleton.1 hlast)⟩
  | continued _ _ => exact absurd (List.mem_singleton.1 hevent) hnot

/-! ## Runs -/

/-- Every observer hears the events of a step. -/
theorem observers_step (m : Machine) :
    m.step.1.observers = m.observers.map (Observer.hear m.turn.events) :=
  m.move_step.observers_eq

/-- Every observer hears the events of a row of steps. -/
theorem observers_after (n : Nat) (m : Machine) :
    (after n m).observers =
      m.observers.map (Observer.hear ((turns n m).flatMap Turn.events)) := by
  induction n generalizing m with
  | zero => exact m.map_hear_nil.symm
  | succ n ih =>
    have hrest : (after (n + 1) m).observers =
        m.step.1.observers.map (Observer.hear ((turns n m.step.1).flatMap Turn.events)) :=
      ih m.step.1
    rw [hrest, observers_step, List.map_map, ← Observer.hear_append]
    rfl

/-! ## Operations -/

/-- The turns that an operation takes. -/
def turnsIn (m : Machine) : Operation → List Turn
  | .step => [m.turn]
  | .run budget => turns (runLength budget m) m
  | _ => []

/-- What observers are told during an operation. -/
def told (m : Machine) : Operation → List Event
  | .stepBack =>
    match m.stepBack with
    | .ok back => [back.position]
    | .error _ => []
  | operation => (m.turnsIn operation).flatMap Turn.events

/-- The turns of a sequence of operations. -/
def turnsAll : Machine → List Operation → List Turn
  | _, [] => []
  | m, operation :: rest => m.turnsIn operation ++ turnsAll (m.perform operation).1 rest

/-- What observers are told during a sequence of operations. -/
def toldAll : Machine → List Operation → List Event
  | _, [] => []
  | m, operation :: rest => m.told operation ++ toldAll (m.perform operation).1 rest

/-- What stands in the log of an observer, oldest first. -/
def logged (m : Machine) (i : Nat) : List Event :=
  (m.observers[i]?.bind Observer.events?).getD []

/-- All that is read from the log of an observer: what stands in it whenever it is emptied, and in
the end. -/
def collected (i : Nat) : Machine → List Operation → List Event
  | m, [] => m.logged i
  | m, operation :: rest =>
    (if operation = .drainLogs then m.logged i else []) ++ collected i (m.perform operation).1 rest

variable {i : Nat} {latest : List Event}

/-- What stands in a log is its events, oldest first. -/
theorem logged_of_log (h : m.observers[i]? = some (.log latest)) : m.logged i = latest.reverse := by
  simp only [logged, h]
  rfl

/-- Of a step back, observers are told where it led. -/
theorem observers_stepBack {back : Machine} (h : m.stepBack = .ok back) :
    back.observers = m.observers.map (Observer.hear [back.position]) := by
  cases retreat_of_stepBack h
  rfl

/-- Loading a program text tells observers nothing. -/
theorem observers_loadProgram (m : Machine) (text : String) :
    (m.loadProgram text).1.observers = m.observers := by
  unfold loadProgram
  split <;> rfl

/-- Changing the size tells observers nothing. -/
theorem observers_perform_resize (m : Machine) (size : MemorySize) :
    (m.perform (.resize size)).1.observers = m.observers := by
  simp only [perform, resize]
  by_cases hstate : m.state = .running
  · rw [if_pos hstate]
  · rw [if_neg hstate]
    rfl

/-- An operation tells the log of an observer what it tells, and the observer stays at its place,
unless the operation is to empty the logs. -/
theorem getElem?_perform (operation : Operation) (hdrain : operation ≠ .drainLogs)
    (h : m.observers[i]? = some (.log latest)) :
    (m.perform operation).1.observers[i]? =
      some (.log ((m.told operation).reverse ++ latest)) := by
  have hhear : ∀ {m' : Machine} {events : List Event},
      m'.observers = m.observers.map (Observer.hear events) →
        m'.observers[i]? = some (.log (events.reverse ++ latest)) := by
    intro m' events hobservers
    rw [hobservers, List.getElem?_map, h, ← Observer.hear_log]
    rfl
  have hsame : ∀ {m' : Machine}, m'.observers = m.observers →
      m'.observers[i]? = some (.log latest) := by
    intro m' hobservers
    rw [hobservers, h]
  cases operation with
  | step =>
    have htold : m.told .step = m.turn.events := List.append_nil _
    rw [htold]
    exact hhear m.observers_step
  | run budget =>
    have hrun : (m.perform (.run budget)).1 = after (runLength budget m) m := m.run_eq_after budget
    rw [hrun]
    exact hhear (observers_after _ m)
  | stepBack =>
    cases hback : m.stepBack with
    | ok back =>
      simp only [perform, told, hback]
      exact hhear (observers_stepBack hback)
    | error refusal =>
      simp only [perform, told, hback]
      exact h
  | loadProgram text =>
    rw [perform_loadProgram_fst]
    exact hsame (m.observers_loadProgram text)
  | resize size => exact hsame (m.observers_perform_resize size)
  | attach observer =>
    obtain ⟨hlt, -⟩ := List.getElem?_eq_some_iff.1 h
    have hfront : (m.observers ++ [observer])[i]? = m.observers[i]? :=
      List.getElem?_append_left hlt
    exact hfront.trans h
  | drainLogs => exact absurd rfl hdrain
  | _ => exact h

/-- All that is read from a log is what stood in it at first and then what the operations told. -/
theorem collected_eq (operations : List Operation) (h : m.observers[i]? = some (.log latest)) :
    m.collected i operations = latest.reverse ++ m.toldAll operations := by
  induction operations generalizing m latest with
  | nil => rw [collected, logged_of_log h, toldAll, List.append_nil]
  | cons operation rest ih =>
    rw [collected, toldAll]
    by_cases hdrain : operation = .drainLogs
    -- What stood in the log is read here, and the log begins anew.
    · subst hdrain
      have hempty : (m.perform .drainLogs).1.observers[i]? = some (.log []) := by
        simp only [perform, drainLogs, List.getElem?_map, h]
        rfl
      rw [if_pos rfl, logged_of_log h, ih hempty]
      rfl
    · rw [if_neg hdrain, ih (getElem?_perform operation hdrain h), List.reverse_append,
        List.reverse_reverse, List.append_assoc, List.nil_append]

example :
    ((new {}).attach (.log [])).collected 0 [.loadWords [9, 0], .run 10, .drainLogs, .step] =
      [.stateChange 1 1, .stateChange 1 1, .halt .haltInstruction] := by
  decide +kernel

/-- Told over a sequence of operations: one event of an end for every turn that ends a run, in the
order of the turns, and no other. -/
theorem filter_toldAll (m : Machine) (operations : List Operation) :
    (m.toldAll operations).filter Event.isEnd =
      (m.turnsAll operations).filterMap Turn.ending := by
  have hturns : ∀ turns : List Turn,
      (turns.flatMap Turn.events).filter Event.isEnd = turns.filterMap Turn.ending := by
    intro turns
    rw [List.filter_flatMap, List.filterMap_eq_flatMap_toList]
    exact List.flatMap_congr fun turn _ => turn.filter_events
  induction operations generalizing m with
  | nil => rfl
  | cons operation rest ih =>
    rw [toldAll, turnsAll, List.filter_append, List.filterMap_append, ih]
    congr 1
    cases operation with
    | stepBack =>
      simp only [told]
      split <;> rfl
    | _ => exact hturns _

/-- Result, state and events of every step belong together, and every observer is told the same
events.  A step back tells where it leads, unless it is refused, and a reset, a load and a change of
size tell nothing.  So whatever is done with a machine, all that is read from a log is what was told
step by step, and the faults and stops in it are those of the turns that ended a run, one each. -/
theorem reports_agree (m : Machine) (operations : List Operation) :
    (m.step.1.observers = m.observers.map (Observer.hear m.turn.events) ∧
      m.Reports m.step.1 m.step.2 m.turn.events ∧
      ∀ event ∈ m.turn.events, ∀ text, event.text? = some text →
        (∃ f, m.step.2 = .error f ∧ text = f.message) ∨
          ∃ reason, m.step.2 = .ok (.halted reason) ∧ text = reason.message) ∧
    (match m.stepBack with
      | .ok back => back.observers = m.observers.map (Observer.hear [back.position])
      | .error refusal => m.perform .stepBack = (m, .refused refusal)) ∧
    (m.reset.observers = m.observers ∧
      (∀ words, (m.loadWords words).observers = m.observers) ∧
      (∀ text, (m.loadProgram text).1.observers = m.observers) ∧
      ∀ size, (m.perform (.resize size)).1.observers = m.observers) ∧
    ∀ i latest, m.observers[i]? = some (.log latest) →
      m.collected i operations = latest.reverse ++ m.toldAll operations ∧
      (m.collected i operations).filter Event.isEnd =
        latest.reverse.filter Event.isEnd ++ (m.turnsAll operations).filterMap Turn.ending := by
  have hreports : m.Reports m.step.1 m.step.2 m.turn.events := m.move_step.reports
  refine ⟨⟨m.observers_step, hreports, ?_⟩, ?_,
    ⟨rfl, fun _ => rfl, m.observers_loadProgram, m.observers_perform_resize⟩, ?_⟩
  · intro event hevent text htext
    exact hreports.text_eq hevent htext
  · split
    · next back hback => exact observers_stepBack hback
    · next refusal hback => simp only [perform, hback]
  · intro i latest h
    have hcollected := collected_eq operations h
    refine ⟨hcollected, ?_⟩
    rw [hcollected, List.filter_append, filter_toldAll]

end Machine

end TernaryMachine
