import TernaryMachine.Proofs.Machine.Failure
import TernaryMachine.Proofs.Machine.Undo

/-!
# The history beside an undo stack without bound

Think of a stack that forgets nothing.  Whatever the history takes in is pushed onto it, whatever
the history gives back is popped from it, and it is emptied where the history is emptied on purpose,
by clearing it or turning it off.  The history is the top of that stack (`TopOf`), and the part of
it that is missing was let go for want of room.

A full history is one whose length equals its capacity: `recordFull` asks for that equality, and
would go on growing beyond a capacity that had once been passed.  No operation passes it
(`TopOf.bounded`), so there the history records in the same way (`record_eq_recordFull`).
-/

set_option autoImplicit false

namespace TernaryMachine

/-- What may be asked of a history. -/
inductive HistoryOperation where
  | record (moment : Moment)
  | pop
  | setCapacity (capacity : Nat)
  | setEnabled (on : Bool)
  | clear
  deriving DecidableEq

namespace History

/-- A history after one operation. -/
def perform (h : History) : HistoryOperation → History
  | .record moment => h.record moment
  | .pop =>
    match h.pop? with
    | some (_, rest) => rest
    | none => h
  | .setCapacity capacity => h.setCapacity capacity
  | .setEnabled on => h.setEnabled on
  | .clear => h.clear

/-- A history after a row of operations. -/
def performAll (h : History) (operations : List HistoryOperation) : History :=
  operations.foldl perform h

/-- The stack beside a history, its top first, after the history has been asked for an operation. -/
def stackAfter (h : History) (stack : List Moment) : HistoryOperation → List Moment
  | .record moment => if h.isRecording then moment :: stack else stack
  | .pop => if h.pop?.isSome then stack.tail else stack
  | .setCapacity _ => stack
  | .setEnabled on => if on then stack else []
  | .clear => []

/-- The stack beside a history after a row of operations. -/
def stackAll (h : History) (stack : List Moment) : List HistoryOperation → List Moment
  | [] => stack
  | operation :: rest => (h.perform operation).stackAll (h.stackAfter stack operation) rest

/-- Records a moment; a history with as many moments as its capacity lets the oldest go. -/
def recordFull (h : History) (moment : Moment) : History :=
  if h.isRecording then
    { h with
      moments := moment :: if h.length = h.capacity then h.moments.dropLast else h.moments }
  else h

variable {h : History} {stack : List Moment}

/-- Dropping the oldest moment only in a history that is exactly full comes to the same while the
history is within its capacity. -/
theorem record_eq_recordFull (hroom : h.length ≤ h.capacity) (moment : Moment) :
    h.record moment = h.recordFull moment := by
  have hgains := h.gains_record moment
  unfold recordFull
  by_cases hon : h.isRecording = true
  · have hmoments : (h.record moment).moments =
        moment :: if h.length = h.capacity then h.moments.dropLast else h.moments := by
      by_cases hfull : h.length = h.capacity
      · rw [if_pos hfull]
        exact hgains.full hon hfull
      · rw [if_neg hfull]
        exact hgains.room hon (Nat.lt_of_le_of_ne hroom hfull)
    rw [if_pos hon, ← hmoments, record_eq hon]
  · rw [if_neg hon]
    exact record_of_not_recording (Bool.eq_false_iff.2 hon) moment

/-! ## The top of the stack -/

/-- The moments of a history are the top of a stack, no more of it than the capacity allows, and
nothing while the history does not record. -/
structure TopOf (stack : List Moment) (h : History) : Prop where
  moments : h.moments <+: stack
  bounded : h.length ≤ h.capacity
  idle : h.isRecording = false → h.moments = []

namespace TopOf

/-- A history without moments is the top of any stack. -/
theorem of_nil (hnil : h.moments = []) (stack : List Moment) : TopOf stack h where
  moments := by
    rw [hnil]
    exact List.nil_prefix
  bounded := by
    rw [length, hnil]
    exact Nat.zero_le _
  idle _ := hnil

/-- What is recorded is pushed. -/
theorem record (htop : TopOf stack h) (moment : Moment) :
    TopOf (h.stackAfter stack (.record moment)) (h.record moment) := by
  show TopOf (if h.isRecording then moment :: stack else stack) (h.record moment)
  by_cases hon : h.isRecording = true
  · rw [if_pos hon]
    have hmoments := moments_record hon moment
    refine ⟨?_, ?_, ?_⟩
    · rw [hmoments]
      exact (List.take_prefix _ _).trans ((List.prefix_cons_inj moment).2 htop.moments)
    · rw [length, hmoments, capacity_record]
      exact List.length_take_le _ _
    · intro hoff
      have hstill : (h.record moment).isRecording = h.isRecording := by
        rw [isRecording, enabled_record, capacity_record, isRecording]
      rw [hstill, hon] at hoff
      cases hoff
  · rw [if_neg hon, record_of_not_recording (Bool.eq_false_iff.2 hon)]
    exact htop

/-- What is given back is what the stack has on top. -/
theorem head?_of_cons (htop : TopOf stack h) {newest : Moment} {older : List Moment}
    (hmoments : h.moments = newest :: older) :
    ∃ rest, stack = newest :: rest ∧ older <+: rest := by
  obtain ⟨below, hstack⟩ := htop.moments
  rw [hmoments, List.cons_append] at hstack
  exact ⟨older ++ below, hstack.symm, List.prefix_append older below⟩

/-- Popping a moment keeps a history the top of its stack. -/
theorem pop (htop : TopOf stack h) : TopOf (h.stackAfter stack .pop) (h.perform .pop) := by
  cases hmoments : h.moments with
  | nil =>
    have hpop : h.pop? = none := by simp only [pop?, hmoments]
    simp only [stackAfter, perform, hpop, Option.isSome_none, Bool.false_eq_true, if_false]
    exact htop
  | cons newest older =>
    have hpop : h.pop? = some (newest, { h with moments := older }) := by
      simp only [pop?, hmoments]
    obtain ⟨rest, hstack, hrest⟩ := htop.head?_of_cons hmoments
    have hbounded := htop.bounded
    rw [length, hmoments, List.length_cons] at hbounded
    simp only [stackAfter, perform, hpop, Option.isSome_some, if_true, hstack, List.tail_cons]
    refine ⟨hrest, ?_, ?_⟩
    · show older.length ≤ h.capacity
      omega
    · intro hoff
      rw [htop.idle hoff] at hmoments
      cases hmoments

/-- A smaller history is still the top of the stack. -/
theorem setCapacity (htop : TopOf stack h) (capacity : Nat) :
    TopOf stack (h.setCapacity capacity) where
  moments := (List.take_prefix capacity h.moments).trans htop.moments
  bounded := List.length_take_le _ _
  idle := by
    intro hoff
    show h.moments.take capacity = []
    by_cases hon : h.isRecording = true
    · -- A history that recorded so far stops only if no capacity is left.
      have henabled : h.enabled = true := (Bool.and_eq_true_iff.1 hon).1
      have hzero : capacity = 0 := by
        simp only [isRecording, History.setCapacity, henabled, Bool.true_and,
          decide_eq_false_iff_not] at hoff
        omega
      rw [hzero, List.take_zero]
    · rw [htop.idle (Bool.eq_false_iff.2 hon), List.take_nil]

/-- Switching a history off or on keeps it the top of its stack. -/
theorem setEnabled (htop : TopOf stack h) (on : Bool) :
    TopOf (h.stackAfter stack (.setEnabled on)) (h.setEnabled on) := by
  cases on with
  | false => exact of_nil rfl _
  | true =>
    refine ⟨htop.moments, htop.bounded, ?_⟩
    intro hoff
    apply htop.idle
    simp only [isRecording, History.setEnabled, Bool.true_and] at hoff
    simp only [isRecording, hoff, Bool.and_false]

/-- Every operation leaves the history the top of the stack beside it. -/
theorem perform (htop : TopOf stack h) (operation : HistoryOperation) :
    TopOf (h.stackAfter stack operation) (h.perform operation) := by
  cases operation with
  | record moment => exact htop.record moment
  | pop => exact htop.pop
  | setCapacity capacity => exact htop.setCapacity capacity
  | setEnabled on => exact htop.setEnabled on
  | clear => exact of_nil rfl _

/-- Whatever operations are done, a history is the top of its stack. -/
theorem performAll (htop : TopOf stack h) (operations : List HistoryOperation) :
    TopOf (h.stackAll stack operations) (h.performAll operations) := by
  induction operations generalizing h stack with
  | nil => exact htop
  | cons operation rest ih => exact ih (htop.perform operation)

/-- A pop gives back the top of the stack, unless nothing is left of it in the history. -/
theorem map_fst_pop? (htop : TopOf stack h) :
    h.pop?.map Prod.fst = if h.length = 0 then none else stack.head? := by
  cases hmoments : h.moments with
  | nil => simp only [pop?, length, hmoments, List.length_nil, Option.map_none, if_true]
  | cons newest older =>
    obtain ⟨rest, hstack, -⟩ := htop.head?_of_cons hmoments
    simp only [pop?, length, hmoments, hstack, List.length_cons, Nat.succ_ne_zero, if_false,
      Option.map_some, List.head?_cons]

/-- A moment is let go only if with the new one there would be more than the capacity. -/
theorem moments_record_eq (htop : TopOf stack h) (hon : h.isRecording = true) (moment : Moment) :
    (h.record moment).moments = moment ::
      if h.length + 1 ≤ h.capacity then h.moments else h.moments.dropLast := by
  have hbounded := htop.bounded
  rw [record_eq_recordFull hbounded, recordFull, if_pos hon]
  show moment :: _ = _
  by_cases hfull : h.length = h.capacity
  · have hover : ¬ h.length + 1 ≤ h.capacity := by omega
    rw [if_pos hfull, if_neg hover]
  · have hfits : h.length + 1 ≤ h.capacity := by omega
    rw [if_neg hfull, if_pos hfits]

end TopOf

/-- A new capacity cuts a history down to it. -/
theorem length_setCapacity (h : History) (capacity : Nat) :
    (h.setCapacity capacity).length = min h.length capacity := by
  rw [length, setCapacity, List.length_take, Nat.min_comm, length]

/-- **A history is a suffix of an undo stack without bound.**  Run a row of operations on a history
and beside it on a stack that forgets nothing.  From the oldest moment to the newest, the history is
then the end of the stack, with no more moments than its capacity.  A pop gives back the top of the
stack.  Another capacity keeps as many of the newest moments as it has room for, and a moment that
is recorded drives the oldest out only if the capacity would be passed, which is to ask whether the
length equals it.  A history that does not record is empty and stays as it is. -/
theorem suffix_of_undo_stack (capacity : Nat) (enabled : Bool)
    (operations : List HistoryOperation) :
    let h := (fresh capacity enabled).performAll operations
    let stack := (fresh capacity enabled).stackAll [] operations
    h.moments.reverse <:+ stack.reverse ∧
    h.length ≤ h.capacity ∧
    h.pop?.map Prod.fst = (if h.length = 0 then none else stack.head?) ∧
    (∀ room, (h.setCapacity room).moments <+: h.moments ∧
      (h.setCapacity room).length = min h.length room) ∧
    (∀ moment, h.isRecording = true → (h.record moment).moments = moment ::
      if h.length + 1 ≤ h.capacity then h.moments else h.moments.dropLast) ∧
    (∀ moment, h.record moment = h.recordFull moment) ∧
    (h.isRecording = false → h.length = 0 ∧ ∀ moment, h.record moment = h) := by
  intro h stack
  have hfresh : TopOf [] (fresh capacity enabled) := .of_nil rfl []
  have htop : TopOf stack h := hfresh.performAll operations
  refine ⟨List.reverse_suffix.2 htop.moments, htop.bounded, htop.map_fst_pop?, ?_, ?_, ?_, ?_⟩
  · intro room
    exact ⟨List.take_prefix room h.moments, h.length_setCapacity room⟩
  · intro moment hon
    exact htop.moments_record_eq hon moment
  · exact record_eq_recordFull htop.bounded
  · intro hoff
    exact ⟨List.length_eq_zero_iff.2 (htop.idle hoff), record_of_not_recording hoff⟩

/-- A moment with a number. -/
def numbered (n : Nat) : Moment := ⟨{ pc := n }, #[], [], n⟩

/-- A history that lost moments to a third one and to a smaller capacity goes on above the stack's
rest. -/
theorem suffix_of_undo_stack_shrunk :
    let operations : List HistoryOperation :=
      [.record (numbered 1), .record (numbered 2), .record (numbered 3), .setCapacity 1,
        .setCapacity 2, .pop, .record (numbered 4)]
    let h := (fresh 2 true).performAll operations
    h.isRecording = true ∧ (fresh 2 true).stackAll [] operations =
        [numbered 4, numbered 2, numbered 1] ∧
      [numbered 4] <:+ [numbered 1, numbered 2, numbered 4] ∧
      h.pop?.map Prod.fst = some (numbered 4) ∧
      (h.record (numbered 5)).moments = [numbered 5, numbered 4] := by
  intro operations h
  have hstack : (fresh 2 true).stackAll [] operations =
      [numbered 4, numbered 2, numbered 1] := by decide +kernel
  have hmoments : h.moments = [numbered 4] := by decide +kernel
  have hon : h.isRecording = true := by decide +kernel
  obtain ⟨hsuffix, -, hpop, -, hrecord, -, -⟩ := suffix_of_undo_stack 2 true operations
  rw [hstack] at hsuffix hpop
  refine ⟨hon, hstack, ?_, ?_, ?_⟩
  · rw [hmoments] at hsuffix
    exact hsuffix
  · exact hpop.trans (if_neg (by decide +kernel))
  · exact (hrecord (numbered 5) hon).trans (by decide +kernel)

end History

end TernaryMachine
