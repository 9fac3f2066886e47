import TernaryMachine.Word

/-!
# History

A machine remembers what it looked like before each of its latest steps.  The history keeps at
most as many moments as its capacity: remembering one more lets the oldest go.  A history that
is turned off, or has no room, remembers nothing.

Moments are listed newest first, so `record` and `pop?` work at the front.  `moments_record`
says that recording is "in front, then cut to the capacity", and `head_record` that what was
recorded last stands first.
-/

set_option autoImplicit false

namespace TernaryMachine

/-- The registers of the machine. -/
structure Registers where
  /-- The accumulator. -/
  acc : Word := 0
  /-- The program counter: the address of the next instruction. -/
  pc : Nat := 0
  /-- The instruction register: the word fetched last. -/
  ir : Word := 0
  deriving DecidableEq, Repr, Inhabited

/-- What a machine looked like before a step. -/
structure Moment where
  registers : Registers
  cells : Array Word
  callStack : List Nat
  instructionCount : Nat
  deriving DecidableEq

/-- The latest moments of a run. -/
structure History where
  /-- The moments, newest first. -/
  moments : List Moment
  /-- The greatest number of moments kept. -/
  capacity : Nat
  /-- Whether the history is turned on. -/
  enabled : Bool
  deriving DecidableEq

namespace History

/-- A history without moments. -/
def fresh (capacity : Nat) (enabled : Bool) : History := ⟨[], capacity, enabled⟩

/-- Whether a moment would be kept. -/
def isRecording (h : History) : Bool := h.enabled && 0 < h.capacity

/-- The number of moments kept. -/
def length (h : History) : Nat := h.moments.length

/-- The history with one more moment; the oldest goes if there is no room for it. -/
def record (h : History) (moment : Moment) : History :=
  if h.isRecording then
    if h.length < h.capacity then { h with moments := moment :: h.moments }
    else { h with moments := (moment :: h.moments).take h.capacity }
  else h

/-- The newest moment and the history without it. -/
def pop? (h : History) : Option (Moment × History) :=
  match h.moments with
  | [] => none
  | moment :: rest => some (moment, { h with moments := rest })

/-- The oldest moment kept. -/
def oldest? (h : History) : Option Moment := h.moments.getLast?

/-- The history without moments. -/
def clear (h : History) : History := { h with moments := [] }

/-- Changes the capacity; the oldest moments that no longer fit go. -/
def setCapacity (h : History) (capacity : Nat) : History :=
  { h with moments := h.moments.take capacity, capacity := capacity }

/-- Turns the history on or off; turning it off forgets everything. -/
def setEnabled (h : History) (enabled : Bool) : History :=
  { h with enabled := enabled, moments := if enabled then h.moments else [] }

/-- A recorded moment is put in front, and the oldest has to go when there is no room for it. -/
theorem moments_record {h : History} (hrec : h.isRecording = true) (moment : Moment) :
    (h.record moment).moments = (moment :: h.moments).take h.capacity := by
  simp only [record, hrec, if_true]
  split
  · next hlt =>
    rw [List.take_of_length_le]
    simp only [length] at hlt
    simp only [List.length_cons]
    omega
  · rfl

/-- Recording a moment leaves the capacity. -/
@[simp]
theorem capacity_record (h : History) (moment : Moment) :
    (h.record moment).capacity = h.capacity := by
  unfold record
  split
  · split <;> rfl
  · rfl

/-- Recording a moment leaves the switch. -/
@[simp]
theorem enabled_record (h : History) (moment : Moment) :
    (h.record moment).enabled = h.enabled := by
  unfold record
  split
  · split <;> rfl
  · rfl

/-- A history that does not record stays as it is. -/
theorem record_of_not_recording {h : History} (hrec : h.isRecording = false) (moment : Moment) :
    h.record moment = h := by
  simp [record, hrec]

/-- The moment recorded last is the newest one. -/
theorem head_record {h : History} (hrec : h.isRecording = true) (moment : Moment) :
    (h.record moment).moments.head? = some moment := by
  rw [moments_record hrec]
  have hpos : 0 < h.capacity := by
    simp only [isRecording, Bool.and_eq_true, decide_eq_true_eq] at hrec
    exact hrec.2
  obtain ⟨k, hk⟩ : ∃ k, h.capacity = k + 1 := ⟨h.capacity - 1, by omega⟩
  simp [hk]

end History

end TernaryMachine
