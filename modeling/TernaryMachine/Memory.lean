import TernaryMachine.AddressSet
import TernaryMachine.Word

/-!
# Memory

Memory is a row of words with a set of protected addresses and an access counter per cell.
Only `load` and `store` count an access, and only while tracking is on; only `store` respects
protection.  An operation that fails gives back no memory, so a failure changes nothing.

Counters are natural numbers, where a device has 64 bits for each.  The two differ from the
`2 ^ 64`th access to one cell on, and a step makes two accesses at most.

The lemmas at the end say what each operation does to the cells, the protected addresses and
the counters.
-/

set_option autoImplicit false

namespace TernaryMachine

/-- The sizes that memory comes in. -/
inductive MemorySize where
  | small
  | medium
  | large
  deriving DecidableEq, Repr

/-- What a memory operation refuses. -/
inductive MemoryError where
  | outOfRange (address : Nat)
  | protectedCell (address : Nat)
  | unsupportedSize (words : Nat)
  deriving DecidableEq, Repr

/-- The wording of a memory error. -/
def MemoryError.message : MemoryError → String
  | outOfRange address => "memory address " ++ address.repr ++ " out of range"
  | protectedCell address => "memory protection violation at address " ++ address.repr
  | unsupportedSize words =>
    "unsupported memory size " ++ words.repr ++ " (expected 27, 81 or 243)"

namespace MemorySize

/-- The number of words. -/
def words : MemorySize → Nat
  | small => 27
  | medium => 81
  | large => 243

/-- The size with the given number of words. -/
def ofWords (n : Nat) : Except MemoryError MemorySize :=
  if n = 27 then .ok small
  else if n = 81 then .ok medium
  else if n = 243 then .ok large
  else .error (.unsupportedSize n)

/-- A memory size is found by its number of words. -/
@[simp]
theorem ofWords_words (size : MemorySize) : ofWords size.words = .ok size := by
  cases size <;> rfl

/-- A memory has at least one word. -/
theorem words_pos (size : MemorySize) : 0 < size.words := by
  cases size <;> decide

end MemorySize

/-- The memory of a machine. -/
structure Memory where
  /-- The words, lowest address first. -/
  cells : Array Word
  /-- The addresses that `store` refuses. -/
  guarded : AddressSet
  /-- The number of counted accesses to each cell, without an end to counting. -/
  counts : Array Nat
  /-- Whether accesses are counted. -/
  tracking : Bool
  deriving DecidableEq

namespace Memory

/-- Memory of zeros, unprotected and not tracked. -/
def fresh (size : MemorySize) : Memory where
  cells := Array.replicate size.words 0
  guarded := .empty
  counts := Array.replicate size.words 0
  tracking := false

/-- The number of cells. -/
def size (m : Memory) : Nat := m.cells.size

/-- The address that a word denotes, if there is such a cell. -/
def address? (m : Memory) (w : Word) : Option Nat :=
  if 0 ≤ w.toInt ∧ w.toInt.toNat < m.size then some w.toInt.toNat else none

/-- The word at an address; looking at it is no access. -/
def peek? (m : Memory) (a : Nat) : Option Word := m.cells[a]?

/-- Memory after an access to a cell. -/
def touch (m : Memory) (a : Nat) : Memory :=
  if m.tracking then { m with counts := m.counts.modify a (· + 1) } else m

/-- Reads a cell as data. -/
def load (m : Memory) (a : Nat) : Except MemoryError (Word × Memory) :=
  match m.peek? a with
  | none => .error (.outOfRange a)
  | some w => .ok (w, m.touch a)

/-- Memory with another word in a cell, whether the cell is protected or not. -/
def write (m : Memory) (a : Nat) (w : Word) : Memory :=
  { m with cells := m.cells.setIfInBounds a w }

/-- Writes a cell as data; a protected cell refuses. -/
def store (m : Memory) (a : Nat) (w : Word) : Except MemoryError Memory :=
  if m.size ≤ a then .error (.outOfRange a)
  else if a ∈ m.guarded then .error (.protectedCell a)
  else .ok ((m.write a w).touch a)

/-- Writes a cell from outside the machine: protection does not apply, nothing is counted. -/
def poke (m : Memory) (a : Nat) (w : Word) : Except MemoryError Memory :=
  if m.size ≤ a then .error (.outOfRange a) else .ok (m.write a w)

/-- Protects a cell. -/
def protect (m : Memory) (a : Nat) : Except MemoryError Memory :=
  if m.size ≤ a then .error (.outOfRange a)
  else .ok { m with guarded := m.guarded.insert a }

/-- Lifts the protection of an address. -/
def unprotect (m : Memory) (a : Nat) : Memory := { m with guarded := m.guarded.erase a }

/-- Whether an address is protected. -/
def isProtected (m : Memory) (a : Nat) : Bool := m.guarded.contains a

/-- Turns counting on or off; the counters keep their values. -/
def setTracking (m : Memory) (on : Bool) : Memory := { m with tracking := on }

/-- Memory of the same size with all cells and counters zero and nothing protected. -/
def clear (m : Memory) : Memory where
  cells := Array.replicate m.cells.size 0
  guarded := .empty
  counts := Array.replicate m.counts.size 0
  tracking := m.tracking

/-- Memory with other cells. -/
def restore (m : Memory) (cells : Array Word) : Memory := { m with cells := cells }

/-- Memory with an image copied in from address 0; words past the end are dropped. -/
def loadImage (m : Memory) (image : List Word) : Memory :=
  { m with cells := (image.take m.size ++ m.cells.toList.drop image.length).toArray }

/-- The number of words of an image that fit. -/
def imageFit (m : Memory) (image : List Word) : Nat := min image.length m.size

/-- A summary of memory in one line. -/
def summary (m : Memory) : String :=
  "Memory \x7b non_zero_cells: " ++ (m.cells.toList.countP (· != 0)).repr ++
    ", total_cells: " ++ m.size.repr ++
    ", protected: \x7b" ++ ", ".intercalate (m.guarded.toList.map Nat.repr) ++ "\x7d \x7d"

/-- A word addresses the cell of its own number, when the memory has such a cell. -/
theorem address?_eq_some_iff {m : Memory} {w : Word} {a : Nat} :
    m.address? w = some a ↔ w.toInt = a ∧ a < m.size := by
  unfold address?
  split
  · simp only [Option.some.injEq]
    omega
  · simp only [reduceCtorEq, false_iff]
    omega

/-- Counting an access leaves the cells. -/
@[simp]
theorem cells_touch (m : Memory) (a : Nat) : (m.touch a).cells = m.cells := by
  unfold touch
  split <;> rfl

/-- Counting an access leaves the protection. -/
@[simp]
theorem guarded_touch (m : Memory) (a : Nat) : (m.touch a).guarded = m.guarded := by
  unfold touch
  split <;> rfl

/-- Counting an access leaves the switch for counting. -/
@[simp]
theorem tracking_touch (m : Memory) (a : Nat) : (m.touch a).tracking = m.tracking := by
  unfold touch
  split <;> rfl

/-- Counting an access leaves the number of counters. -/
@[simp]
theorem size_counts_touch (m : Memory) (a : Nat) :
    (m.touch a).counts.size = m.counts.size := by
  unfold touch
  split <;> simp

/-- Loading an image leaves the number of cells. -/
theorem size_loadImage (m : Memory) (image : List Word) : (m.loadImage image).size = m.size := by
  simp only [loadImage, size, List.size_toArray, List.length_append, List.length_take,
    List.length_drop, Array.length_toList]
  omega

end Memory

end TernaryMachine
