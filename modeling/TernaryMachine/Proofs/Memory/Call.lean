import TernaryMachine.Proofs.Machine.Instruction
import TernaryMachine.Proofs.Machine.Operation

/-!
# Calls of memory

What one call of memory can be.  `Memory.Called` has a case for every operation that is carried out
and one for every cause of refusal; `Memory.called` says that these are all.  Whatever is to be kept
by all operations on memory is kept by these cases.
-/

set_option autoImplicit false

namespace TernaryMachine.Memory

variable {m m' : Memory}

/-- What a call can be: the operation, the memory that it leaves and the answer.  What is refused
leaves memory as it was. -/
inductive Called (m : Memory) : MemoryOperation → Memory → MemoryAnswer → Prop where
  | load {a : Nat} {w : Word} (ha : a < m.size) (hcell : m.cells[a]? = some w) :
      Called m (.load a) (m.touch a) (.word w)
  | loadOutside {a : Nat} (ha : m.size ≤ a) : Called m (.load a) m (.refused (.outOfRange a))
  | store {a : Nat} (w : Word) (ha : a < m.size) (hfree : a ∉ m.guarded) :
      Called m (.store a w) ((m.write a w).touch a) .done
  | storeOutside {a : Nat} (w : Word) (ha : m.size ≤ a) :
      Called m (.store a w) m (.refused (.outOfRange a))
  | storeGuarded {a : Nat} (w : Word) (ha : a < m.size) (hguard : a ∈ m.guarded) :
      Called m (.store a w) m (.refused (.protectedCell a))
  | poke {a : Nat} (w : Word) (ha : a < m.size) : Called m (.poke a w) (m.write a w) .done
  | pokeOutside {a : Nat} (w : Word) (ha : m.size ≤ a) :
      Called m (.poke a w) m (.refused (.outOfRange a))
  | protect {a : Nat} (ha : a < m.size) :
      Called m (.protect a) { m with guarded := m.guarded.insert a } .done
  | protectOutside {a : Nat} (ha : m.size ≤ a) :
      Called m (.protect a) m (.refused (.outOfRange a))
  | unprotect (a : Nat) : Called m (.unprotect a) (m.unprotect a) (.lifted (m.isProtected a))
  | loadImage (image : List Word) :
      Called m (.loadImage image) (m.loadImage image) (.written (m.imageFit image))
  | clear : Called m .clear m.clear .done
  | setTracking (on : Bool) : Called m (.setTracking on) (m.setTracking on) .done

/-- An operation on memory is a call of the list. -/
theorem called (m : Memory) (operation : MemoryOperation) :
    m.Called operation (m.perform operation).1 (m.perform operation).2 := by
  cases operation with
  | load a =>
    by_cases ha : a < m.size
    · obtain ⟨w, hcell, hload⟩ := load_of_lt ha
      simp only [perform, hload]
      exact .load ha hcell
    · simp only [perform, load_of_not_lt ha]
      exact .loadOutside (Nat.not_lt.1 ha)
  | store a w =>
    by_cases ha : a < m.size
    · by_cases hg : a ∈ m.guarded
      · simp only [perform, store_of_guarded ha hg]
        exact .storeGuarded w ha hg
      · simp only [perform, store_of_free ha hg]
        exact .store w ha hg
    · simp only [perform, store_of_not_lt ha]
      exact .storeOutside w (Nat.not_lt.1 ha)
  | poke a w =>
    by_cases ha : m.size ≤ a
    · simp only [perform, Memory.poke, ha, if_true]
      exact .pokeOutside w ha
    · simp only [perform, Memory.poke, ha, if_false]
      exact .poke w (Nat.not_le.1 ha)
  | protect a =>
    by_cases ha : m.size ≤ a
    · simp only [perform, Memory.protect, ha, if_true]
      exact .protectOutside ha
    · simp only [perform, Memory.protect, ha, if_false]
      exact .protect (Nat.not_le.1 ha)
  | unprotect a => exact .unprotect a
  | loadImage image => exact .loadImage image
  | clear => exact .clear
  | setTracking on => exact .setTracking on

/-- A refused operation leaves memory. -/
theorem Called.eq_of_refused {operation : MemoryOperation} {cause : MemoryError}
    (h : m.Called operation m' (.refused cause)) : m' = m := by
  cases h <;> rfl

end TernaryMachine.Memory
