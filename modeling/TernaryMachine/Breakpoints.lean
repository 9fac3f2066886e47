import TernaryMachine.AddressSet
import TernaryMachine.Expression.Condition

/-!
# Breakpoints

A machine pauses before it runs the instruction at a breakpoint address, and after an
instruction that leaves a condition true.  Conditions are kept in the order in which they were
added, and the first one that holds counts.

`contains_add`, `contains_remove` and `contains_toggle` say what becomes of an address.
-/

set_option autoImplicit false

namespace TernaryMachine

/-- Where and when a machine pauses. -/
structure Breakpoints where
  /-- The addresses to pause at. -/
  addresses : AddressSet
  /-- The conditions to pause on, in the order in which they were added. -/
  conditions : List Condition
  deriving DecidableEq

namespace Breakpoints

/-- No breakpoint at all. -/
def none : Breakpoints := ⟨.empty, []⟩

instance : Inhabited Breakpoints := ⟨none⟩

/-- Whether an address is one to pause at. -/
def contains (b : Breakpoints) (a : Nat) : Bool := b.addresses.contains a

/-- Sets a breakpoint at an address. -/
def add (b : Breakpoints) (a : Nat) : Breakpoints :=
  { b with addresses := b.addresses.insert a }

/-- Removes the breakpoint at an address. -/
def remove (b : Breakpoints) (a : Nat) : Breakpoints :=
  { b with addresses := b.addresses.erase a }

/-- Sets the breakpoint at an address if there is none, and removes it if there is one. -/
def toggle (b : Breakpoints) (a : Nat) : Breakpoints :=
  if b.contains a then b.remove a else b.add a

/-- Adds a condition behind the others. -/
def addCondition (b : Breakpoints) (c : Condition) : Breakpoints :=
  { b with conditions := b.conditions ++ [c] }

/-- Removes the condition with the given index, if there is one. -/
def removeCondition (b : Breakpoints) (index : Nat) : Breakpoints :=
  { b with conditions := b.conditions.eraseIdx index }

/-- The first condition that holds. -/
def firstHit (b : Breakpoints) (acc : Word) (cells : Array Word) : Option Condition :=
  b.conditions.find? fun c => c.holds acc cells

/-- An address that was added is a breakpoint. -/
theorem contains_add (b : Breakpoints) (a : Nat) : (b.add a).contains a = true :=
  AddressSet.contains_eq_true_iff.2 (AddressSet.mem_insert.2 (.inl rfl))

/-- An address that was removed is no breakpoint. -/
theorem contains_remove (b : Breakpoints) (a : Nat) : (b.remove a).contains a = false := by
  rw [Bool.eq_false_iff]
  intro h
  exact (AddressSet.mem_erase.1 (AddressSet.contains_eq_true_iff.1 h)).2 rfl

/-- Toggling an address makes it a breakpoint just when it was none. -/
theorem contains_toggle (b : Breakpoints) (a : Nat) :
    (b.toggle a).contains a = !b.contains a := by
  unfold toggle
  cases h : b.contains a with
  | true => simp [contains_remove]
  | false => simp [contains_add]

end Breakpoints

end TernaryMachine
