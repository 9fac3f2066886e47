import TernaryMachine.Proofs.Machine.Instruction

/-!
# Where an instruction lands

An instruction that starts on a word of memory leaves the program counter inside memory or at its
very end, where the last word of an instruction may stand right before it.  The addresses on the
call stack stay as good as they were (`Returns`): a call is performed on its operand word, so what
it puts there lies behind two words.  The faults that can come up on the way are three
(`Raises`); an address out of range is not among them.
-/

set_option autoImplicit false

namespace TernaryMachine

/-- Addresses to return to: behind a call, whose two words are inside memory. -/
def Returns (size : Nat) (callStack : List Nat) : Prop := ∀ a ∈ callStack, 2 ≤ a ∧ a ≤ size

namespace Core

variable {maxDepth : Nat} {op : Opcode} {word : Word} {c c' : Core}
  {result : Except Fault Flow}

/-- A call is performed on its operand word, so that the return address is at least 2. -/
theorem Effect.returns (h : Effect maxDepth op c c' result)
    (hpc : c.registers.pc < c.memory.size) (hcall : op = .call → 0 < c.registers.pc)
    (hreturns : Returns c.memory.size c.callStack) : Returns c.memory.size c'.callStack := by
  induction h with
  | @call c _ hop _ _ =>
    intro b hb
    rcases List.mem_cons.1 hb with rfl | hb
    · have hpos := hcall hop
      exact ⟨by omega, hpc⟩
    · exact hreturns b hb
  | ret _ hstack => exact fun b hb => hreturns b (hstack ▸ List.mem_cons_of_mem _ hb)
  | through _ _ _ ih =>
    -- Reading the pointer only counts an access, so the rest starts from as good a core.
    simp only [Memory.size_touch] at ih
    exact ih hpc hcall hreturns
  | _ => exact hreturns

/-- From inside memory, the effect of an opcode leads at most right behind it. -/
theorem Effect.pc_follow_le (h : Effect maxDepth op c c' result)
    (hpc : c.registers.pc < c.memory.size) (hreturns : Returns c.memory.size c.callStack)
    {flow : Flow} (hflow : result = .ok flow) :
    (c'.follow flow).registers.pc ≤ c.memory.size := by
  induction h with
  | pass _ => cases hflow; exact hpc
  | halt _ _ => cases hflow; exact Nat.le_of_lt hpc
  | jump ha => cases hflow; exact Nat.le_of_lt ha
  | setAcc _ _ => cases hflow; exact hpc
  | call _ _ ha => cases hflow; exact Nat.le_of_lt ha
  | ret _ hstack => cases hflow; exact (hreturns _ (hstack ▸ List.mem_cons_self)).2
  | load _ => cases hflow; exact hpc
  | store _ _ _ => cases hflow; exact hpc
  | through _ _ _ ih =>
    simp only [Memory.size_touch] at ih
    exact ih hpc hreturns hflow
  | overflow _ _ => cases hflow
  | empty _ _ => cases hflow
  | refuse _ _ _ => cases hflow

/-- The faults that come up inside an instruction. -/
inductive Raises (maxDepth : Nat) : Fault → Prop where
  | callStackOverflow : Raises maxDepth (.callStackOverflow maxDepth)
  | emptyCallStack : Raises maxDepth .emptyCallStack
  | protectedCell (a : Nat) : Raises maxDepth (.memory (.protectedCell a))

/-- The effect of an opcode raises only faults of the list. -/
theorem Effect.raises (h : Effect maxDepth op c c' result) {f : Fault} (hf : result = .error f) :
    Raises maxDepth f := by
  induction h with
  | overflow _ _ => cases hf; exact .callStackOverflow
  | empty _ _ => cases hf; exact .emptyCallStack
  | refuse _ _ _ => cases hf; exact .protectedCell _
  | through _ _ _ ih => exact ih hf
  | _ => cases hf

namespace Execution

/-- Executing a word keeps the addresses to return to. -/
theorem returns (h : Execution maxDepth word c c' result)
    (hpc : c.registers.pc < c.memory.size) (hreturns : Returns c.memory.size c.callStack) :
    Returns c.memory.size c'.callStack := by
  cases h with
  | data _ => exact hreturns
  | missing _ _ _ => exact hreturns
  | @alone op _ _ _ hoperand heffect =>
    have hcall : op = .call → 0 < c.registers.pc := by
      rintro rfl
      cases hoperand
    exact heffect.returns hpc hcall hreturns
  | withOperand _ _ hinside heffect =>
    exact heffect.returns hinside (fun _ => Nat.succ_pos _) hreturns

/-- Before control is sent on, at most the operand word has been passed. -/
theorem pc_le (h : Execution maxDepth word c c' result)
    (hpc : c.registers.pc < c.memory.size) : c'.registers.pc ≤ c.memory.size := by
  cases h with
  | data _ => exact Nat.le_of_lt hpc
  | missing _ _ _ => exact hpc
  | alone _ _ heffect => rw [heffect.pc_eq]; exact Nat.le_of_lt hpc
  | withOperand _ _ hinside heffect => rw [heffect.pc_eq]; exact Nat.le_of_lt hinside

/-- From inside memory, executing a word leads at most right behind it. -/
theorem pc_follow_le {flow : Flow} (h : Execution maxDepth word c c' (.ok flow))
    (hpc : c.registers.pc < c.memory.size) (hreturns : Returns c.memory.size c.callStack) :
    (c'.follow flow).registers.pc ≤ c.memory.size := by
  cases h with
  | data _ => exact hpc
  | missing _ _ _ => exact hpc
  | alone _ _ heffect => exact heffect.pc_follow_le hpc hreturns rfl
  | withOperand _ _ hinside heffect => exact heffect.pc_follow_le hinside hreturns rfl

/-- Executing a word raises only faults of the list. -/
theorem raises {f : Fault} (h : Execution maxDepth word c c' (.error f)) : Raises maxDepth f := by
  cases h with
  | alone _ _ heffect => exact heffect.raises rfl
  | withOperand _ _ _ heffect => exact heffect.raises rfl

end Execution

end Core

end TernaryMachine
