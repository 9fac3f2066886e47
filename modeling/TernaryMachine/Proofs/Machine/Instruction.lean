import TernaryMachine.Machine.Core

/-!
# What one instruction does to the core

`Core.Effect` lists, once for all opcodes, what an instruction can leave behind: it is a ladder
of a dozen rungs in place of eighteen opcodes with their operands.  `effect_perform` puts every
opcode on its rung, and the later theorems about whole runs climb from there.

No instruction changes the frame of memory, which is everything about it but the words and the
values of the counters (`Execution.frame_eq`); an effect leaves the program counter where it is
(`Effect.pc_eq`), since moving it on is the caller's part.
-/

set_option autoImplicit false

namespace TernaryMachine

/-- What no instruction changes about memory. -/
structure Frame where
  cellCount : Nat
  counterCount : Nat
  guarded : AddressSet
  tracking : Bool

namespace Memory

/-- The frame of a memory. -/
def frame (m : Memory) : Frame := ⟨m.cells.size, m.counts.size, m.guarded, m.tracking⟩

/-- Counting an access leaves the frame. -/
@[simp]
theorem frame_touch (m : Memory) (a : Nat) : (m.touch a).frame = m.frame := by
  simp [frame]

/-- Writing a cell leaves the frame. -/
@[simp]
theorem frame_write (m : Memory) (a : Nat) (w : Word) : (m.write a w).frame = m.frame := by
  simp [frame, write]

/-- The frame says how many cells there are. -/
theorem size_of_frame {m m' : Memory} (h : m.frame = m'.frame) : m.size = m'.size :=
  congrArg Frame.cellCount h

/-- Counting an access leaves the number of cells. -/
@[simp]
theorem size_touch (m : Memory) (a : Nat) : (m.touch a).size = m.size :=
  size_of_frame (frame_touch m a)

/-- A load from a cell of memory succeeds and counts the access. -/
theorem load_of_lt {m : Memory} {a : Nat} (h : a < m.size) :
    ∃ w, m.cells[a]? = some w ∧ m.load a = .ok (w, m.touch a) := by
  have hcell : m.cells[a]? = some m.cells[a] := Array.getElem?_eq_getElem h
  refine ⟨m.cells[a], hcell, ?_⟩
  simp only [load, peek?, hcell]

/-- A load from outside memory fails. -/
theorem load_of_not_lt {m : Memory} {a : Nat} (h : ¬ a < m.size) :
    m.load a = .error (.outOfRange a) := by
  have hcell : m.cells[a]? = none := Array.getElem?_eq_none_iff.2 (Nat.not_lt.1 h)
  simp only [load, peek?, hcell]

/-- A store to outside memory fails. -/
theorem store_of_not_lt {m : Memory} {a : Nat} (h : ¬ a < m.size) (w : Word) :
    m.store a w = .error (.outOfRange a) := by
  simp only [store, Nat.not_lt.1 h, if_true]

/-- A store to a protected cell fails. -/
theorem store_of_guarded {m : Memory} {a : Nat} (h : a < m.size) (hg : a ∈ m.guarded) (w : Word) :
    m.store a w = .error (.protectedCell a) := by
  have hle : ¬ m.size ≤ a := Nat.not_le.2 h
  simp only [store, hle, hg, if_false, if_true]

/-- A store to any other cell of memory succeeds and counts the access. -/
theorem store_of_free {m : Memory} {a : Nat} (h : a < m.size) (hg : a ∉ m.guarded) (w : Word) :
    m.store a w = .ok ((m.write a w).touch a) := by
  have hle : ¬ m.size ≤ a := Nat.not_le.2 h
  simp only [store, hle, hg, if_false]

end Memory

namespace Core

/-- What an instruction can make of a core.  A pointer is read first and followed afterwards, so
the indirect instructions are two rungs, one upon the other. -/
inductive Effect (maxDepth : Nat) (op : Opcode) : Core → Core → Except Fault Flow → Prop where
  | pass (c : Core) : Effect maxDepth op c c (.ok .next)
  | halt (c : Core) (hop : op = .halt) : Effect maxDepth op c c (.ok .halt)
  | jump {c : Core} {a : Nat} (ha : a < c.memory.size) : Effect maxDepth op c c (.ok (.jump a))
  | setAcc (c : Core) (w : Word) : Effect maxDepth op c (c.setAcc w) (.ok .next)
  | call {c : Core} {a : Nat} (hop : op = .call) (hdepth : c.callStack.length < maxDepth)
      (ha : a < c.memory.size) :
      Effect maxDepth op c { c with callStack := (c.registers.pc + 1) :: c.callStack }
        (.ok (.jump a))
  | overflow {c : Core} (hop : op = .call) (hdepth : maxDepth ≤ c.callStack.length) :
      Effect maxDepth op c c (.error (.callStackOverflow maxDepth))
  | ret {c : Core} {a : Nat} {rest : List Nat} (hop : op = .ret)
      (hstack : c.callStack = a :: rest) :
      Effect maxDepth op c { c with callStack := rest } (.ok (.jump a))
  | empty {c : Core} (hop : op = .ret) (hstack : c.callStack = []) :
      Effect maxDepth op c c (.error .emptyCallStack)
  | load {c : Core} {a : Nat} {w : Word} (hcell : c.memory.cells[a]? = some w) :
      Effect maxDepth op c { c.setAcc w with memory := c.memory.touch a } (.ok .next)
  | store {c : Core} {a : Nat} (hop : op = .store ∨ op = .storei) (ha : a < c.memory.size)
      (hfree : a ∉ c.memory.guarded) :
      Effect maxDepth op c { c with memory := (c.memory.write a c.registers.acc).touch a }
        (.ok .next)
  | refuse {c : Core} {a : Nat} (hop : op = .store ∨ op = .storei) (ha : a < c.memory.size)
      (hguard : a ∈ c.memory.guarded) :
      Effect maxDepth op c c (.error (.memory (.protectedCell a)))
  | through {c c' : Core} {p : Nat} {result : Except Fault Flow}
      (hop : op = .loadi ∨ op = .storei) (hp : p < c.memory.size)
      (hrest : Effect maxDepth op { c with memory := c.memory.touch p } c' result) :
      Effect maxDepth op c c' result

/-! ## Every opcode has its rung -/

variable {maxDepth : Nat} {op : Opcode}

/-- A conditional jump has an effect of the list. -/
theorem effect_jumpIf (c : Core) (condition : Bool) (w : Word) :
    Effect maxDepth op c c (.ok (jumpIf condition (c.memory.address? w))) := by
  cases htarget : c.memory.address? w with
  | none => exact .pass c
  | some a =>
    cases condition with
    | false => exact .pass c
    | true => exact .jump (Memory.address?_eq_some_iff.1 htarget).2

/-- A load has an effect of the list. -/
theorem effect_loadFrom (c : Core) (w : Word) :
    Effect maxDepth op c (c.loadFrom (c.memory.address? w)).1
      (c.loadFrom (c.memory.address? w)).2 := by
  cases htarget : c.memory.address? w with
  | none => exact .pass c
  | some a =>
    obtain ⟨v, hcell, hload⟩ := Memory.load_of_lt (Memory.address?_eq_some_iff.1 htarget).2
    simp only [loadFrom, hload]
    exact .load hcell

/-- A store has an effect of the list. -/
theorem effect_storeTo (hop : op = .store ∨ op = .storei) (c : Core) (w : Word) :
    Effect maxDepth op c (c.storeTo (c.memory.address? w)).1
      (c.storeTo (c.memory.address? w)).2 := by
  cases htarget : c.memory.address? w with
  | none => exact .pass c
  | some a =>
    have ha : a < c.memory.size := (Memory.address?_eq_some_iff.1 htarget).2
    by_cases hg : a ∈ c.memory.guarded
    · simp only [storeTo, Memory.store_of_guarded ha hg]
      exact .refuse hop ha hg
    · simp only [storeTo, Memory.store_of_free ha hg]
      exact .store hop ha hg

/-- An access through a pointer is on its rung if the access itself is, from every core. -/
theorem effect_through {access : Core → Option Nat → Core × Except Fault Flow}
    (hop : op = .loadi ∨ op = .storei)
    (haccess : ∀ (c : Core) (w : Word), Effect maxDepth op c (access c (c.memory.address? w)).1
      (access c (c.memory.address? w)).2)
    (hnone : ∀ c : Core, access c none = (c, .ok .next)) (c : Core) (w : Word) :
    Effect maxDepth op c (c.through (c.memory.address? w) access).1
      (c.through (c.memory.address? w) access).2 := by
  cases htarget : c.memory.address? w with
  | none =>
    simp only [through, hnone]
    exact .pass c
  | some p =>
    have hp : p < c.memory.size := (Memory.address?_eq_some_iff.1 htarget).2
    obtain ⟨v, -, hload⟩ := Memory.load_of_lt hp
    simp only [through, hload]
    exact .through hop hp (haccess { c with memory := c.memory.touch p } v)

/-- What an opcode does with its operand is one of the effects. -/
theorem effect_perform (c : Core) (maxDepth : Nat) (op : Opcode) (operand : Word) :
    Effect maxDepth op c (c.perform maxDepth op operand).1 (c.perform maxDepth op operand).2 := by
  cases op with
  | halt => exact .halt c rfl
  | jmp => exact effect_jumpIf c true operand
  | jz => exact effect_jumpIf c _ operand
  | jnz => exact effect_jumpIf c _ operand
  | jnp => exact effect_jumpIf c _ operand
  | call =>
    by_cases hdepth : maxDepth ≤ c.callStack.length
    · simp only [perform, hdepth, if_true]
      exact .overflow rfl hdepth
    · simp only [perform, hdepth, if_false]
      cases htarget : c.memory.address? operand with
      | none => exact .pass c
      | some a =>
        exact .call rfl (Nat.not_le.1 hdepth) (Memory.address?_eq_some_iff.1 htarget).2
  | ret =>
    cases hstack : c.callStack with
    | nil =>
      simp only [perform, hstack]
      exact .empty rfl hstack
    | cons a rest =>
      simp only [perform, hstack]
      exact .ret rfl hstack
  | add => exact .setAcc c _
  | sub => exact .setAcc c _
  | shl => exact .setAcc c _
  | shr => exact .setAcc c _
  | neg => exact .setAcc c _
  | inc => exact .setAcc c _
  | dec => exact .setAcc c _
  | load => exact effect_loadFrom c operand
  | store => exact effect_storeTo (.inl rfl) c operand
  | loadi => exact effect_through (.inl rfl) effect_loadFrom (fun _ => rfl) c operand
  | storei => exact effect_through (.inr rfl) (effect_storeTo (.inr rfl)) (fun _ => rfl) c operand

/-! ## What every effect leaves alone -/

namespace Effect

variable {c c' : Core} {result : Except Fault Flow}

/-- No effect changes the frame of memory. -/
theorem frame_eq (h : Effect maxDepth op c c' result) : c'.memory.frame = c.memory.frame := by
  induction h with
  | through _ _ _ ih => rw [ih, Memory.frame_touch]
  | load _ => exact Memory.frame_touch _ _
  | store _ _ _ => rw [Memory.frame_touch, Memory.frame_write]
  | _ => rfl

/-- No effect moves the program counter; that is left to the flow of control. -/
theorem pc_eq (h : Effect maxDepth op c c' result) : c'.registers.pc = c.registers.pc := by
  induction h with
  | through _ _ _ ih => exact ih
  | _ => rfl

end Effect

/-! ## Words and their operands -/

/-- What executing a word is: data is skipped, an opcode without operand is performed where it
stands, and one with operand after the step onto the operand word, if there is one. -/
inductive Execution (maxDepth : Nat) (word : Word) (c : Core) :
    Core → Except Fault Flow → Prop where
  | data (hdecode : Opcode.decode? word = none) : Execution maxDepth word c c (.ok .next)
  | missing {op : Opcode} (hdecode : Opcode.decode? word = some op)
      (hoperand : op.hasOperand = true) (hend : c.memory.size ≤ c.registers.pc + 1) :
      Execution maxDepth word c c.advance (.ok .endOfMemory)
  | alone {op : Opcode} {c' : Core} {result : Except Fault Flow}
      (hdecode : Opcode.decode? word = some op) (hoperand : op.hasOperand = false)
      (heffect : Effect maxDepth op c c' result) : Execution maxDepth word c c' result
  | withOperand {op : Opcode} {c' : Core} {result : Except Fault Flow}
      (hdecode : Opcode.decode? word = some op) (hoperand : op.hasOperand = true)
      (hinside : c.registers.pc + 1 < c.memory.size)
      (heffect : Effect maxDepth op c.advance c' result) : Execution maxDepth word c c' result

/-- Executing a word is an execution of the list. -/
theorem execution (c : Core) (maxDepth : Nat) (word : Word) :
    Execution maxDepth word c (c.execute maxDepth word).1 (c.execute maxDepth word).2 := by
  unfold execute
  cases hdecode : Opcode.decode? word with
  | none => exact .data hdecode
  | some op =>
    by_cases hoperand : op.hasOperand = true
    · simp only [hoperand, if_true]
      cases hpeek : c.advance.memory.peek? c.advance.registers.pc with
      | none => exact .missing hdecode hoperand (Array.getElem?_eq_none_iff.1 hpeek)
      | some operand =>
        obtain ⟨hinside, -⟩ := Array.getElem?_eq_some_iff.1 hpeek
        exact .withOperand hdecode hoperand hinside (effect_perform c.advance maxDepth op operand)
    · simp only [hoperand]
      exact .alone hdecode (Bool.not_eq_true _ ▸ hoperand) (effect_perform c maxDepth op 0)

/-- What executing a word comes to is an execution of the list. -/
theorem execution_of_eq {c c' : Core} {word : Word} {result : Except Fault Flow}
    (h : c.execute maxDepth word = (c', result)) : Execution maxDepth word c c' result := by
  have hexecution := c.execution maxDepth word
  rw [h] at hexecution
  exact hexecution

namespace Execution

variable {word : Word} {c c' : Core} {result : Except Fault Flow}

/-- No execution changes the frame of memory. -/
theorem frame_eq (h : Execution maxDepth word c c' result) :
    c'.memory.frame = c.memory.frame := by
  cases h with
  | data _ => rfl
  | missing _ _ _ => rfl
  | alone _ _ heffect => exact heffect.frame_eq
  | withOperand _ _ _ heffect => exact heffect.frame_eq

end Execution

/-! ## Following the flow -/

/-- Following the flow of control leaves memory. -/
@[simp]
theorem memory_follow (c : Core) (flow : Flow) : (c.follow flow).memory = c.memory := by
  cases flow <;> rfl

/-- Following the flow of control leaves the call stack. -/
@[simp]
theorem callStack_follow (c : Core) (flow : Flow) : (c.follow flow).callStack = c.callStack := by
  cases flow <;> rfl

end Core

end TernaryMachine
