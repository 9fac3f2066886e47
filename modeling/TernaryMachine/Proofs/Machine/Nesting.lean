import TernaryMachine.Proofs.Machine.Access
import TernaryMachine.Proofs.Machine.Limit

/-!
# Calls and returns nest

A step does one of three things to the call stack (`Machine.Nests`): it leaves it alone, it puts the
address behind a call on top, or it takes the top off and goes there.  So the part of the stack that
lies below cannot be reached as long as the stack stays higher than it (`suffix_after`), and what a
call puts there is still on top of it when a return comes down to it (`Nests.returns`).

A call is performed on its operand word, so the address behind it may be the very end of memory.

The stack does not grow beyond the greatest depth, and neither do the stacks of the remembered
moments, as long as nobody lowers that depth (`Nests.length_le`).
-/

set_option autoImplicit false

namespace TernaryMachine

namespace Core

variable {maxDepth : Nat} {c c' : Core} {result : Except Fault Flow}

/-- What an opcode can do to the call stack; `home` is the address that a call comes back to. -/
inductive Stacks (maxDepth : Nat) (op : Option Opcode) (home : Nat) (c c' : Core)
    (result : Except Fault Flow) : Prop where
  | level (hstack : c'.callStack = c.callStack)
  | call (hop : op = some .call) (hdepth : c.callStack.length < maxDepth)
      (hstack : c'.callStack = home :: c.callStack)
  | ret {a : Nat} (hop : op = some .ret) (hstack : c.callStack = a :: c'.callStack)
      (hflow : result = .ok (.jump a))

/-- What an opcode does to the call stack is pushing, popping or nothing. -/
theorem Effect.stacks {op : Opcode} (h : Effect maxDepth op c c' result) :
    Stacks maxDepth (some op) (c.registers.pc + 1) c c' result := by
  induction h with
  | call hop hdepth _ => exact .call (congrArg some hop) hdepth rfl
  | ret hop hstack => exact .ret (congrArg some hop) hstack rfl
  | through _ _ _ ih =>
    -- Reading the pointer changes neither the stack nor the program counter.
    cases ih with
    | level hstack => exact .level hstack
    | call hop hdepth hstack => exact .call hop hdepth hstack
    | ret hop hstack hflow => exact .ret hop hstack hflow
  | _ => exact .level rfl

/-- What a word does to the call stack is pushing, popping or nothing. -/
theorem Execution.stacks {word : Word} (h : Execution maxDepth word c c' result) :
    Stacks maxDepth (Opcode.decode? word) (c.registers.pc + 2) c c' result := by
  cases h with
  | data _ => exact .level rfl
  | missing _ _ _ => exact .level rfl
  | alone hdecode hoperand heffect =>
    cases heffect.stacks with
    | level hstack => exact .level hstack
    | call hop _ _ =>
      cases hop
      cases hoperand
    | ret hop hstack hflow => exact .ret (hdecode.trans hop) hstack hflow
  | withOperand hdecode _ _ heffect =>
    cases heffect.stacks with
    | level hstack => exact .level hstack
    | call hop hdepth hstack => exact .call (hdecode.trans hop) hdepth hstack
    | ret hop hstack hflow => exact .ret (hdecode.trans hop) hstack hflow

/-! ## The call itself -/

section Call

variable {word : Word} (hdecode : Opcode.decode? word = some .call)

include hdecode

/-- A call with an operand word is performed on that word. -/
theorem execute_call {operand : Word} (h : c.memory.peek? (c.registers.pc + 1) = some operand) :
    c.execute maxDepth word = c.advance.perform maxDepth .call operand := by
  have hpeek : c.advance.memory.peek? c.advance.registers.pc = some operand := h
  simp only [execute, hdecode, Opcode.hasOperand, if_true, hpeek]

/-- A call with a target pushes the address behind it and jumps there, if the stack has room. -/
theorem execute_call_to {a : Nat} (h : c.memory.pointee? (c.registers.pc + 1) = some a)
    (hdepth : c.callStack.length < maxDepth) :
    c.execute maxDepth word =
      ({ c.advance with callStack := (c.registers.pc + 2) :: c.callStack }, .ok (.jump a)) := by
  obtain ⟨operand, hpeek, haddress⟩ := Option.bind_eq_some_iff.1 h
  have htarget : c.advance.memory.address? operand = some a := haddress
  have hroom : ¬ maxDepth ≤ c.advance.callStack.length := Nat.not_le.2 hdepth
  rw [execute_call hdecode hpeek]
  simp only [perform, htarget, if_neg hroom]
  rfl

/-- A call without a target leaves the call stack. -/
theorem callStack_execute_call_nowhere (h : c.memory.pointee? (c.registers.pc + 1) = none) :
    (c.execute maxDepth word).1.callStack = c.callStack := by
  cases hpeek : c.memory.peek? (c.registers.pc + 1) with
  | none =>
    have hmissing : c.advance.memory.peek? c.advance.registers.pc = none := hpeek
    simp only [execute, hdecode, Opcode.hasOperand, if_true, hmissing]
    rfl
  | some operand =>
    have htarget : c.advance.memory.address? operand = none := by
      rw [Memory.pointee?, hpeek] at h
      exact h
    rw [execute_call hdecode hpeek]
    simp only [perform, htarget]
    split <;> rfl

end Call

end Core

namespace Machine

variable {m m' : Machine}

/-- The opcode that the next step performs, if it performs one. -/
def opcode? (m : Machine) : Option Opcode :=
  match m.gate with
  | .run word => Opcode.decode? word
  | _ => none

/-- The opcode that comes next is that of the word at the gate. -/
theorem opcode?_of_gate {word : Word} (hgate : m.gate = .run word) :
    m.opcode? = Opcode.decode? word := by
  simp only [opcode?, hgate]

/-- An opcode comes next only where its word is about to run. -/
theorem exists_gate_of_opcode? {op : Opcode} (h : m.opcode? = some op) :
    ∃ word, m.gate = .run word ∧ Opcode.decode? word = some op := by
  unfold opcode? at h
  split at h
  · next word hgate => exact ⟨word, hgate, h⟩
  · cases h

/-- What a step can do to the call stack. -/
inductive Nests (m m' : Machine) : Prop where
  | level (hstack : m'.callStack = m.callStack)
  | call (hop : m.opcode? = some .call)
      (hdepth : m.callStack.length < m.config.maxCallDepth.toNat)
      (hstack : m'.callStack = (m.registers.pc + 2) :: m.callStack)
  | ret (hop : m.opcode? = some .ret) (hstack : m.callStack = m'.registers.pc :: m'.callStack)

/-- What a move does to the call stack is pushing, popping or nothing. -/
theorem Move.nests {result : Except Fault Outcome} (h : m.Move m' result) : m.Nests m' := by
  -- Where control goes to does not matter for the stack, a return excepted.
  have hflow : ∀ {word : Word} {core : Core} {flow : Flow}, m.gate = .run word →
      (m.fetch word).toCore.execute m.config.maxCallDepth.toNat word = (core, .ok flow) →
      m'.toCore = core.follow flow → m.Nests m' := by
    intro word core flow hgate hexec hcore
    have hfollow : m'.callStack = core.callStack := by
      rw [hcore, Core.callStack_follow]
    cases (Core.execution_of_eq hexec).stacks with
    | level hstack => exact .level (hfollow.trans hstack)
    | call hop hdepth hstack =>
      exact .call ((opcode?_of_gate hgate).trans hop) hdepth (hfollow.trans hstack)
    | ret hop hstack hjump =>
      cases hjump
      have hpc : m'.registers.pc = _ := congrArg (fun c => c.registers.pc) hcore
      refine .ret ((opcode?_of_gate hgate).trans hop) ?_
      rw [hfollow, hpc]
      exact hstack
  cases h with
  | refused _ => exact .level rfl
  | exhausted _ => exact .level rfl
  | pause _ => exact .level rfl
  | outside _ => exact .level rfl
  | fault hgate hexec =>
    cases (Core.execution_of_eq hexec).stacks with
    | level hstack => exact .level hstack
    | call hop hdepth hstack =>
      exact .call ((opcode?_of_gate hgate).trans hop) hdepth hstack
    | ret _ _ hjump => cases hjump
  | stop hgate hexec _ => exact hflow hgate hexec rfl
  | go hgate hexec _ => exact hflow hgate hexec rfl

/-- What a step does to the call stack is pushing, popping or nothing. -/
theorem nests_step (m : Machine) : m.Nests m.step.1 := m.move_step.nests

/-! ## What lies below -/

section Below

variable {frame rest : List Nat} {home : Nat}

/-- As long as the stack does not go below a frame, a step leaves the frame. -/
theorem Nests.suffix (h : m.Nests m') (hframe : frame <:+ m.callStack)
    (hhigh : frame.length ≤ m'.callStack.length) : frame <:+ m'.callStack := by
  cases h with
  | level hstack =>
    rw [hstack]
    exact hframe
  | call _ _ hstack =>
    rw [hstack]
    exact hframe.trans (List.suffix_cons _ _)
  | ret _ hstack =>
    rw [hstack] at hframe
    rcases List.suffix_cons_iff.1 hframe with hall | hbelow
    · rw [hall, List.length_cons] at hhigh
      omega
    · exact hbelow

/-- A part of the stack at its bottom stays there as long as the stack is not lower than it. -/
theorem suffix_after {n : Nat} (hframe : frame <:+ m.callStack)
    (hhigh : ∀ i ≤ n, frame.length ≤ (after i m).callStack.length) :
    frame <:+ (after n m).callStack := by
  induction n generalizing m with
  | zero => exact hframe
  | succ n ih =>
    have hfirst : frame.length ≤ m.step.1.callStack.length := hhigh 1 (by omega)
    apply ih (m.nests_step.suffix hframe hfirst)
    intro i hi
    exact hhigh (i + 1) (by omega)

/-- Only a return takes the stack below an address that was put there, and it goes to that
address. -/
theorem Nests.returns (h : m.Nests m') (hframe : home :: rest <:+ m.callStack)
    (hlow : m'.callStack.length ≤ rest.length) :
    m.opcode? = some .ret ∧ m'.registers.pc = home ∧ m'.callStack = rest := by
  have hlength : rest.length + 1 ≤ m.callStack.length := hframe.length_le
  cases h with
  | level hstack =>
    rw [hstack] at hlow
    omega
  | call _ _ hstack =>
    rw [hstack, List.length_cons] at hlow
    omega
  | ret hop hstack =>
    rw [hstack] at hframe hlength
    have hall : home :: rest = m'.registers.pc :: m'.callStack := by
      apply hframe.eq_of_length_le
      rw [List.length_cons, List.length_cons]
      omega
    obtain ⟨hhome, hrest⟩ := List.cons.inj hall
    exact ⟨hop, hhome.symm, hrest.symm⟩

end Below

/-! ## Steps that call -/

/-- A step leaves the call stack that executing the word leaves. -/
theorem callStack_step {word : Word} (hgate : m.gate = .run word) :
    m.step.1.callStack =
      ((m.fetch word).toCore.execute m.config.maxCallDepth.toNat word).1.callStack := by
  cases hexec : (m.fetch word).toCore.execute m.config.maxCallDepth.toNat word with
  | mk core result =>
    cases result with
    | error f =>
      rw [(Move.fault hgate hexec).step_eq]
      rfl
    | ok flow =>
      have hcore := toCore_step hgate hexec
      show m.step.1.toCore.callStack = core.callStack
      rw [hcore, Core.callStack_follow]

/-- A call step with a target and room pushes the address behind it and goes to the target. -/
theorem step_of_call {a : Nat} (hop : m.opcode? = some .call)
    (htarget : m.memory.pointee? (m.registers.pc + 1) = some a)
    (hdepth : m.callStack.length < m.config.maxCallDepth.toNat) :
    m.step.1.callStack = (m.registers.pc + 2) :: m.callStack ∧ m.step.1.registers.pc = a := by
  obtain ⟨word, hgate, hdecode⟩ := exists_gate_of_opcode? hop
  have hexec := Core.execute_call_to (c := (m.fetch word).toCore) hdecode htarget hdepth
  have hcore := toCore_step hgate hexec
  exact ⟨congrArg Core.callStack hcore, congrArg (fun c => c.registers.pc) hcore⟩

/-- A call step without a target leaves the call stack. -/
theorem step_of_call_nowhere (hop : m.opcode? = some .call)
    (htarget : m.memory.pointee? (m.registers.pc + 1) = none) :
    m.step.1.callStack = m.callStack := by
  obtain ⟨word, hgate, hdecode⟩ := exists_gate_of_opcode? hop
  rw [callStack_step hgate]
  exact Core.callStack_execute_call_nowhere (c := (m.fetch word).toCore) hdecode htarget

/-- A step that performs a call and leaves the stack higher has put the address behind the call on
top. -/
theorem callStack_of_call_of_lt (hop : m.opcode? = some .call)
    (hhigh : m.callStack.length < m.step.1.callStack.length) :
    m.step.1.callStack = (m.registers.pc + 2) :: m.callStack := by
  cases m.nests_step with
  | level hstack =>
    rw [hstack] at hhigh
    omega
  | call _ _ hstack => exact hstack
  | ret hret _ =>
    rw [hop] at hret
    cases hret

/-! ## The greatest depth -/

/-- A step keeps the call stack within its depth. -/
theorem Nests.length_le (h : m.Nests m')
    (hdepth : m.callStack.length ≤ m.config.maxCallDepth.toNat) :
    m'.callStack.length ≤ m.config.maxCallDepth.toNat := by
  cases h with
  | level hstack =>
    rw [hstack]
    exact hdepth
  | call _ hroom hstack =>
    rw [hstack, List.length_cons]
    exact hroom
  | ret _ hstack =>
    rw [hstack, List.length_cons] at hdepth
    omega

/-- Steps keep to the greatest depth, whatever the history holds. -/
theorem length_callStack_after (hdepth : m.callStack.length ≤ m.config.maxCallDepth.toNat)
    (n : Nat) : (after n m).callStack.length ≤ (after n m).config.maxCallDepth.toNat := by
  refine after_induction
    (P := fun m => m.callStack.length ≤ m.config.maxCallDepth.toNat) ?_ hdepth n
  intro m hm
  rw [m.move_step.config_eq]
  exact m.nests_step.length_le hm

/-- **Calls and returns nest.**  A call that has no target leaves the call stack as it is.  One that
has a target puts the address behind its two words on top, if there is room, and goes there.
However the machine is then stepped, as long as the stack stays higher than before the call, all
that was on it stays there with that address on top; and the step that first brings the stack down
again is a return, which goes to that address and leaves the stack as it was before the call.  The
stack never grows beyond the greatest depth of calls, whatever becomes of the machine, as long as
that depth is not lowered. -/
theorem calls_return (m : Machine) (config : Config) (changes : List Change) :
    (m.opcode? = some .call → m.memory.pointee? (m.registers.pc + 1) = none →
      m.step.1.callStack = m.callStack) ∧
    (∀ a, m.opcode? = some .call → m.memory.pointee? (m.registers.pc + 1) = some a →
      (m.callStack.length < m.config.maxCallDepth.toNat →
        m.step.1.callStack = (m.registers.pc + 2) :: m.callStack ∧ m.step.1.registers.pc = a) ∧
      ∀ n, (∀ i ≤ n, m.callStack.length < (after (i + 1) m).callStack.length) →
        (m.registers.pc + 2) :: m.callStack <:+ (after (n + 1) m).callStack ∧
        ((after (n + 2) m).callStack.length ≤ m.callStack.length →
          (after (n + 1) m).opcode? = some .ret ∧
          (after (n + 2) m).registers.pc = m.registers.pc + 2 ∧
          (after (n + 2) m).callStack = m.callStack)) ∧
    (m.callStack.length ≤ m.config.maxCallDepth.toNat → ∀ n,
      (after n m).callStack.length ≤ (after n m).config.maxCallDepth.toNat) ∧
    (NeverLowered Config.maxCallDepth (new config) changes →
      ((new config).changeAll changes).callStack.length ≤
        ((new config).changeAll changes).config.maxCallDepth.toNat) := by
  refine ⟨step_of_call_nowhere, ?_, length_callStack_after, ?_⟩
  · intro a hop htarget
    refine ⟨step_of_call hop htarget, ?_⟩
    intro n hhigh
    have hpushed := callStack_of_call_of_lt hop (hhigh 0 (Nat.zero_le n))
    have hframe : (m.registers.pc + 2) :: m.callStack <:+ (after (n + 1) m).callStack := by
      apply suffix_after (m := m.step.1)
      · exact hpushed ▸ List.suffix_rfl
      · exact hhigh
    refine ⟨hframe, ?_⟩
    intro hlow
    have hlast : after (n + 2) m = (after (n + 1) m).step.1 := after_add (n + 1) 1 m
    rw [hlast] at hlow ⊢
    exact (after (n + 1) m).nests_step.returns hframe hlow
  · intro hkept
    have hnew : Within (fun stack _ => stack.length) Config.maxCallDepth (new config) :=
      .of_start rfl rfl rfl rfl
    have hlast := hnew.changeAll rfl (fun hmove => hmove.nests.length_le) hkept
    exact hlast.present

/-- A machine about to perform a call at the very end of its memory, of a routine that itself calls
another one. -/
def callingFromEnd : Machine :=
  let program : List Word := [3, 25, 7, 5, -7, 9, -7] ++ List.replicate 18 0 ++ [7, 2]
  after 1 ((new { memorySize := .small }).loadWords program)

/-- What may become of a machine whose greatest depth of calls is raised on the way. -/
def deepened : List Change :=
  [.operation (.loadWords [7, 0]), .operation (.run 20), .operation (.setMaxCallDepth 12),
    .operation .stepBack, .operation (.run 20)]

/-- A call from the last two cells of memory returns right behind memory, and a raised depth bounds
the stack. -/
theorem calls_return_callingFromEnd :
    (∀ i ≤ 3, callingFromEnd.callStack.length < (after (i + 1) callingFromEnd).callStack.length) ∧
    [27] <:+ (after 2 callingFromEnd).callStack ∧
    (after 4 callingFromEnd).opcode? = some .ret ∧
    (after 5 callingFromEnd).registers.pc = 27 ∧
    (after 5 callingFromEnd).callStack = [] ∧
    ((new {}).changeAll deepened).callStack.length ≤ 12 := by
  obtain ⟨-, hcall, -, hdepth⟩ := calls_return callingFromEnd {} deepened
  have hhigh : ∀ i ≤ 3,
      callingFromEnd.callStack.length < (after (i + 1) callingFromEnd).callStack.length := by
    decide +kernel
  obtain ⟨-, hreturn⟩ := hcall 2 (by decide +kernel) (by decide +kernel)
  obtain ⟨hframe, -⟩ := hreturn 1 fun i hi => hhigh i (by omega)
  obtain ⟨-, hlast⟩ := hreturn 3 hhigh
  obtain ⟨hop, hpc, hstack⟩ := hlast (by decide +kernel)
  have hkept : NeverLowered Config.maxCallDepth (new {}) deepened :=
    ⟨by decide +kernel, by decide +kernel, by decide +kernel, by decide +kernel,
      by decide +kernel, trivial⟩
  have hlimit : ((new {}).changeAll deepened).config.maxCallDepth = 12 := by decide +kernel
  have hwithin := hdepth hkept
  rw [hlimit] at hwithin
  exact ⟨hhigh, hframe, hop, hpc, hstack, hwithin⟩

end Machine

end TernaryMachine
