import TernaryMachine.Proofs.Machine.Access
import TernaryMachine.Proofs.Machine.Report
import TernaryMachine.Proofs.Machine.Safety

/-!
# Write protection over whole runs

Only `store` looks at protection, and an instruction writes no other way, so a step leaves protected
cells as they are (`Move.cell_eq`).  A step back does not look at it: it brings all cells back.  But
what it brings back is a moment of the history, and as long as those agree with memory on the
protected cells there is nothing to overwrite.  `Keeps` is that invariant, of memory and of all
moments at once, and it holds over steps, runs and steps back in any order.

An instruction that is to store into a protected cell faults there, and the machine is halted.
`Machine.storeTarget?` finds the cell by looking at the machine before the step alone.
-/

set_option autoImplicit false

namespace TernaryMachine

/-- The operations that only move a machine forward or back along its run. -/
inductive Operation.Moves : Operation → Prop where
  | step : Moves .step
  | run (budget : Nat) : Moves (.run budget)
  | stepBack : Moves .stepBack

/-- Writing a cell leaves the others. -/
theorem Memory.getElem?_write_of_ne {a b : Nat} (h : a ≠ b) (m : Memory) (w : Word) :
    (m.write a w).cells[b]? = m.cells[b]? :=
  Array.getElem?_setIfInBounds_ne h

namespace Core

variable {maxDepth : Nat} {c c' : Core} {result : Except Fault Flow}

/-! ## Protected cells stay as they are -/

/-- The effect of an opcode leaves protected cells. -/
theorem Effect.cell_eq {op : Opcode} (h : Effect maxDepth op c c' result) {a : Nat}
    (ha : a ∈ c.memory.guarded) : c'.memory.cells[a]? = c.memory.cells[a]? := by
  induction h with
  | load _ =>
    show (Memory.touch _ _).cells[a]? = _
    rw [Memory.cells_touch]
  | @store c b _ _ hfree =>
    have hne : b ≠ a := by
      rintro rfl
      exact hfree ha
    show ((c.memory.write b c.registers.acc).touch b).cells[a]? = _
    rw [Memory.cells_touch, Memory.getElem?_write_of_ne hne]
  | through _ _ _ ih =>
    -- Reading the pointer only counts an access.
    simp only [Memory.guarded_touch, Memory.cells_touch] at ih
    exact ih ha
  | _ => rfl

/-- Executing a word leaves protected cells. -/
theorem Execution.cell_eq {word : Word} (h : Execution maxDepth word c c' result) {a : Nat}
    (ha : a ∈ c.memory.guarded) : c'.memory.cells[a]? = c.memory.cells[a]? := by
  cases h with
  | data _ => rfl
  | missing _ _ _ => rfl
  | alone _ _ heffect => exact heffect.cell_eq ha
  | withOperand _ _ _ heffect => exact heffect.cell_eq ha

/-! ## Stores into protected cells -/

/-- The cell that a word stores into when it is executed, if it is a store and the cell exists: the
operand names the cell, or a pointer to it. -/
def storeTarget? (c : Core) (word : Word) : Option Nat :=
  match Opcode.decode? word with
  | some .store => c.memory.pointee? (c.registers.pc + 1)
  | some .storei => (c.memory.pointee? (c.registers.pc + 1)).bind c.memory.pointee?
  | _ => none

/-- Storing to a protected cell fails. -/
theorem storeTo_of_guarded {a : Nat} (ha : a < c.memory.size) (hguard : a ∈ c.memory.guarded) :
    (c.storeTo (some a)).2 = .error (.memory (.protectedCell a)) := by
  simp only [storeTo, Memory.store_of_guarded ha hguard]

/-- Executing a store whose target is protected fails. -/
theorem execute_of_storeTarget? (maxDepth : Nat) {word : Word} {a : Nat}
    (h : c.storeTarget? word = some a) (hguard : a ∈ c.memory.guarded) :
    (c.execute maxDepth word).2 = .error (.memory (.protectedCell a)) := by
  unfold storeTarget? at h
  unfold execute
  cases hdecode : Opcode.decode? word with
  | none => simp only [hdecode, reduceCtorEq] at h
  | some op =>
    simp only [hdecode] at h
    cases op with
    | store =>
      obtain ⟨operand, hoperand, htarget⟩ := Option.bind_eq_some_iff.1 h
      have hpeek : c.advance.memory.peek? c.advance.registers.pc = some operand := hoperand
      have haddress : c.advance.memory.address? operand = some a := htarget
      simp only [Opcode.hasOperand, if_true, hpeek, perform, haddress]
      exact storeTo_of_guarded (Memory.lt_size_of_pointee? h) hguard
    | storei =>
      obtain ⟨p, hp, hpointee⟩ := Option.bind_eq_some_iff.1 h
      obtain ⟨operand, hoperand, htarget⟩ := Option.bind_eq_some_iff.1 hp
      obtain ⟨w, hcell, hfollow⟩ := Option.bind_eq_some_iff.1 hpointee
      have hpeek : c.advance.memory.peek? c.advance.registers.pc = some operand := hoperand
      have haddress : c.advance.memory.address? operand = some p := htarget
      have hload : c.advance.memory.load p = .ok (w, c.advance.memory.touch p) := by
        have hpeek' : c.advance.memory.peek? p = some w := hcell
        simp only [Memory.load, hpeek']
      have hfollow' : (c.advance.memory.touch p).address? w = some a := by
        rw [Memory.address?_touch]
        exact hfollow
      simp only [Opcode.hasOperand, if_true, hpeek, perform, haddress, through, hload, hfollow']
      apply storeTo_of_guarded
      · rw [Memory.size_touch]
        exact Memory.lt_size_of_pointee? hpointee
      · rw [Memory.guarded_touch]
        exact hguard
    | _ => cases h

end Core

namespace Machine

variable {m m' : Machine}

/-- The cell that the next step is to store into, if it runs a store. -/
def storeTarget? (m : Machine) : Option Nat :=
  match m.gate with
  | .run word => m.toCore.storeTarget? word
  | _ => none

/-- A step that would store to a protected cell fails and halts the machine. -/
theorem step_of_storeTarget? {a : Nat} (h : m.storeTarget? = some a)
    (hguard : a ∈ m.memory.guarded) :
    m.step.2 = .error (.memory (.protectedCell a)) ∧ m.step.1.state = .halted := by
  unfold storeTarget? at h
  split at h
  · next word hgate =>
    have hfetch : (m.fetch word).toCore.storeTarget? word = some a := h
    have hresult :=
      Core.execute_of_storeTarget? m.config.maxCallDepth.toNat hfetch hguard
    have hexec : (m.fetch word).toCore.execute m.config.maxCallDepth.toNat word =
        (((m.fetch word).toCore.execute m.config.maxCallDepth.toNat word).1,
          .error (.memory (.protectedCell a))) := Prod.ext rfl hresult
    rw [(Move.fault hgate hexec).step_eq]
    exact ⟨rfl, rfl⟩
  · cases h

/-- A move leaves protected cells. -/
theorem Move.cell_eq {result : Except Fault Outcome} (h : m.Move m' result) {a : Nat}
    (ha : a ∈ m.memory.guarded) : m'.memory.cells[a]? = m.memory.cells[a]? := by
  have hcell : ∀ {word : Word} {core : Core} {flow : Except Fault Flow},
      (m.fetch word).toCore.execute m.config.maxCallDepth.toNat word = (core, flow) →
        core.memory.cells[a]? = m.memory.cells[a]? :=
    fun hexec => (Core.execution_of_eq hexec).cell_eq ha
  cases h with
  | fault _ hexec => exact hcell hexec
  | @stop word core flow reason _ hexec _ =>
    show (core.follow flow).memory.cells[a]? = _
    rw [Core.memory_follow, hcell hexec]
  | @go word core flow _ hexec _ =>
    show (core.follow flow).memory.cells[a]? = _
    rw [Core.memory_follow, hcell hexec]
  | _ => rfl

/-! ## Runs in either direction -/

/-- A machine with these protected addresses whose cells at the addresses `P` are those given, here
and in every moment of the history. -/
structure Keeps (P : Nat → Prop) (words : Array Word) (guard : AddressSet) (m : Machine) :
    Prop where
  guarded : m.memory.guarded = guard
  cells : ∀ a, P a → m.memory.cells[a]? = words[a]?
  moments : ∀ moment ∈ m.history.moments, ∀ a, P a → moment.cells[a]? = words[a]?

namespace Keeps

variable {P : Nat → Prop} {words : Array Word} {guard : AddressSet}

/-- A move keeps the protected cells, in memory and in the history. -/
theorem of_move (h : Keeps P words guard m) (hP : ∀ a, P a → a ∈ guard)
    {result : Except Fault Outcome} (hmove : m.Move m' result) : Keeps P words guard m' := by
  have hguarded : m'.memory.guarded = m.memory.guarded := congrArg Frame.guarded hmove.frame_eq
  refine ⟨hguarded.trans h.guarded, ?_, ?_⟩
  · intro a ha
    rw [hmove.cell_eq (h.guarded ▸ hP a ha)]
    exact h.cells a ha
  · exact hmove.forall_moments (fun _ => h.cells) h.moments

/-- A step back keeps the protected cells. -/
theorem stepBack (h : Keeps P words guard m) {back : Machine} (hback : m.stepBack = .ok back) :
    Keeps P words guard back := by
  cases retreat_of_stepBack hback with
  | back hpop =>
    obtain ⟨hmoment, hrest⟩ := History.forall_of_pop? hpop h.moments
    exact ⟨h.guarded, hmoment, hrest⟩

/-- Operations that only move the machine keep the protected cells. -/
theorem perform (h : Keeps P words guard m) (hP : ∀ a, P a → a ∈ guard) {operation : Operation}
    (hmoves : operation.Moves) : Keeps P words guard (m.perform operation).1 := by
  cases hmoves with
  | step => exact h.of_move hP m.move_step
  | run budget => exact run_induction (fun m hm => of_move hm hP m.move_step) h budget
  | stepBack =>
    simp only [Machine.perform]
    split
    · next back hback => exact h.stepBack hback
    · exact h

/-- The turns of an operation are taken under the same protection. -/
theorem turnsIn (h : Keeps P words guard m) {operation : Operation} {turn : Turn}
    (hturn : turn ∈ m.turnsIn operation) :
    ∃ before : Machine, turn = before.turn ∧ before.memory.guarded = guard := by
  cases operation with
  | step => exact ⟨m, List.mem_singleton.1 hturn, h.guarded⟩
  | run budget =>
    obtain ⟨before, rfl⟩ := exists_turn_of_mem_turns hturn
    have hframe : before.memory.frame = m.memory.frame := (frame_after _ m).2 _ hturn
    exact ⟨before, rfl, (congrArg Frame.guarded hframe).trans h.guarded⟩
  | _ => cases hturn

/-- Rows of such operations keep the protected cells, and the protection in every turn. -/
theorem performAll (h : Keeps P words guard m) (hP : ∀ a, P a → a ∈ guard)
    {operations : List Operation} (hmoves : ∀ operation ∈ operations, operation.Moves) :
    Keeps P words guard (m.performAll operations) ∧
      ∀ turn ∈ m.turnsAll operations,
        ∃ before : Machine, turn = before.turn ∧ before.memory.guarded = guard := by
  induction operations generalizing m with
  | nil =>
    refine ⟨h, ?_⟩
    intro turn hturn
    simp only [turnsAll, List.not_mem_nil] at hturn
  | cons operation rest ih =>
    obtain ⟨hfirst, hrest⟩ := List.forall_mem_cons.1 hmoves
    obtain ⟨hlast, hturns⟩ := ih (h.perform hP hfirst) hrest
    refine ⟨hlast, ?_⟩
    intro turn hturn
    rcases List.mem_append.1 hturn with hin | hlater
    · exact h.turnsIn hin
    · exact hturns turn hlater

end Keeps

/-- **Write protection holds over whole runs, backwards too.**  Let the moments of the history agree
with memory on some of the protected cells.  After any steps, runs and steps back the same addresses
are protected, and those cells hold what they held.  Every step on the way that was to store into a
protected cell failed for that cell and left the machine halted. -/
theorem protection_holds (m : Machine) (P : Nat → Prop) (hP : ∀ a, P a → a ∈ m.memory.guarded)
    (hpast : ∀ moment ∈ m.history.moments, ∀ a, P a → moment.cells[a]? = m.memory.cells[a]?)
    (operations : List Operation) (hmoves : ∀ operation ∈ operations, operation.Moves) :
    (m.performAll operations).memory.guarded = m.memory.guarded ∧
    (∀ a, P a → (m.performAll operations).memory.cells[a]? = m.memory.cells[a]?) ∧
    ∀ turn ∈ m.turnsAll operations, ∀ a, turn.before.storeTarget? = some a →
      a ∈ m.memory.guarded →
        turn.result = .error (.memory (.protectedCell a)) ∧ turn.after.state = .halted := by
  have hkeeps : Keeps P m.memory.cells m.memory.guarded m := ⟨rfl, fun _ _ => rfl, hpast⟩
  obtain ⟨hlast, hturns⟩ := hkeeps.performAll hP hmoves
  refine ⟨hlast.guarded, hlast.cells, ?_⟩
  intro turn hturn a htarget hguard
  obtain ⟨before, rfl, hbefore⟩ := hturns turn hturn
  exact step_of_storeTarget? htarget (hbefore ▸ hguard)

/-- A machine whose program stores through a pointer into a protected cell. -/
def storingThrough : Machine :=
  (new { memorySize := .small }).performAll
    [.loadWords [9, -10, 5, 0, 7, 4], .onMemory (.protect 4)]

/-- The same store is tried before and after two steps back. -/
def retried : List Operation := [.run 10, .stepBack, .stepBack, .step, .step]

/-- A store through a pointer to a protected cell is refused again when it is retried. -/
theorem protection_holds_storingThrough :
    (storingThrough.performAll retried).memory.cells[4]? = some 7 ∧
    ∃ turn, (storingThrough.turnsAll retried)[3]? = some turn ∧
      turn.before.storeTarget? = some 4 ∧
      turn.result = .error (.memory (.protectedCell 4)) ∧ turn.after.state = .halted := by
  have hguard : 4 ∈ storingThrough.memory.guarded := by decide +kernel
  have hpast : storingThrough.history.moments = [] := by decide +kernel
  have hmoves : ∀ operation ∈ retried, operation.Moves := by
    intro operation hoperation
    simp only [retried, List.mem_cons, List.not_mem_nil, or_false] at hoperation
    rcases hoperation with rfl | rfl | rfl | rfl | rfl
    · exact .run 10
    · exact .stepBack
    · exact .stepBack
    · exact .step
    · exact .step
  have htarget : ((storingThrough.turnsAll retried)[3]?.map fun turn => turn.before.storeTarget?) =
      some (some 4) := by decide +kernel
  obtain ⟨turn, hturn, hstore⟩ := Option.map_eq_some_iff.1 htarget
  obtain ⟨-, hcells, hturns⟩ := protection_holds storingThrough (fun a => a = 4)
    (fun a ha => ha ▸ hguard) (by simp [hpast]) retried hmoves
  refine ⟨(hcells 4 rfl).trans (by decide +kernel), turn, hturn, hstore, ?_⟩
  exact hturns turn (List.mem_of_getElem? hturn) 4 hstore hguard

end Machine

end TernaryMachine
