import TernaryMachine.Proofs.Machine.Transition

/-!
# The cells that a step accesses

Instructions read their operands for nothing; only loads and stores access cells as data, through
`Memory.touch`.  `Machine.dataAccesses` says which cells the next step touches, in order, by
looking at the machine alone.  `counts_step` ties it to the step itself: the counters after the
step are those of a memory touched at these cells and nowhere else.

Every one of them is a cell of memory (`lt_size_of_mem_dataAccesses`).
-/

set_option autoImplicit false

namespace TernaryMachine

namespace Memory

/-- Memory after accesses to a row of cells. -/
def touchAll (m : Memory) (cells : List Nat) : Memory := cells.foldl touch m

/-- The cell that the word in a cell addresses, if there is one. -/
def pointee? (m : Memory) (p : Nat) : Option Nat := (m.peek? p).bind m.address?

/-- A cell, unless it is protected. -/
def writable (m : Memory) (a : Nat) : List Nat := if a ∈ m.guarded then [] else [a]

/-- An access is added to the counter of its cell, and only while accesses are counted. -/
theorem counts_touch (m : Memory) (a : Nat) :
    (m.touch a).counts = if m.tracking then m.counts.modify a (· + 1) else m.counts := by
  unfold touch
  split <;> rfl

/-- Counting an access leaves what words address. -/
@[simp]
theorem address?_touch (m : Memory) (a : Nat) (w : Word) :
    (m.touch a).address? w = m.address? w := by
  simp only [address?, size_touch]

/-- Counting an access leaves which cells can be written. -/
@[simp]
theorem writable_touch (m : Memory) (a b : Nat) : (m.touch a).writable b = m.writable b := by
  simp only [writable, guarded_touch]

/-- A pointer leads to a cell of memory. -/
theorem lt_size_of_pointee? {m : Memory} {p a : Nat} (h : m.pointee? p = some a) : a < m.size := by
  obtain ⟨w, -, haddress⟩ := Option.bind_eq_some_iff.1 h
  exact (address?_eq_some_iff.1 haddress).2

/-- Writing to a cell accesses no other one. -/
theorem eq_of_mem_writable {m : Memory} {a b : Nat} (h : b ∈ m.writable a) : b = a := by
  unfold writable at h
  split at h
  · cases h
  · exact List.mem_singleton.1 h

end Memory

namespace Core

/-- The cells that an opcode with its operand accesses, in order: the cell of the operand, and
for the indirect opcodes then the cell that the pointer there names.  A protected cell that is to
be written is not accessed. -/
def accesses (c : Core) (op : Opcode) (operand : Word) : List Nat :=
  match c.memory.address? operand with
  | none => []
  | some a =>
    match op with
    | .load => [a]
    | .store => c.memory.writable a
    | .loadi => a :: (c.memory.pointee? a).toList
    | .storei => a :: (c.memory.pointee? a).toList.flatMap c.memory.writable
    | _ => []

/-- The cells that executing a word accesses. -/
def dataAccesses (c : Core) (word : Word) : List Nat :=
  match Opcode.decode? word with
  | none => []
  | some op =>
    if op.hasOperand then
      match c.memory.peek? (c.registers.pc + 1) with
      | none => []
      | some operand => c.accesses op operand
    else []

/-- An opcode accesses cells of memory only. -/
theorem lt_size_of_mem_accesses {c : Core} {op : Opcode} {operand : Word} {a : Nat}
    (h : a ∈ c.accesses op operand) : a < c.memory.size := by
  unfold accesses at h
  cases htarget : c.memory.address? operand with
  | none => simp [htarget] at h
  | some p =>
    have hp : p < c.memory.size := (Memory.address?_eq_some_iff.1 htarget).2
    simp only [htarget] at h
    cases op with
    | load => rwa [List.mem_singleton.1 h]
    | store => rwa [Memory.eq_of_mem_writable h]
    | loadi =>
      rcases List.mem_cons.1 h with rfl | hpointee
      · exact hp
      · exact Memory.lt_size_of_pointee? (Option.mem_toList.1 hpointee)
    | storei =>
      rcases List.mem_cons.1 h with rfl | hpointee
      · exact hp
      · obtain ⟨b, hb, hab⟩ := List.mem_flatMap.1 hpointee
        rw [Memory.eq_of_mem_writable hab]
        exact Memory.lt_size_of_pointee? (Option.mem_toList.1 hb)
    | _ => cases h

/-- Executing a word accesses cells of memory only. -/
theorem lt_size_of_mem_dataAccesses {c : Core} {word : Word} {a : Nat}
    (h : a ∈ c.dataAccesses word) : a < c.memory.size := by
  unfold dataAccesses at h
  split at h
  · cases h
  · split at h
    · split at h
      · cases h
      · exact lt_size_of_mem_accesses h
    · cases h

/-! ## What the counters say -/

/-- Loading from a cell counts one access to it. -/
theorem counts_loadFrom {c : Core} {a : Nat} (ha : a < c.memory.size) :
    (c.loadFrom (some a)).1.memory.counts = (c.memory.touchAll [a]).counts := by
  obtain ⟨w, -, hload⟩ := Memory.load_of_lt ha
  simp only [loadFrom, hload]
  rfl

/-- Storing to a cell counts one access to it, unless it is protected. -/
theorem counts_storeTo {c : Core} {a : Nat} (ha : a < c.memory.size) :
    (c.storeTo (some a)).1.memory.counts =
      (c.memory.touchAll (c.memory.writable a)).counts := by
  unfold Memory.writable
  by_cases hg : a ∈ c.memory.guarded
  · simp only [storeTo, Memory.store_of_guarded ha hg, if_pos hg]
    rfl
  · simp only [storeTo, Memory.store_of_free ha hg, if_neg hg]
    show ((c.memory.write a c.registers.acc).touch a).counts = (c.memory.touch a).counts
    rw [Memory.counts_touch, Memory.counts_touch]
    rfl

/-- The pointer's own cell is touched first, and what it names is looked up in memory before. -/
theorem counts_through {c : Core} {p : Nat} (hp : p < c.memory.size)
    (access : Core → Option Nat → Core × Except Fault Flow) (reached : Nat → List Nat)
    (hnone : ∀ c : Core, access c none = (c, .ok .next))
    (haccess : ∀ a < c.memory.size,
      (access { c with memory := c.memory.touch p } (some a)).1.memory.counts =
        ((c.memory.touch p).touchAll (reached a)).counts) :
    (c.through (some p) access).1.memory.counts =
      (c.memory.touchAll (p :: (c.memory.pointee? p).toList.flatMap reached)).counts := by
  obtain ⟨w, hcell, hload⟩ := Memory.load_of_lt hp
  have hpointee : c.memory.pointee? p = c.memory.address? w := by
    simp only [Memory.pointee?, Memory.peek?, hcell, Option.bind_some]
  simp only [through, hload, Memory.address?_touch, hpointee]
  cases htarget : c.memory.address? w with
  | none =>
    rw [hnone]
    rfl
  | some a =>
    rw [haccess a (Memory.address?_eq_some_iff.1 htarget).2]
    simp only [Option.toList_some, List.flatMap_cons, List.flatMap_nil, List.append_nil]
    rfl

/-- Performing an opcode counts just its accesses. -/
theorem counts_perform (c : Core) (maxDepth : Nat) (op : Opcode) (operand : Word) :
    (c.perform maxDepth op operand).1.memory.counts =
      (c.memory.touchAll (c.accesses op operand)).counts := by
  cases htarget : c.memory.address? operand with
  | none =>
    have haccesses : c.accesses op operand = [] := by simp only [accesses, htarget]
    rw [haccesses]
    cases op with
    | load => simp only [perform, htarget, loadFrom]; rfl
    | store => simp only [perform, htarget, storeTo]; rfl
    | loadi => simp only [perform, htarget, through, loadFrom]; rfl
    | storei => simp only [perform, htarget, through, storeTo]; rfl
    | call => simp only [perform, htarget]; split <;> rfl
    | ret => simp only [perform]; split <;> rfl
    | _ => rfl
  | some a =>
    have ha : a < c.memory.size := (Memory.address?_eq_some_iff.1 htarget).2
    cases op with
    | load =>
      simp only [perform, accesses, htarget]
      exact counts_loadFrom ha
    | store =>
      simp only [perform, accesses, htarget]
      exact counts_storeTo ha
    | loadi =>
      -- Whatever the pointer names is loaded, so every pointee is an access.
      have hthrough := counts_through ha loadFrom (fun b => [b]) (fun _ => rfl)
        fun b hb => counts_loadFrom (c := { c with memory := c.memory.touch a }) (by simpa using hb)
      rw [List.flatMap_singleton'] at hthrough
      simp only [perform, accesses, htarget]
      exact hthrough
    | storei =>
      have hthrough := counts_through ha storeTo c.memory.writable (fun _ => rfl) fun b hb => by
        have hstore := counts_storeTo (c := { c with memory := c.memory.touch a }) (a := b)
          (by simpa using hb)
        simpa using hstore
      simp only [perform, accesses, htarget]
      exact hthrough
    | call => simp only [perform, htarget, accesses]; split <;> rfl
    | ret => simp only [perform, htarget, accesses]; split <;> rfl
    | _ => simp only [accesses, htarget]; rfl

/-- Executing a word counts just its accesses. -/
theorem counts_execute (c : Core) (maxDepth : Nat) (word : Word) :
    (c.execute maxDepth word).1.memory.counts =
      (c.memory.touchAll (c.dataAccesses word)).counts := by
  unfold execute dataAccesses
  cases Opcode.decode? word with
  | none => rfl
  | some op =>
    by_cases hoperand : op.hasOperand = true
    · simp only [hoperand, if_true]
      show (match c.memory.peek? (c.registers.pc + 1) with
        | none => (c.advance, Except.ok Flow.endOfMemory)
        | some operand => c.advance.perform maxDepth op operand).1.memory.counts = _
      cases c.memory.peek? (c.registers.pc + 1) with
      | none => rfl
      | some operand => exact counts_perform c.advance maxDepth op operand
    · have hnone : c.accesses op 0 = [] := by
        cases op with
        | load => contradiction
        | store => contradiction
        | loadi => contradiction
        | storei => contradiction
        | _ => simp only [accesses]; split <;> rfl
      simp only [if_neg hoperand]
      rw [counts_perform c maxDepth op 0, hnone]

end Core

namespace Machine

/-- The cells that the next step accesses as data, in order. -/
def dataAccesses (m : Machine) : List Nat :=
  match m.gate with
  | .run word => m.toCore.dataAccesses word
  | _ => []

/-- A step accesses cells of memory only. -/
theorem lt_size_of_mem_dataAccesses {m : Machine} {a : Nat} (h : a ∈ m.dataAccesses) :
    a < m.memory.size := by
  unfold dataAccesses at h
  split at h
  · exact Core.lt_size_of_mem_dataAccesses h
  · cases h

/-- A move counts just the accesses of the step. -/
theorem Move.counts_eq {m m' : Machine} {result : Except Fault Outcome}
    (h : m.Move m' result) :
    m'.memory.counts = (m.memory.touchAll m.dataAccesses).counts := by
  -- Fetching changes nothing that an access depends on.
  have hexecute : ∀ {word : Word} {core : Core} {flow : Except Fault Flow},
      (m.fetch word).toCore.execute m.config.maxCallDepth.toNat word = (core, flow) →
        core.memory.counts = (m.memory.touchAll (m.toCore.dataAccesses word)).counts := by
    intro word core flow hexec
    have h := Core.counts_execute (m.fetch word).toCore m.config.maxCallDepth.toNat word
    rw [hexec] at h
    exact h
  unfold dataAccesses
  cases h with
  | refused hgate => rw [hgate]; rfl
  | exhausted hgate => rw [hgate]; rfl
  | pause hgate => rw [hgate]; rfl
  | outside hgate => rw [hgate]; rfl
  | fault hgate hexec =>
    rw [hgate]
    exact hexecute hexec
  | @stop word core flow reason hgate hexec _ =>
    rw [hgate]
    show (core.follow flow).memory.counts = _
    rw [Core.memory_follow]
    exact hexecute hexec
  | @go word core flow hgate hexec _ =>
    rw [hgate]
    show (core.follow flow).memory.counts = _
    rw [Core.memory_follow]
    exact hexecute hexec

/-- A step counts the accesses to the cells of `dataAccesses` and changes no other counter. -/
theorem counts_step (m : Machine) :
    m.step.1.memory.counts = (m.memory.touchAll m.dataAccesses).counts :=
  m.move_step.counts_eq

end Machine

end TernaryMachine
