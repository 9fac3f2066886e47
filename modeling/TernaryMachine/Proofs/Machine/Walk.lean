import TernaryMachine.Proofs.Listing.Tiling
import TernaryMachine.Proofs.Machine.Transition

/-!
# The machine walks along its listing

What a machine executes is what a listing shows at its program counter: `Core.carryOut` runs an
item, and `execute_eq_carryOut` says that executing the word there is the same.  Where control goes
then depends on the item alone, but for three kinds of instruction: a halt, a return, and one that
is sent to the cell of its operand (`Core.target?`).  All others are passed over by the width that
the listing gives them (`pc_follow_carryOut`), whatever they did to memory in between, their own
words included.
-/

set_option autoImplicit false

namespace TernaryMachine

/-- Whether an opcode sends control to the cell of its operand, with this accumulator. -/
def Opcode.takes (acc : Word) : Opcode → Bool
  | jmp => true
  | jz => acc == 0
  | jnz => acc != 0
  | jnp => 0 < acc
  | call => true
  | _ => false

/-- An opcode without an operand takes no jump. -/
theorem Opcode.takes_of_not_hasOperand {op : Opcode} (h : op.hasOperand = false) (acc : Word) :
    op.takes acc = false := by
  cases op with
  | jmp => cases h
  | jz => cases h
  | jnz => cases h
  | jnp => cases h
  | call => cases h
  | _ => rfl

/-- The item at an address of memory is well-formed. -/
theorem Item.wellFormed_atAddress {cells : Array Word} {a : Nat} {word : Word}
    (h : cells[a]? = some word) : (Item.atAddress cells a).WellFormed := by
  rw [Item.atAddress, h]
  exact Item.wellFormed_read word _

/-- An item is truncated only in the last cell. -/
theorem Item.size_le_of_truncated {cells : Array Word} {a : Nat} {op : Opcode}
    (h : Item.atAddress cells a = .truncated op) : cells.size ≤ a + 1 := by
  unfold Item.atAddress at h
  cases hcell : cells[a]? with
  | none =>
    rw [hcell] at h
    cases h
  | some word =>
    rw [hcell] at h
    exact Array.getElem?_eq_none_iff.1 (Item.second_of_truncated h)

namespace Core

variable {maxDepth : Nat} {c c' : Core} {op : Opcode} {operand : Word} {flow : Flow}

/-! ## Executing an item -/

/-- The item that a listing of memory shows at the program counter. -/
def item (c : Core) : Item := Item.atAddress c.memory.cells c.registers.pc

/-- Runs an item; the program counter is on its first word, and is moved over the operand. -/
def carryOut (c : Core) (maxDepth : Nat) : Item → Core × Except Fault Flow
  | .plain op => c.perform maxDepth op 0
  | .withOperand op operand => c.advance.perform maxDepth op operand
  | .truncated _ => (c.advance, .ok .endOfMemory)
  | .data _ => (c, .ok .next)
  | .nothing => (c, .ok .next)

/-- Executing the word at the program counter is running the item that stands there. -/
theorem execute_eq_carryOut {word : Word} (hword : c.memory.peek? c.registers.pc = some word) :
    c.execute maxDepth word = c.carryOut maxDepth c.item := by
  have hcell : c.memory.cells[c.registers.pc]? = some word := hword
  have hsecond : c.advance.memory.peek? c.advance.registers.pc =
      c.memory.cells[c.registers.pc + 1]? := rfl
  rw [item, Item.atAddress, hcell]
  cases hdecode : Opcode.decode? word with
  | none => simp only [execute, Item.read, hdecode, carryOut]
  | some op =>
    cases hoperand : op.hasOperand with
    | false => simp only [execute, Item.read, hdecode, hoperand, carryOut]; rfl
    | true =>
      simp only [execute, Item.read, hdecode, hoperand, if_true, hsecond]
      cases c.memory.cells[c.registers.pc + 1]? with
      | none => rfl
      | some operand => rfl

/-! ## Where control goes -/

/-- The cell that an item sends control to, if it is a call or a jump that is taken and its operand
addresses a cell. -/
def target? (c : Core) : Item → Option Nat
  | .withOperand op operand =>
    if op.takes c.registers.acc then c.memory.address? operand else none
  | _ => none

/-- A jump whose condition fails goes on. -/
theorem jumpIf_false (target : Option Nat) : jumpIf false target = .next := by
  cases target <;> rfl

/-- A load goes on. -/
theorem flow_loadFrom {target : Option Nat} (h : (c.loadFrom target).2 = .ok flow) :
    flow = .next := by
  unfold loadFrom at h
  split at h
  · cases h
    rfl
  · split at h
    · cases h
    · cases h
      rfl

/-- A store that does not fail goes on. -/
theorem flow_storeTo {target : Option Nat} (h : (c.storeTo target).2 = .ok flow) :
    flow = .next := by
  unfold storeTo at h
  split at h
  · cases h
    rfl
  · split at h
    · cases h
    · cases h
      rfl

/-- An access through a pointer goes on if the access itself does. -/
theorem flow_through {access : Core → Option Nat → Core × Except Fault Flow}
    (haccess : ∀ {c : Core} {target : Option Nat}, (access c target).2 = .ok flow → flow = .next)
    {pointer : Option Nat} (h : (c.through pointer access).2 = .ok flow) : flow = .next := by
  unfold through at h
  split at h
  · exact haccess h
  · split at h
    · cases h
    · exact haccess h

/-- Where an opcode sends control that neither halts nor returns: to its operand or on. -/
theorem flow_perform (h : (c.perform maxDepth op operand).2 = .ok flow) (hhalt : op ≠ .halt)
    (hret : op ≠ .ret) :
    flow = jumpIf (op.takes c.registers.acc) (c.memory.address? operand) := by
  have hnext : op.takes c.registers.acc = false → flow = .next →
      flow = jumpIf (op.takes c.registers.acc) (c.memory.address? operand) := by
    intro htakes hflow
    rw [htakes, jumpIf_false, hflow]
  cases op with
  | halt => exact absurd rfl hhalt
  | ret => exact absurd rfl hret
  | jmp => exact (Except.ok.inj h).symm
  | jz => exact (Except.ok.inj h).symm
  | jnz => exact (Except.ok.inj h).symm
  | jnp => exact (Except.ok.inj h).symm
  | call =>
    simp only [perform] at h
    split at h
    · cases h
    · cases htarget : c.memory.address? operand with
      | none =>
        rw [htarget] at h
        exact (Except.ok.inj h).symm
      | some a =>
        rw [htarget] at h
        exact (Except.ok.inj h).symm
  | load => exact hnext rfl (flow_loadFrom h)
  | store => exact hnext rfl (flow_storeTo h)
  | loadi => exact hnext rfl (flow_through flow_loadFrom h)
  | storei => exact hnext rfl (flow_through flow_storeTo h)
  | _ => exact hnext rfl (Except.ok.inj h).symm

/-- A conditional jump leads to its target, if it has one and the condition holds, and else to the
next word. -/
theorem pc_follow_jumpIf (c : Core) (condition : Bool) (target : Option Nat) :
    (c.follow (jumpIf condition target)).registers.pc =
      (if condition then target else none).getD (c.registers.pc + 1) := by
  cases condition with
  | false =>
    rw [jumpIf_false]
    rfl
  | true => cases target <;> rfl

/-- An opcode leads to its target, if it takes one, and else to the next word, halts and returns
apart. -/
theorem pc_follow_perform (h : c.perform maxDepth op operand = (c', .ok flow))
    (hhalt : op ≠ .halt) (hret : op ≠ .ret) :
    (c'.follow flow).registers.pc =
      (if op.takes c.registers.acc then c.memory.address? operand else none).getD
        (c.registers.pc + 1) := by
  have hpc : c'.registers.pc = c.registers.pc := by
    have heffect := effect_perform c maxDepth op operand
    rw [h] at heffect
    exact heffect.pc_eq
  rw [flow_perform (congrArg Prod.snd h) hhalt hret, pc_follow_jumpIf, hpc]

/-- An item that neither halts nor returns sends control to its target, or on by its width. -/
theorem pc_follow_carryOut {item : Item} (hitem : item.WellFormed)
    (h : c.carryOut maxDepth item = (c', .ok flow)) (hhalt : item ≠ .plain .halt)
    (hret : item ≠ .plain .ret) :
    (c'.follow flow).registers.pc = (c.target? item).getD (c.registers.pc + item.width) := by
  cases item with
  | plain op =>
    have hop : op ≠ .halt ∧ op ≠ .ret := ⟨fun h => hhalt (h ▸ rfl), fun h => hret (h ▸ rfl)⟩
    rw [pc_follow_perform h hop.1 hop.2, Opcode.takes_of_not_hasOperand hitem]
    rfl
  | withOperand op operand =>
    have hop : op ≠ .halt ∧ op ≠ .ret := by
      constructor
      · rintro rfl
        cases hitem
      · rintro rfl
        cases hitem
    exact pc_follow_perform h hop.1 hop.2
  | truncated op =>
    cases h
    rfl
  | data w =>
    cases h
    rfl
  | nothing => cases hitem

end Core

namespace Machine

section Step

variable {m : Machine} {outcome : Outcome} (hexecutes : m.executes = true)
  (hresult : m.step.2 = .ok outcome)

include hexecutes hresult

/-- A step that does not fault runs the item at the program counter. -/
theorem carryOut_of_step :
    ∃ word core flow, m.gate = .run word ∧
      (m.fetch word).toCore.execute m.config.maxCallDepth.toNat word = (core, .ok flow) ∧
      (m.fetch word).toCore.carryOut m.config.maxCallDepth.toNat m.item = (core, .ok flow) ∧
      m.item.WellFormed := by
  obtain ⟨word, core, flow, hgate, hexec⟩ := exists_flow_of_step hexecutes hresult
  have hword := peek?_of_gate hgate
  have hcarry := hexec
  rw [Core.execute_eq_carryOut (c := (m.fetch word).toCore) hword] at hcarry
  exact ⟨word, core, flow, hgate, hexec, hcarry, Item.wellFormed_atAddress hword⟩

/-- A step onto a halt leaves the program counter. -/
theorem pc_step_of_halt (hhalt : m.item = .plain .halt) :
    m.step.1.registers.pc = m.registers.pc := by
  obtain ⟨word, core, flow, hgate, hexec, hcarry, -⟩ := carryOut_of_step hexecutes hresult
  rw [hhalt] at hcarry
  cases hcarry
  exact congrArg (fun c => c.registers.pc) (toCore_step hgate hexec)

/-- Any other step leads to the target of the item, if it takes one, and else behind it, returns
apart. -/
theorem pc_step (hhalt : m.item ≠ .plain .halt) (hret : m.item ≠ .plain .ret) :
    m.step.1.registers.pc = (m.target? m.item).getD (m.registers.pc + m.item.width) := by
  obtain ⟨word, core, flow, hgate, hexec, hcarry, hitem⟩ := carryOut_of_step hexecutes hresult
  have hfollow := Core.pc_follow_carryOut hitem hcarry hhalt hret
  rw [← toCore_step hgate hexec] at hfollow
  exact hfollow

/-- An operand can only be missing at the end of memory, and there the machine stops. -/
theorem step_of_truncated {op : Opcode} (htruncated : m.item = .truncated op) :
    m.step.1.registers.pc = m.memory.size ∧ outcome = .halted .endOfMemory := by
  obtain ⟨word, core, flow, hgate, hexec, hcarry, -⟩ := carryOut_of_step hexecutes hresult
  rw [htruncated] at hcarry
  cases hcarry
  have hend : m.memory.size ≤ m.registers.pc + 1 := Item.size_le_of_truncated htruncated
  have hinside := pc_lt_of_gate hgate
  have hmoved : m.step.1.registers.pc = m.registers.pc + 1 :=
    congrArg (fun c => c.registers.pc) (toCore_step hgate hexec)
  rw [(Move.stop hgate hexec rfl).step_eq] at hresult
  exact ⟨by omega, (Except.ok.inj hresult).symm⟩

end Step

/-- **The machine walks along its listing.**  A listing of any words begins at address 0, every
entry begins where the one before it ends, and the last one ends with the words; so no entry reaches
beyond them, and each word is shown in one entry.  A step of any machine that executes what stands
at the program counter and does not fault moves it on by the width that the listing of the cells
before the step gives there, unless that is a halt, which leaves it, a return, or a call or a jump
that is taken and goes to a cell.  An operand that is missing at the end of memory is no exception:
the width is one, and the machine has reached the end. -/
theorem walks_along_listing :
    (∀ words : List Word,
      (Listing.entries words).head?.map ListingEntry.address =
        (if 0 < words.length then some 0 else none) ∧
      (Listing.entries words).IsChain
        (fun entry next => entry.address + entry.item.width = next.address) ∧
      (∀ last, (Listing.entries words).getLast? = some last →
        last.address + last.item.width = words.length) ∧
      (∀ entry ∈ Listing.entries words,
        entry.item = Item.atAddress words.toArray entry.address ∧
        entry.address + entry.item.width ≤ words.length ∧
        entry.item.words = (words.drop entry.address).take entry.item.width) ∧
      (∀ i < words.length, ∃! entry, entry ∈ Listing.entries words ∧
        entry.address ≤ i ∧ i < entry.address + entry.item.width)) ∧
    ∀ (m : Machine) (outcome : Outcome), m.executes = true → m.step.2 = .ok outcome →
      let shown := Item.atAddress m.memory.cells m.registers.pc
      (shown = .plain .halt → m.step.1.registers.pc = m.registers.pc) ∧
      (shown ≠ .plain .halt → shown ≠ .plain .ret → m.target? shown = none →
        m.step.1.registers.pc = m.registers.pc + shown.width) ∧
      (∀ a, m.target? shown = some a → m.step.1.registers.pc = a) ∧
      (∀ op, shown = .truncated op → shown.width = 1 ∧
        m.step.1.registers.pc = m.memory.size ∧ outcome = .halted .endOfMemory) := by
  constructor
  · intro words
    have htiles := Listing.tiles_entries words
    refine ⟨htiles.head_address, htiles.isChain, fun last hlast => htiles.last_end hlast, ?_,
      fun i hi => htiles.existsUnique (Nat.zero_le i) hi⟩
    intro entry hentry
    obtain ⟨-, hitem, hend⟩ := htiles.mem hentry
    have hpos := entry.item.width_pos
    have hinside : entry.address < words.length := by omega
    have hwords := Listing.words_atAddress hinside
    rw [← hitem] at hwords
    exact ⟨hitem, hend, hwords⟩
  · intro m outcome hexecutes hresult shown
    have hpc := pc_step hexecutes hresult
    refine ⟨pc_step_of_halt hexecutes hresult, ?_, ?_, ?_⟩
    · intro hhalt hret htarget
      have hon : m.target? m.item = none := htarget
      rw [hpc hhalt hret, hon]
      rfl
    · intro a htarget
      have hplain : ∀ op, shown ≠ .plain op := by
        intro op hop
        rw [hop] at htarget
        cases htarget
      have hsent : m.target? m.item = some a := htarget
      rw [hpc (hplain _) (hplain _), hsent]
      rfl
    · intro op htruncated
      obtain ⟨hend, houtcome⟩ := step_of_truncated hexecutes hresult htruncated
      exact ⟨by rw [htruncated]; rfl, hend, houtcome⟩

/-- A store that overwrites its own opcode with a halt is still passed over by two words. -/
theorem walks_along_listing_overwriting :
    let m := (new { memorySize := .small }).loadWords [-2, 0]
    m.step.1.memory.peek? 0 = some 0 ∧ m.step.1.registers.pc = 2 := by
  intro m
  obtain ⟨-, hpass, -⟩ := walks_along_listing.2 m .continued (by decide) (by decide)
  exact ⟨by decide, hpass (by decide) (by decide) (by decide)⟩

end Machine

end TernaryMachine
