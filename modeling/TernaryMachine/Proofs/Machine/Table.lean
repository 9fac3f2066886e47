import TernaryMachine.Machine.Step

/-!
# The published instruction table

The instruction table of the machine as it is published.  It is about integers and knows no words,
flows or gates: a `Sheet` holds what an instruction can see and change, `Sheet.table` has an entry
for every integer, and `Sheet.obey` is one instruction by the table.

An instruction first has the program counter on its own word, and on the operand word behind it if
it takes one.  All instructions that the program survives end with the same increment of the program
counter, so a jump puts it one word before its target.  Addresses outside memory are no error: an
operation on one does nothing.
-/

set_option autoImplicit false

namespace TernaryMachine

/-- What an instruction can see and change, in integers.  Calls are the addresses to return to, the
latest first. -/
structure Sheet where
  acc : Int
  pc : Int
  ir : Int
  cells : List Int
  calls : List Int
  count : Int

/-- What instructions are limited by: the depth of calls and the cells that stores refuse. -/
structure Rules where
  depth : Nat
  guarded : Int → Bool

/-- How an instruction ends that does not fault. -/
inductive Signal where
  | stop
  | missing
  | goOn
  deriving DecidableEq, Repr

namespace Sheet

/-- An entry of the table: what a word does with the sheet and, if it takes one, its operand. -/
inductive Entry where
  | stop
  | data
  | alone (effect : Sheet → Except Fault Sheet)
  | withOperand (effect : Sheet → Int → Except Fault Sheet)

/-- Arithmetic wraps around at 64 bits. -/
def wrap (n : Int) : Int := n.bmod Int64.size

/-- The cell at an address, if there is one. -/
def cell? (s : Sheet) (a : Int) : Option Int := if 0 ≤ a then s.cells[a.toNat]? else none

/-- There is no cell past the last. -/
theorem cell?_of_le {s : Sheet} {a : Int} (h : (s.cells.length : Int) ≤ a) : s.cell? a = none := by
  unfold cell?
  split
  · exact List.getElem?_eq_none (by omega)
  · rfl

/-- Moves on by one word. -/
def advance (s : Sheet) : Sheet := { s with pc := s.pc + 1 }

/-- Goes to the word before the target, since every instruction moves on afterwards. -/
def jump (s : Sheet) (target : Int) : Sheet :=
  match s.cell? target with
  | none => s
  | some _ => { s with pc := target - 1 }

/-- Loads a cell into the accumulator. -/
def load (s : Sheet) (a : Int) : Sheet :=
  match s.cell? a with
  | none => s
  | some v => { s with acc := v }

/-- Stores the accumulator into a cell. -/
def store (rules : Rules) (s : Sheet) (a : Int) : Except Fault Sheet :=
  match s.cell? a with
  | none => .ok s
  | some _ =>
    if rules.guarded a then .error (.memory (.protectedCell a.toNat))
    else .ok { s with cells := s.cells.set a.toNat s.acc }

/-- An operation on the cell that a pointer in memory names. -/
def through (s : Sheet) (pointer : Int) (effect : Sheet → Int → Except Fault Sheet) :
    Except Fault Sheet :=
  match s.cell? pointer with
  | none => .ok s
  | some a => effect s a

/-- The depth is looked at first, so a call into nowhere overflows like any other. -/
def call (rules : Rules) (s : Sheet) (target : Int) : Except Fault Sheet :=
  if rules.depth ≤ s.calls.length then .error (.callStackOverflow rules.depth)
  else
    match s.cell? target with
    | none => .ok s
    | some _ => .ok { s with calls := (s.pc + 1) :: s.calls, pc := target - 1 }

/-- Takes the latest return address off the stack and goes there. -/
def ret (s : Sheet) : Except Fault Sheet :=
  match s.calls with
  | [] => .error .emptyCallStack
  | a :: rest => .ok { s with calls := rest, pc := a - 1 }

/-- The instruction table. -/
def table (rules : Rules) : Int → Entry
  -- HALT
  | 0 => .stop
  -- ADD and SUB
  | 1 => .withOperand fun s n => .ok { s with acc := wrap (s.acc + n) }
  | -1 => .withOperand fun s n => .ok { s with acc := wrap (s.acc - n) }
  -- LOAD and STORE
  | 2 => .withOperand fun s n => .ok (s.load n)
  | -2 => .withOperand fun s n => s.store rules n
  -- JMP, JZ, JNZ and JNP
  | 3 => .withOperand fun s n => .ok (s.jump n)
  | 4 => .withOperand fun s n => .ok (if s.acc = 0 then s.jump n else s)
  | -4 => .withOperand fun s n => .ok (if s.acc ≠ 0 then s.jump n else s)
  | 5 => .withOperand fun s n => .ok (if 0 < s.acc then s.jump n else s)
  -- SHL and SHR
  | 6 => .alone fun s => .ok { s with acc := wrap (s.acc * 3) }
  | -6 => .alone fun s => .ok { s with acc := s.acc.fdiv 3 }
  -- CALL and RET
  | 7 => .withOperand fun s n => s.call rules n
  | -7 => .alone ret
  -- NEG, INC and DEC
  | 8 => .alone fun s => .ok { s with acc := wrap (-s.acc) }
  | 9 => .alone fun s => .ok { s with acc := wrap (s.acc + 1) }
  | -9 => .alone fun s => .ok { s with acc := wrap (s.acc - 1) }
  -- LOADI and STOREI
  | 10 => .withOperand fun s n => s.through n fun s p => .ok (s.load p)
  | -10 => .withOperand fun s n => s.through n (store rules)
  | _ => .data

/-- What an entry makes of a sheet whose program counter is on its word. -/
def follow (s : Sheet) : Entry → Except Fault (Signal × Sheet)
  | .stop => .ok (.stop, s)
  | .data => .ok (.goOn, s.advance)
  | .alone effect => (effect s).map fun s => (.goOn, s.advance)
  | .withOperand effect =>
    match s.advance.cell? s.advance.pc with
    | none => .ok (.missing, s.advance)
    | some n => (effect s.advance n).map fun s => (.goOn, s.advance)

/-- One instruction by the table. -/
def obey (rules : Rules) (s : Sheet) (word : Int) : Except Fault (Signal × Sheet) :=
  (follow { s with ir := word } (table rules word)).map fun (signal, s) =>
    (signal, { s with count := s.count + 1 })

/-! ## Words that leave the sheet as it is -/

/-- The words that the table has an entry for. -/
def opcodes : List Int :=
  [0, 1, -1, 2, -2, 3, 4, -4, 5, 6, -6, 7, -7, 8, 9, -9, 10, -10]

/-- The opcodes whose operand is the address of a cell. -/
def addressing : List Int := [2, -2, 3, 4, -4, 5, 7, 10, -10]

/-- The opcodes with an operand. -/
def twoWord : List Int := 1 :: -1 :: addressing

/-- The sheet behind an instruction of some width that did nothing else. -/
def skip (s : Sheet) (word width : Int) : Sheet :=
  { s with pc := s.pc + width, ir := word, count := s.count + 1 }

/-- An operand with which an opcode names no cell: it is no address itself, or it is the address of
a pointer that is none. -/
def Nowhere (s : Sheet) (word operand : Int) : Prop :=
  s.cell? operand = none ∨
    ((word = 10 ∨ word = -10) ∧ ∃ p, s.cell? operand = some p ∧ s.cell? p = none)

section

variable {rules : Rules} {s : Sheet} {word : Int}

/-- A word that is not an opcode is data. -/
theorem table_of_not_mem (rules : Rules) (h : word ∉ opcodes) : table rules word = .data := by
  unfold table
  split
  iterate 18 exact absurd (by decide) h
  rfl

/-- A word that is not an opcode is skipped. -/
theorem obey_of_not_mem (h : word ∉ opcodes) : s.obey rules word = .ok (.goOn, s.skip word 1) := by
  rw [obey, table_of_not_mem rules h]
  rfl

/-- With its operand at hand, an opcode has its effect on the operand word and goes on behind it. -/
theorem obey_withOperand {effect : Sheet → Int → Except Fault Sheet} {operand : Int}
    (htable : table rules word = .withOperand effect)
    (hoperand : s.cell? (s.pc + 1) = some operand) :
    s.obey rules word =
      (effect ({ s with ir := word } : Sheet).advance operand).map fun s =>
        (.goOn, { s with pc := s.pc + 1, count := s.count + 1 }) := by
  have hcell : ({ s with ir := word } : Sheet).advance.cell?
      ({ s with ir := word } : Sheet).advance.pc = some operand := hoperand
  simp only [obey, htable, follow, hcell]
  cases effect ({ s with ir := word } : Sheet).advance operand <;> rfl

/-- Without its operand word, an opcode does nothing and control leaves memory. -/
theorem obey_of_missing (h : word ∈ twoWord) (hend : s.cell? (s.pc + 1) = none) :
    s.obey rules word = .ok (.missing, s.skip word 1) := by
  have htable : ∃ effect, table rules word = .withOperand effect := by
    simp only [twoWord, addressing, List.mem_cons, List.not_mem_nil, or_false] at h
    rcases h with rfl | rfl | rfl | rfl | rfl | rfl | rfl | rfl | rfl | rfl | rfl <;>
      exact ⟨_, rfl⟩
  obtain ⟨effect, heffect⟩ := htable
  have hcell : ({ s with ir := word } : Sheet).advance.cell?
      ({ s with ir := word } : Sheet).advance.pc = none := hend
  simp only [obey, heffect, follow, hcell]
  rfl

/-- A call with as many returns open as allowed overflows, wherever it is to go. -/
theorem obey_of_full {operand : Int} (hoperand : s.cell? (s.pc + 1) = some operand)
    (hfull : rules.depth ≤ s.calls.length) :
    s.obey rules 7 = .error (.callStackOverflow rules.depth) := by
  have htable : table rules 7 = .withOperand (call rules) := rfl
  have hoverflow : call rules ({ s with ir := 7 } : Sheet).advance operand =
      .error (.callStackOverflow rules.depth) := if_pos hfull
  rw [obey_withOperand htable hoperand, hoverflow]
  rfl

/-- A jump to nowhere does nothing. -/
theorem jump_of_none {a : Int} (h : s.cell? a = none) : s.jump a = s := by
  rw [jump, h]

/-- A load from nowhere does nothing. -/
theorem load_of_none {a : Int} (h : s.cell? a = none) : s.load a = s := by
  rw [load, h]

/-- A store to nowhere does nothing. -/
theorem store_of_none {a : Int} (h : s.cell? a = none) : s.store rules a = .ok s := by
  rw [store, h]

/-- A call to nowhere does nothing, if there is room on the stack. -/
theorem call_of_none {a : Int} (hroom : s.calls.length < rules.depth) (h : s.cell? a = none) :
    s.call rules a = .ok s := by
  rw [call, if_neg (Nat.not_le.2 hroom), h]

/-- An access through a pointer that leads nowhere does nothing. -/
theorem through_of_nowhere {operand : Int} {effect : Sheet → Int → Except Fault Sheet}
    (heffect : ∀ a, s.cell? a = none → effect s a = .ok s) (h : s.Nowhere word operand) :
    s.through operand effect = .ok s := by
  rcases h with hnone | ⟨-, p, hp, hnone⟩
  · rw [through, hnone]
  · rw [through, hp]
    exact heffect p hnone

/-- What an opcode does that names no cell, and does not overflow, is nothing. -/
theorem effect_of_nowhere (rules : Rules) (h : word ∈ addressing) :
    ∃ effect, table rules word = .withOperand effect ∧ ∀ (s : Sheet) (operand : Int),
      s.Nowhere word operand → (word = 7 → s.calls.length < rules.depth) →
        effect s operand = .ok s := by
  have hdirect : ∀ {s : Sheet} {operand : Int}, word ≠ 10 → word ≠ -10 → s.Nowhere word operand →
      s.cell? operand = none := by
    rintro s operand hten hminus (hnone | ⟨hword, -⟩)
    · exact hnone
    · exact absurd hword (not_or.2 ⟨hten, hminus⟩)
  simp only [addressing, List.mem_cons, List.not_mem_nil, or_false] at h
  -- In the order of `addressing`; only the last two go through a pointer.
  rcases h with rfl | rfl | rfl | rfl | rfl | rfl | rfl | rfl | rfl
  · refine ⟨_, rfl, ?_⟩
    intro s n hn _
    rw [load_of_none (hdirect (by decide) (by decide) hn)]
  · refine ⟨_, rfl, ?_⟩
    intro s n hn _
    rw [store_of_none (hdirect (by decide) (by decide) hn)]
  · refine ⟨_, rfl, ?_⟩
    intro s n hn _
    rw [jump_of_none (hdirect (by decide) (by decide) hn)]
  · refine ⟨_, rfl, ?_⟩
    intro s n hn _
    rw [jump_of_none (hdirect (by decide) (by decide) hn), ite_self]
  · refine ⟨_, rfl, ?_⟩
    intro s n hn _
    rw [jump_of_none (hdirect (by decide) (by decide) hn), ite_self]
  · refine ⟨_, rfl, ?_⟩
    intro s n hn _
    rw [jump_of_none (hdirect (by decide) (by decide) hn), ite_self]
  · refine ⟨_, rfl, ?_⟩
    intro s n hn hroom
    rw [call_of_none (hroom rfl) (hdirect (by decide) (by decide) hn)]
  · refine ⟨_, rfl, ?_⟩
    intro s n hn _
    apply through_of_nowhere _ hn
    intro a ha
    rw [load_of_none ha]
  · refine ⟨_, rfl, ?_⟩
    intro s n hn _
    apply through_of_nowhere _ hn
    intro a ha
    exact store_of_none ha

/-- An opcode whose operand leads nowhere is skipped with it. -/
theorem obey_of_nowhere {operand : Int} (h : word ∈ addressing)
    (hoperand : s.cell? (s.pc + 1) = some operand) (hnowhere : s.Nowhere word operand)
    (hroom : word = 7 → s.calls.length < rules.depth) :
    s.obey rules word = .ok (.goOn, s.skip word 2) := by
  obtain ⟨effect, htable, heffect⟩ := effect_of_nowhere rules h
  have hnothing := heffect ({ s with ir := word } : Sheet).advance operand hnowhere hroom
  have hpc : s.pc + 1 + 1 = s.pc + 2 := by omega
  rw [obey_withOperand htable hoperand, hnothing]
  simp only [Except.map, advance, hpc]
  rfl

end

/-! ## Why a run ends after an instruction -/

/-- The value that a probe finds on the sheet. -/
def probe? (s : Sheet) : Probe → Option Int
  | .accumulator => some s.acc
  | .memory address => s.cell? address.toNat

end Sheet

/-- Two integers compare this way. -/
def Comparison.Compares : Comparison → Int → Int → Prop
  | eq, a, b => a = b
  | ne, a, b => a ≠ b
  | ge, a, b => b ≤ a
  | le, a, b => a ≤ b
  | gt, a, b => b < a
  | lt, a, b => a < b

/-- A condition holds of a sheet; one on a cell outside memory never does. -/
def Condition.HoldsOf (c : Condition) (s : Sheet) : Prop :=
  ∃ v, s.probe? c.probe = some v ∧ c.op.Compares v c.value.toInt

namespace Sheet

/-- What comes of an instruction that has left this sheet: a stop or a missing operand comes first,
then the end of memory, then the conditions in their order. -/
inductive Verdict (conditions : List Condition) (s : Sheet) : Signal → Outcome → Prop where
  | stop : Verdict conditions s .stop (.halted .haltInstruction)
  | missing : Verdict conditions s .missing (.halted .endOfMemory)
  | outside (hpc : (s.cells.length : Int) ≤ s.pc) :
      Verdict conditions s .goOn (.halted .endOfMemory)
  | condition {before after : List Condition} {c : Condition} (hpc : s.pc < s.cells.length)
      (hsplit : conditions = before ++ c :: after) (hc : c.HoldsOf s)
      (hbefore : ∀ other ∈ before, ¬ other.HoldsOf s) :
      Verdict conditions s .goOn (.halted (.condition c))
  | continued (hpc : s.pc < s.cells.length) (hnone : ∀ c ∈ conditions, ¬ c.HoldsOf s) :
      Verdict conditions s .goOn .continued

end Sheet

end TernaryMachine
