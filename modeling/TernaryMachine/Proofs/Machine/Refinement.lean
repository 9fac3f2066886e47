import TernaryMachine.Proofs.Machine.Table
import TernaryMachine.Proofs.Machine.Transition

/-!
# Steps follow the published table

`Core.sheet` and `Machine.sheet` read a core or a machine as the table sees it, in integers.  What
executing a word comes to on the sheet, the program counter moved on, is `Core.tell`, and
`Core.tell_execute` is the simulation: it is what the entry of the word says.  Every opcode gets
there by a lemma on its own operation (`tell_jumpIf`, `tell_storeTo`, `tell_through` and so on),
with `addresses` for which operands name a cell.

`verdict` does the same for why a run ends, and `obeys_of_gate` puts the two together for a step.
-/

set_option autoImplicit false

namespace TernaryMachine

/-- The core as the table sees it. -/
def Core.sheet (c : Core) (count : Nat) : Sheet where
  acc := c.registers.acc.toInt
  pc := c.registers.pc
  ir := c.registers.ir.toInt
  cells := c.memory.cells.toList.map Int64.toInt
  calls := c.callStack.map Int.ofNat
  count := count

/-- The rules that the core is under. -/
def Core.rules (c : Core) (maxDepth : Nat) : Rules where
  depth := maxDepth
  guarded a := c.memory.isProtected a.toNat

/-- What the table says of a flow of control: where it leads to is on the sheet. -/
def Flow.signal : Flow → Signal
  | next => .goOn
  | jump _ => .goOn
  | halt => .stop
  | endOfMemory => .missing

/-- What an executed word comes to, as the table says it. -/
def Core.tell (count : Nat) : Core × Except Fault Flow → Except Fault (Signal × Sheet)
  | (_, .error f) => .error f
  | (c, .ok flow) => .ok (flow.signal, (c.follow flow).sheet count)

namespace Core

open Sheet (wrap)

variable {count maxDepth : Nat}

/-! ## Cells -/

/-- A cell of the sheet is the value of the cell of memory, and past memory there is none. -/
theorem cell?_sheet (c : Core) (count a : Nat) :
    (c.sheet count).cell? a = (c.memory.peek? a).map Int64.toInt := by
  have ha : (0 : Int) ≤ a := Int.natCast_nonneg a
  rw [Sheet.cell?, if_pos ha, Int.toNat_natCast]
  simp [sheet, Memory.peek?]

/-- A word addresses a cell of the core just if its integer does on the sheet. -/
theorem addresses (c : Core) (count : Nat) (w : Word) :
    (c.memory.address? w = none ∧ (c.sheet count).cell? w.toInt = none) ∨
      ∃ a v, c.memory.address? w = some a ∧ a < c.memory.size ∧ w.toInt = a ∧
        c.memory.peek? a = some v ∧ (c.sheet count).cell? a = some v.toInt := by
  by_cases hinside : 0 ≤ w.toInt ∧ w.toInt.toNat < c.memory.size
  · have hpeek := Array.getElem?_eq_getElem hinside.2
    refine .inr ⟨w.toInt.toNat, _, if_pos hinside, hinside.2,
      (Int.toNat_of_nonneg hinside.1).symm, hpeek, ?_⟩
    rw [cell?_sheet, Memory.peek?, hpeek]
    rfl
  · refine .inl ⟨if_neg hinside, ?_⟩
    by_cases hw : 0 ≤ w.toInt
    · have hend : ¬ w.toInt.toNat < c.memory.size := fun hlt => hinside ⟨hw, hlt⟩
      rw [← Int.toNat_of_nonneg hw, cell?_sheet, Memory.peek?,
        Array.getElem?_eq_none (Nat.not_lt.1 hend)]
      rfl
    · exact if_neg hw

/-- Counting an access makes no difference to the sheet. -/
theorem sheet_touch (c : Core) (a : Nat) :
    ({ c with memory := c.memory.touch a } : Core).sheet count = c.sheet count := by
  simp only [sheet, Memory.cells_touch]

/-! ## One operation -/

/-- A new accumulator shows on the sheet as its value. -/
theorem tell_setAcc {w : Word} {n : Int} (hw : w.toInt = n) (c : Core) :
    tell count (c.setAcc w, .ok .next) =
      .ok (.goOn, { c.sheet count with acc := n }.advance) := by
  rw [← hw]
  rfl

/-- An opcode that does nothing only moves the sheet on. -/
theorem tell_next (c : Core) :
    tell count (c, .ok .next) = .ok (.goOn, (c.sheet count).advance) := rfl

/-- To one word before the target and on by one word is a jump to the target. -/
theorem tell_jump (c : Core) (a : Nat) :
    tell count (c, .ok (.jump a)) =
      .ok (.goOn, { c.sheet count with pc := (a : Int) - 1 }.advance) := by
  have hpc : (a : Int) - 1 + 1 = a := by omega
  simp only [Sheet.advance, hpc]
  rfl

/-- A conditional jump goes to the target that the table gives, or goes on. -/
theorem tell_jumpIf {condition : Bool} {P : Prop} [Decidable P] (hP : condition = true ↔ P)
    (c : Core) (w : Word) :
    tell count (c, .ok (jumpIf condition (c.memory.address? w))) =
      .ok (.goOn, (if P then (c.sheet count).jump w.toInt else c.sheet count).advance) := by
  rcases c.addresses count w with ⟨htarget, hcell⟩ | ⟨a, v, htarget, -, hw, -, hcell⟩
  · simp only [htarget, jumpIf, Sheet.jump, hcell, ite_self]
    exact tell_next c
  · cases condition with
    | false =>
      have hnot : ¬ P := fun h => absurd (hP.2 h) (by decide)
      rw [htarget, if_neg hnot]
      exact tell_next c
    | true =>
      rw [htarget, if_pos (hP.1 rfl), Sheet.jump, hw, hcell]
      exact tell_jump c a

/-- A call follows the table. -/
theorem tell_call (c : Core) (w : Word) :
    tell count (c.perform maxDepth .call w) =
      ((c.sheet count).call (c.rules maxDepth) w.toInt).map fun s => (.goOn, s.advance) := by
  have hlength : (c.sheet count).calls.length = c.callStack.length := List.length_map _
  by_cases hdepth : maxDepth ≤ c.callStack.length
  · simp only [perform, Sheet.call, rules, hlength, if_pos hdepth]
    rfl
  · simp only [perform, Sheet.call, rules, hlength, if_neg hdepth]
    rcases c.addresses count w with ⟨htarget, hcell⟩ | ⟨a, v, htarget, -, hw, -, hcell⟩
    · simp only [htarget, hcell]
      exact tell_next c
    · simp only [htarget, hw, hcell]
      exact tell_jump { c with callStack := (c.registers.pc + 1) :: c.callStack } a

/-- A return follows the table. -/
theorem tell_ret (c : Core) (w : Word) :
    tell count (c.perform maxDepth .ret w) =
      (c.sheet count).ret.map fun s => (.goOn, s.advance) := by
  cases hstack : c.callStack with
  | nil =>
    simp only [perform, hstack, Sheet.ret, sheet, List.map_nil]
    rfl
  | cons a rest =>
    simp only [perform, hstack, Sheet.ret, sheet, List.map_cons]
    exact tell_jump { c with callStack := rest } a

/-- A load follows the table. -/
theorem tell_loadFrom (c : Core) (w : Word) :
    tell count (c.loadFrom (c.memory.address? w)) =
      .ok (.goOn, ((c.sheet count).load w.toInt).advance) := by
  rcases c.addresses count w with ⟨htarget, hcell⟩ | ⟨a, v, htarget, -, hw, hpeek, hcell⟩
  · simp only [htarget, loadFrom, Sheet.load, hcell]
    exact tell_next c
  · simp only [htarget, loadFrom, Memory.load, hpeek, Sheet.load, hw, hcell]
    rw [tell_next]
    simp only [sheet, Memory.cells_touch, setAcc]

/-- A store follows the table. -/
theorem tell_storeTo (c : Core) (w : Word) :
    tell count (c.storeTo (c.memory.address? w)) =
      ((c.sheet count).store (c.rules maxDepth) w.toInt).map fun s => (.goOn, s.advance) := by
  rcases c.addresses count w with ⟨htarget, hcell⟩ | ⟨a, v, htarget, ha, hw, -, hcell⟩
  · simp only [htarget, storeTo, Sheet.store, hcell]
    exact tell_next c
  · by_cases hguarded : a ∈ c.memory.guarded
    · have hprotected : c.memory.isProtected a = true :=
        AddressSet.contains_eq_true_iff.2 hguarded
      simp only [htarget, storeTo, Memory.store_of_guarded ha hguarded, Sheet.store, hw, hcell,
        rules, Int.toNat_natCast, hprotected, if_true]
      rfl
    · have hfree : ¬ c.memory.isProtected a = true := fun h =>
        hguarded (AddressSet.contains_eq_true_iff.1 h)
      simp only [htarget, storeTo, Memory.store_of_free ha hguarded, Sheet.store, hw, hcell,
        rules, Int.toNat_natCast, if_neg hfree]
      rw [tell_next]
      simp only [sheet, Memory.cells_touch, Memory.write, Array.toList_setIfInBounds, List.map_set]
      rfl

/-- An access through a pointer is the access to the cell that it points to, if it is in a cell
itself. -/
theorem tell_through {access : Core → Option Nat → Core × Except Fault Flow}
    {effect : Sheet → Int → Except Fault Sheet} (hnone : ∀ c, access c none = (c, .ok .next))
    (c : Core)
    (haccess : ∀ (a : Nat) (v : Word),
      tell count (access { c with memory := c.memory.touch a } ((c.memory.touch a).address? v)) =
        (effect (c.sheet count) v.toInt).map fun s => (.goOn, s.advance))
    (w : Word) :
    tell count (c.through (c.memory.address? w) access) =
      ((c.sheet count).through w.toInt effect).map fun s => (.goOn, s.advance) := by
  rcases c.addresses count w with ⟨htarget, hcell⟩ | ⟨a, v, htarget, -, hw, hpeek, hcell⟩
  · simp only [htarget, through, hnone, Sheet.through, hcell]
    exact tell_next c
  · simp only [htarget, through, Memory.load, hpeek, Sheet.through, hw, hcell]
    exact haccess a v

/-- A load through a pointer follows the table. -/
theorem tell_loadi (c : Core) (w : Word) :
    tell count (c.perform maxDepth .loadi w) =
      ((c.sheet count).through w.toInt fun s p => .ok (s.load p)).map
        fun s => (.goOn, s.advance) := by
  apply tell_through (fun _ => rfl)
  intro a v
  rw [← c.sheet_touch a]
  exact tell_loadFrom { c with memory := c.memory.touch a } v

/-- A store through a pointer follows the table. -/
theorem tell_storei (c : Core) (w : Word) :
    tell count (c.perform maxDepth .storei w) =
      ((c.sheet count).through w.toInt (Sheet.store (c.rules maxDepth))).map
        fun s => (.goOn, s.advance) := by
  apply tell_through (fun _ => rfl)
  intro a v
  have hrules : ({ c with memory := c.memory.touch a } : Core).rules maxDepth =
      c.rules maxDepth := by
    simp only [rules, Memory.isProtected, Memory.guarded_touch]
  rw [← c.sheet_touch a, ← hrules]
  exact tell_storeTo { c with memory := c.memory.touch a } v

/-! ## One word -/

section

variable {op : Opcode}

/-- The word of an opcode without an operand performs it where it stands. -/
theorem execute_alone (hop : op.hasOperand = false) (c : Core) :
    c.execute maxDepth op.encode = c.perform maxDepth op 0 := by
  simp only [execute, Opcode.decode?_encode, hop, Bool.false_eq_true, if_false]

/-- An opcode with operand does what its entry says if it does so with every operand. -/
theorem tell_withOperand {effect : Sheet → Int → Except Fault Sheet}
    (hop : op.hasOperand = true) (c : Core)
    (heffect : ∀ w : Word, tell count (c.advance.perform maxDepth op w) =
      (effect (c.advance.sheet count) w.toInt).map fun s => (.goOn, s.advance)) :
    tell count (c.execute maxDepth op.encode) =
      (c.sheet count).follow (.withOperand effect) := by
  have hcell : (c.sheet count).advance.cell? (c.sheet count).advance.pc =
      (c.advance.memory.peek? c.advance.registers.pc).map Int64.toInt :=
    c.advance.cell?_sheet count c.advance.registers.pc
  simp only [execute, Opcode.decode?_encode, hop, if_true, Sheet.follow, hcell]
  cases c.advance.memory.peek? c.advance.registers.pc with
  | none => rfl
  | some w => exact heffect w

end

/-- In the table, too, a word that is no opcode is data. -/
theorem table_of_data (rules : Rules) {w : Word} (h : Opcode.decode? w = none) :
    Sheet.table rules w.toInt = .data := by
  apply Sheet.table_of_not_mem
  intro hmem
  have hcodes : Sheet.opcodes = Opcode.all.map fun op => op.encode.toInt := by decide
  rw [hcodes] at hmem
  obtain ⟨op, -, heq⟩ := List.mem_map.1 hmem
  rw [← Int64.toInt_inj.1 heq, Opcode.decode?_encode] at h
  cases h

/-- The third of a word, rounded down, is that of its value. -/
theorem toInt_floorThird (w : Word) : (Word.floorThird w).toInt = w.toInt.fdiv 3 := by
  have hlo := w.le_toInt
  have hhi := w.toInt_lt
  rw [Word.floorThird, Int64.toInt_ofInt, Int.fdiv_eq_ediv_of_nonneg _ (by decide)]
  exact Int.bmod_eq_of_le (by simp only [Int64.size]; omega) (by simp only [Int64.size]; omega)

/-- Executing a word is following its entry in the table. -/
theorem tell_execute (c : Core) (w : Word) :
    tell count (c.execute maxDepth w) =
      (c.sheet count).follow (Sheet.table (c.rules maxDepth) w.toInt) := by
  cases hdecode : Opcode.decode? w with
  | none =>
    rw [table_of_data _ hdecode]
    simp only [execute, hdecode]
    exact tell_next c
  | some op =>
    obtain rfl := Opcode.decode?_eq_some_iff.1 hdecode
    cases op with
    | halt => rfl
    | add => exact tell_withOperand rfl c fun w => tell_setAcc (Int64.toInt_add _ w) c.advance
    | sub => exact tell_withOperand rfl c fun w => tell_setAcc (Int64.toInt_sub _ w) c.advance
    | load => exact tell_withOperand rfl c fun w => tell_loadFrom c.advance w
    | store => exact tell_withOperand rfl c fun w => tell_storeTo c.advance w
    | jmp => exact tell_withOperand rfl c fun w => tell_jumpIf (iff_true_intro rfl) c.advance w
    | jz =>
      have hzero : (c.registers.acc == 0) = true ↔ c.registers.acc.toInt = 0 := by
        rw [beq_iff_eq, ← Int64.toInt_inj, Int64.toInt_zero]
      exact tell_withOperand rfl c fun w => tell_jumpIf hzero c.advance w
    | jnz =>
      have hnonzero : (c.registers.acc != 0) = true ↔ c.registers.acc.toInt ≠ 0 := by
        rw [bne_iff_ne, Ne, ← Int64.toInt_inj, Int64.toInt_zero]
      exact tell_withOperand rfl c fun w => tell_jumpIf hnonzero c.advance w
    | jnp =>
      have hpositive : decide (0 < c.registers.acc) = true ↔ 0 < c.registers.acc.toInt := by
        rw [decide_eq_true_iff, Int64.lt_iff_toInt_lt, Int64.toInt_zero]
      exact tell_withOperand rfl c fun w => tell_jumpIf hpositive c.advance w
    | shl =>
      rw [execute_alone rfl]
      exact tell_setAcc (Int64.toInt_mul _ 3) c
    | shr =>
      rw [execute_alone rfl]
      exact tell_setAcc (toInt_floorThird _) c
    | call => exact tell_withOperand rfl c fun w => tell_call c.advance w
    | ret =>
      rw [execute_alone rfl]
      exact tell_ret c 0
    | neg =>
      rw [execute_alone rfl]
      exact tell_setAcc (Int64.toInt_neg _) c
    | inc =>
      rw [execute_alone rfl]
      exact tell_setAcc (Int64.toInt_add _ 1) c
    | dec =>
      rw [execute_alone rfl]
      exact tell_setAcc (Int64.toInt_sub _ 1) c
    | loadi => exact tell_withOperand rfl c fun w => tell_loadi c.advance w
    | storei => exact tell_withOperand rfl c fun w => tell_storei c.advance w

end Core

/-! ## Conditions -/

/-- A comparison of words is the comparison of their values. -/
theorem Comparison.holds_iff (op : Comparison) (a b : Word) :
    op.holds a b = true ↔ op.Compares a.toInt b.toInt := by
  cases op <;>
    simp [holds, Compares, Int64.le_iff_toInt_le, Int64.lt_iff_toInt_lt, ← Int64.toInt_inj]

namespace Machine

/-- The machine as the table sees it. -/
def sheet (m : Machine) : Sheet := m.toCore.sheet m.instructionCount

/-- The rules that the machine is under. -/
def rules (m : Machine) : Rules := m.toCore.rules m.config.maxCallDepth.toNat

/-- A probe reads from the sheet the value that it reads from the machine. -/
theorem probe?_sheet (m : Machine) (probe : Probe) :
    m.sheet.probe? probe = (probe.read m.registers.acc m.memory.cells).map Int64.toInt := by
  cases probe with
  | accumulator => rfl
  | memory address => exact m.toCore.cell?_sheet m.instructionCount address.toNat

/-- A condition holds of a machine just when it holds of its sheet. -/
theorem holds_iff (m : Machine) (c : Condition) :
    c.holds m.registers.acc m.memory.cells = true ↔ c.HoldsOf m.sheet := by
  unfold Condition.holds Condition.HoldsOf
  rw [m.probe?_sheet c.probe]
  cases c.probe.read m.registers.acc m.memory.cells with
  | none => simp
  | some w => simp [Comparison.holds_iff]

/-! ## Why a run ends after an instruction -/

/-- What a reason to end the run makes of a step, and what none makes of it. -/
def outcomeOf : Option HaltReason → Outcome
  | none => .continued
  | some reason => .halted reason

/-- Where control goes on, the verdict is the end of memory, or the first condition that holds, or
none. -/
theorem verdict_of_goOn (m : Machine) :
    m.sheet.Verdict m.breakpoints.conditions .goOn (outcomeOf
      (if m.memory.size ≤ m.registers.pc then some .endOfMemory
        else (m.breakpoints.firstHit m.registers.acc m.memory.cells).map .condition)) := by
  have hlength : m.sheet.cells.length = m.memory.size := by
    rw [sheet, Core.sheet, List.length_map, Array.length_toList]
    rfl
  have hpc : m.sheet.pc = m.registers.pc := rfl
  by_cases hend : m.memory.size ≤ m.registers.pc
  · rw [if_pos hend]
    apply Sheet.Verdict.outside
    omega
  · rw [if_neg hend]
    have hinside : m.sheet.pc < m.sheet.cells.length := by omega
    cases hhit : m.breakpoints.firstHit m.registers.acc m.memory.cells with
    | none =>
      refine .continued hinside ?_
      intro c hc hholds
      exact List.find?_eq_none.1 hhit c hc ((m.holds_iff c).2 hholds)
    | some c =>
      obtain ⟨hc, before, after, hsplit, hbefore⟩ := List.find?_eq_some_iff_append.1 hhit
      refine .condition hinside hsplit ((m.holds_iff c).1 hc) ?_
      intro other hother hholds
      have hfalse := hbefore other hother
      rw [(m.holds_iff other).2 hholds] at hfalse
      cases hfalse

/-- The reason to stop after an instruction is the verdict of the sheet. -/
theorem verdict (m : Machine) (flow : Flow) :
    m.sheet.Verdict m.breakpoints.conditions flow.signal (outcomeOf (m.reasonAfter flow)) := by
  cases flow with
  | next => exact m.verdict_of_goOn
  | jump _ => exact m.verdict_of_goOn
  | halt => exact .stop
  | endOfMemory => exact .missing

/-! ## Steps -/

/-- A step of a machine, with the machine that it leaves and what came of it, is an instruction by
the table: it faults with the same fault, or it leaves the same sheet and a verdict that fits. -/
inductive Obeys (m m' : Machine) : Except Fault Outcome → Except Fault (Signal × Sheet) → Prop where
  | fault (f : Fault) : Obeys m m' (.error f) (.error f)
  | done {signal : Signal} {outcome : Outcome}
      (hverdict : m'.sheet.Verdict m.breakpoints.conditions signal outcome) :
      Obeys m m' (.ok outcome) (.ok (signal, m'.sheet))

variable {m m' : Machine}

/-- Where the table faults, the step has the same fault. -/
theorem Obeys.result_eq {result : Except Fault Outcome} {f : Fault}
    (h : m.Obeys m' result (.error f)) : result = .error f := by
  cases h
  rfl

/-- Where the table does not fault, the step leaves its sheet and a verdict that fits. -/
theorem Obeys.sheet_eq {result : Except Fault Outcome} {signal : Signal} {s : Sheet}
    (h : m.Obeys m' result (.ok (signal, s))) :
    m'.sheet = s ∧ ∃ outcome, result = .ok outcome ∧
      s.Verdict m.breakpoints.conditions signal outcome := by
  cases h with
  | done hverdict => exact ⟨rfl, _, rfl, hverdict⟩

/-- What the table makes of a word is what executing it comes to, with one more instruction counted.
-/
theorem obey_eq (m : Machine) (word : Word) :
    m.sheet.obey m.rules word.toInt =
      (Core.tell m.instructionCount
        ((m.fetch word).toCore.execute m.config.maxCallDepth.toNat word)).map
        fun (signal, s) => (signal, { s with count := s.count + 1 }) := by
  rw [Core.tell_execute]
  rfl

/-- A step that runs a word obeys the table. -/
theorem obeys_of_gate {word : Word} (hgate : m.gate = .run word) :
    m.Obeys m.step.1 m.step.2 (m.sheet.obey m.rules word.toInt) := by
  rw [obey_eq]
  cases hexec : (m.fetch word).toCore.execute m.config.maxCallDepth.toNat word with
  | mk core result =>
    cases result with
    | error f =>
      rw [(Move.fault hgate hexec).step_eq]
      exact .fault f
    | ok flow =>
      have hverdict := ((m.fetch word).complete core flow).verdict flow
      cases hreason : ((m.fetch word).complete core flow).reasonAfter flow with
      | none =>
        rw [hreason] at hverdict
        rw [(Move.go hgate hexec hreason).step_eq]
        exact .done hverdict
      | some reason =>
        rw [hreason] at hverdict
        rw [(Move.stop hgate hexec hreason).step_eq]
        exact .done hverdict

/-- **A step follows the published table.**  Let a machine be neither halted nor out of
instructions, with its program counter on a word of memory and no breakpoint there that it is not
resuming from.  Then a step does what the table says of the word at the program counter, and ends
with the verdict that the table's sheet has.  In particular a word that is no opcode is passed over,
and so is an instruction that addresses no cell, with its operand, unless it is a call with a full
stack, which overflows; and an instruction whose operand is missing is passed over up to the end of
memory and halts the machine. -/
theorem step_follows_table {m : Machine} (hstate : m.state ≠ .halted)
    (hcount : m.instructionCount < m.config.maxInstructions.toNat)
    (hpc : m.registers.pc < m.memory.size)
    (hfree : m.resumeAt = some m.registers.pc ∨ m.breakpoints.contains m.registers.pc = false) :
    ∃ word, m.sheet.cell? m.sheet.pc = some word ∧
      m.Obeys m.step.1 m.step.2 (m.sheet.obey m.rules word) ∧
      (word ∉ Sheet.opcodes →
        m.step.1.sheet = m.sheet.skip word 1 ∧ ∃ outcome, m.step.2 = .ok outcome) ∧
      (∀ operand, word ∈ Sheet.addressing → m.sheet.cell? (m.sheet.pc + 1) = some operand →
        m.sheet.Nowhere word operand →
        if word = 7 ∧ m.rules.depth ≤ m.sheet.calls.length then
          m.step.2 = .error (.callStackOverflow m.rules.depth)
        else m.step.1.sheet = m.sheet.skip word 2 ∧ ∃ outcome, m.step.2 = .ok outcome) ∧
      (word ∈ Sheet.twoWord → m.sheet.pc + 1 = m.sheet.cells.length →
        m.step.1.sheet = m.sheet.skip word 1 ∧ m.step.2 = .ok (.halted .endOfMemory)) := by
  have hword : m.memory.peek? m.registers.pc = some m.memory.cells[m.registers.pc] :=
    Array.getElem?_eq_getElem hpc
  generalize m.memory.cells[m.registers.pc] = word at hword
  have hbreak : ¬ m.AtBreakpoint := by
    rintro ⟨hresume, hcontains⟩
    rcases hfree with hhere | hnone
    · exact hresume hhere
    · rw [hnone] at hcontains
      cases hcontains
  have hgate : m.gate = .run word :=
    gate_eq_iff.2 (.run hstate (Nat.not_le.2 hcount) hbreak hword)
  have hobeys := obeys_of_gate hgate
  have hcell : m.sheet.cell? m.sheet.pc = some word.toInt := by
    have hsheet := m.toCore.cell?_sheet m.instructionCount m.registers.pc
    rw [hword] at hsheet
    exact hsheet
  refine ⟨word.toInt, hcell, hobeys, ?_, ?_, ?_⟩
  · intro hdata
    rw [Sheet.obey_of_not_mem hdata] at hobeys
    obtain ⟨hsheet, outcome, hresult, -⟩ := hobeys.sheet_eq
    exact ⟨hsheet, outcome, hresult⟩
  · intro operand haddressing hoperand hnowhere
    split
    · next hfull =>
      rw [hfull.1, Sheet.obey_of_full hoperand hfull.2] at hobeys
      exact hobeys.result_eq
    · next hroom =>
      have hcall : word.toInt = 7 → m.sheet.calls.length < m.rules.depth := by
        intro hseven
        exact Nat.not_le.1 fun hfull => hroom ⟨hseven, hfull⟩
      rw [Sheet.obey_of_nowhere haddressing hoperand hnowhere hcall] at hobeys
      obtain ⟨hsheet, outcome, hresult, -⟩ := hobeys.sheet_eq
      exact ⟨hsheet, outcome, hresult⟩
  · intro htwo hend
    have hmissing : m.sheet.cell? (m.sheet.pc + 1) = none :=
      Sheet.cell?_of_le (Int.le_of_eq hend.symm)
    rw [Sheet.obey_of_missing htwo hmissing] at hobeys
    obtain ⟨hsheet, outcome, hresult, hverdict⟩ := hobeys.sheet_eq
    refine ⟨hsheet, ?_⟩
    cases hverdict
    exact hresult

/-- A jump to an address past memory goes on behind its operand. -/
theorem step_follows_table_jump_nowhere :
    let m := (new { memorySize := .small }).loadWords [3, 500]
    m.step.1.sheet = m.sheet.skip 3 2 := by
  intro m
  obtain ⟨word, hword, -, -, hnowhere, -⟩ :=
    step_follows_table (m := m) (by decide) (by decide) (by decide) (.inr (by decide))
  obtain rfl : 3 = word := Option.some.inj hword
  have hskip := hnowhere 500 (by decide) rfl (.inl rfl)
  rw [if_neg (by decide)] at hskip
  exact hskip.1

end Machine

end TernaryMachine
