import TernaryMachine.Proofs.Machine.Report
import TernaryMachine.Proofs.Machine.Safety
import TernaryMachine.Proofs.Machine.Walk

/-!
# What the access counters count

The counter of a cell says how often the cell was accessed as data while accesses were tracked.
`Memory.accessed` lists the cells that an instruction accesses, by the item that a listing shows:
loads and stores, plain or through a pointer, and nothing else.  `Machine.accessesOf` lists those of
an operation, a run of steps included, and `counts_perform` says that every operation that does not
empty memory touches just these.

`Machine.ledger` writes the accesses of a whole sequence of operations down and starts anew where
memory is emptied.  Each counter is the number of entries of its cell there (`hits_performAll`).
-/

set_option autoImplicit false

namespace TernaryMachine

namespace Memory

/-- The counter of a cell; what is no cell was never accessed. -/
def hits (m : Memory) (a : Nat) : Nat := m.counts.getD a 0

/-- The cells that an instruction accesses as data, in order.  The operand of a load or a store
names a cell; an indirect one accesses the pointer there and then the cell that the pointer names.
A protected cell is not accessed by a store that it refuses. -/
def accessed (m : Memory) : Item → List Nat
  | .withOperand .load operand => (m.address? operand).toList
  | .withOperand .store operand => (m.address? operand).toList.flatMap m.writable
  | .withOperand .loadi operand =>
    (m.address? operand).toList.flatMap fun p => p :: (m.pointee? p).toList
  | .withOperand .storei operand =>
    (m.address? operand).toList.flatMap fun p => p :: (m.pointee? p).toList.flatMap m.writable
  | _ => []

/-! ## Counters under a row of accesses -/

variable {m m' : Memory} {cells : List Nat}

/-- Accesses are counted one row after the other. -/
theorem touchAll_append (m : Memory) (cells later : List Nat) :
    m.touchAll (cells ++ later) = (m.touchAll cells).touchAll later :=
  List.foldl_append

/-- Counting accesses leaves the switch for counting. -/
@[simp]
theorem tracking_touchAll (m : Memory) (cells : List Nat) :
    (m.touchAll cells).tracking = m.tracking := by
  induction cells generalizing m with
  | nil => rfl
  | cons a rest ih => exact (ih (m.touch a)).trans (tracking_touch m a)

/-- While accesses are not counted, they leave no trace. -/
theorem touchAll_of_not_tracking (h : m.tracking = false) (cells : List Nat) :
    m.touchAll cells = m := by
  induction cells with
  | nil => rfl
  | cons a rest ih =>
    have htouch : m.touch a = m := by
      unfold touch
      rw [h]
      rfl
    show (m.touch a).touchAll rest = m
    rw [htouch, ih]

/-- What a row of accesses leaves in the counters depends on nothing else in memory. -/
theorem counts_touchAll_congr (hcounts : m.counts = m'.counts)
    (htracking : m.tracking = m'.tracking) (cells : List Nat) :
    (m.touchAll cells).counts = (m'.touchAll cells).counts := by
  induction cells generalizing m m' with
  | nil => exact hcounts
  | cons a rest ih =>
    apply ih
    · rw [counts_touch, counts_touch, hcounts, htracking]
    · rw [tracking_touch, tracking_touch, htracking]

/-- What is counted for a cell is up to the counters. -/
theorem hits_congr (h : m.counts = m'.counts) (a : Nat) : m.hits a = m'.hits a := by
  unfold hits
  rw [h]

/-- While accesses are counted, one to a cell adds one to what is counted for it. -/
theorem hits_touch (htracking : m.tracking = true) {a : Nat} (ha : a < m.counts.size) (b : Nat) :
    (m.touch a).hits b = m.hits b + [a].count b := by
  unfold hits
  rw [counts_touch, htracking, if_pos rfl, Array.getD_eq_getD_getElem?,
    Array.getD_eq_getD_getElem?, Array.getElem?_modify]
  by_cases hab : a = b
  · subst hab
    simp [ha]
  · simp [hab]

/-- Every access to a cell adds one to its counter. -/
theorem hits_touchAll (htracking : m.tracking = true) (hcells : ∀ a ∈ cells, a < m.counts.size)
    (b : Nat) : (m.touchAll cells).hits b = m.hits b + cells.count b := by
  induction cells generalizing m with
  | nil => rfl
  | cons a rest ih =>
    obtain ⟨ha, hrest⟩ := List.forall_mem_cons.1 hcells
    have hnext : ((m.touch a).touchAll rest).hits b = (m.touch a).hits b + rest.count b :=
      ih ((tracking_touch m a).trans htracking) (by simpa using hrest)
    show ((m.touch a).touchAll rest).hits b = _
    rw [hnext, hits_touch htracking ha, Nat.add_assoc, ← List.count_append]
    rfl

/-- A pointer that names its own cell is accessed twice. -/
theorem count_accessed_of_self {op : Opcode} {operand : Word} {p : Nat}
    (hop : op = .loadi ∨ op = .storei ∧ p ∉ m.guarded) (haddress : m.address? operand = some p)
    (hself : m.pointee? p = some p) : (m.accessed (.withOperand op operand)).count p = 2 := by
  have haccessed : m.accessed (.withOperand op operand) = [p, p] := by
    rcases hop with rfl | ⟨rfl, hfree⟩
    · simp [accessed, haddress, hself]
    · simp [accessed, haddress, hself, writable, hfree]
  rw [haccessed, List.count_cons_self, List.count_singleton_self]

/-- No instruction accesses more than a pointer and what it names. -/
theorem length_accessed_le (m : Memory) (item : Item) : (m.accessed item).length ≤ 2 := by
  have hwritable : ∀ cell : Option Nat, (cell.toList.flatMap m.writable).length ≤ 1 := by
    intro cell
    cases cell with
    | none => simp
    | some a =>
      simp only [Option.toList_some, List.flatMap_singleton, writable]
      split <;> simp
  unfold accessed
  split
  · exact Nat.le_succ_of_le Option.length_toList_le
  · exact Nat.le_succ_of_le (hwritable _)
  · next operand => cases m.address? operand <;> simp
  · next operand =>
    cases m.address? operand with
    | none => simp
    | some p => simpa using hwritable (m.pointee? p)
  · simp

/-! ## Memory that is asked itself -/

/-- The cells that count as accessed when memory itself is asked for something. -/
def accessesOf (m : Memory) : MemoryOperation → List Nat
  | .load a => if a < m.size then [a] else []
  | .store a _ => if a < m.size then m.writable a else []
  | _ => []

/-- An operation on memory accesses its cells only. -/
theorem lt_size_of_mem_accessesOf {operation : MemoryOperation} {a : Nat}
    (h : a ∈ m.accessesOf operation) : a < m.size := by
  unfold accessesOf at h
  split at h
  · split at h
    · rwa [List.mem_singleton.1 h]
    · cases h
  · split at h
    · rwa [eq_of_mem_writable h]
    · cases h
  · cases h

/-- An operation on memory, clearing apart, counts just its accesses. -/
theorem counts_perform {operation : MemoryOperation} (hclear : operation ≠ .clear) :
    (m.perform operation).1.counts = (m.touchAll (m.accessesOf operation)).counts := by
  have hcalled := m.called operation
  generalize (m.perform operation).1 = m', (m.perform operation).2 = answer at hcalled ⊢
  cases hcalled with
  | load ha _ =>
    simp only [accessesOf, if_pos ha]
    rfl
  | loadOutside ha =>
    simp only [accessesOf, if_neg (Nat.not_lt.2 ha)]
    rfl
  | @store a w ha hfree =>
    simp only [accessesOf, if_pos ha, writable, if_neg hfree]
    have hwrite : (m.write a w).counts = m.counts := rfl
    exact counts_touchAll_congr hwrite rfl [a]
  | storeOutside w ha =>
    simp only [accessesOf, if_neg (Nat.not_lt.2 ha)]
    rfl
  | storeGuarded w ha hguard =>
    simp only [accessesOf, if_pos ha, writable, if_pos hguard]
    rfl
  | clear => exact absurd rfl hclear
  | _ => rfl

/-- Counters that are all zero count nothing. -/
theorem hits_of_replicate {n : Nat} (h : m.counts = Array.replicate n 0) (a : Nat) :
    m.hits a = 0 := by
  simp only [hits, h, Array.getD_eq_getD_getElem?, Array.getElem?_replicate]
  split <;> rfl

/-- Clearing memory clears what was counted. -/
theorem hits_clear (m : Memory) (a : Nat) : m.clear.hits a = 0 := hits_of_replicate rfl a

end Memory

/-! ## The accesses of a step -/

/-- The cells that a turn accesses as data, in order. -/
def Turn.accesses (turn : Turn) : List Nat := turn.before.dataAccesses

/-- What an opcode accesses is up to memory and the item. -/
theorem Core.accesses_eq (c : Core) (op : Opcode) (operand : Word) :
    c.accesses op operand = c.memory.accessed (.withOperand op operand) := by
  unfold accesses
  cases haddress : c.memory.address? operand with
  | none => cases op <;> simp [Memory.accessed, haddress]
  | some a => cases op <;> simp [Memory.accessed, haddress]

/-- Decoding memory at the program counter and decoding the fetched word find the same accesses. -/
theorem Core.dataAccesses_eq {c : Core} {word : Word}
    (hword : c.memory.peek? c.registers.pc = some word) :
    c.dataAccesses word = c.memory.accessed c.item := by
  have hcell : c.memory.cells[c.registers.pc]? = some word := hword
  have hsecond : c.memory.peek? (c.registers.pc + 1) = c.memory.cells[c.registers.pc + 1]? := rfl
  rw [item, Item.atAddress, hcell]
  cases hdecode : Opcode.decode? word with
  | none => simp only [dataAccesses, Item.read, hdecode, Memory.accessed]
  | some op =>
    cases hoperand : op.hasOperand with
    | false => simp [dataAccesses, Item.read, hdecode, hoperand, Memory.accessed]
    | true =>
      simp only [dataAccesses, Item.read, hdecode, hoperand, if_true, hsecond]
      cases c.memory.cells[c.registers.pc + 1]? with
      | none => rfl
      | some operand => exact c.accesses_eq op operand

namespace Machine

variable {m : Machine}

/-- A step that runs an instruction accesses what its item does. -/
theorem dataAccesses_of_executes (h : m.executes = true) :
    m.dataAccesses = m.memory.accessed m.item := by
  obtain ⟨word, hgate⟩ := exists_gate_of_executes h
  unfold dataAccesses
  rw [hgate]
  exact Core.dataAccesses_eq (peek?_of_gate hgate)

/-- A step that runs no instruction accesses nothing. -/
theorem dataAccesses_of_not_executes (h : m.executes = false) : m.dataAccesses = [] := by
  unfold dataAccesses
  split
  · next word hgate =>
    rw [executes_of_gate hgate] at h
    cases h
  · rfl

/-! ## The accesses of an operation -/

/-- The cells that an operation accesses as data, in order. -/
def accessesOf (m : Machine) : Operation → List Nat
  | .onMemory operation => m.memory.accessesOf operation
  | operation => (m.turnsIn operation).flatMap Turn.accesses

/-- Whether an operation empties memory: a reset, a load, a change of size that is not refused. -/
def wipes (m : Machine) : Operation → Bool
  | .reset => true
  | .loadWords _ => true
  | .loadProgram _ => true
  | .resize _ => m.state != .running
  | .onMemory .clear => true
  | _ => false

/-- Turns access cells of memory only. -/
theorem lt_size_of_mem_turns {n a : Nat} (h : a ∈ (turns n m).flatMap Turn.accesses) :
    a < m.memory.size := by
  obtain ⟨turn, hturn, ha⟩ := List.mem_flatMap.1 h
  have hsize : turn.before.memory.size = m.memory.size :=
    congrArg Frame.cellCount ((frame_after n m).2 turn hturn)
  exact hsize ▸ lt_size_of_mem_dataAccesses ha

/-- An operation accesses cells of memory only. -/
theorem lt_size_of_mem_accessesOf {operation : Operation} {a : Nat}
    (h : a ∈ m.accessesOf operation) : a < m.memory.size := by
  cases operation with
  | step => exact lt_size_of_mem_turns (n := 1) h
  | run budget => exact lt_size_of_mem_turns h
  | onMemory operation => exact Memory.lt_size_of_mem_accessesOf h
  | _ => cases h

/-- A row of steps touches the cells of each in turn. -/
theorem counts_after (n : Nat) (m : Machine) :
    (after n m).memory.counts =
      (m.memory.touchAll ((turns n m).flatMap Turn.accesses)).counts := by
  induction n generalizing m with
  | zero => rfl
  | succ n ih =>
    have htracking : m.step.1.memory.tracking = (m.memory.touchAll m.dataAccesses).tracking :=
      (congrArg Frame.tracking m.move_step.frame_eq).trans (m.memory.tracking_touchAll _).symm
    have hcons : (turns (n + 1) m).flatMap Turn.accesses =
        m.dataAccesses ++ (turns n m.step.1).flatMap Turn.accesses := List.flatMap_cons
    rw [hcons, Memory.touchAll_append]
    exact (ih m.step.1).trans (Memory.counts_touchAll_congr m.counts_step htracking _)

/-- An operation that does not empty memory touches the cells that it accesses, and no other. -/
theorem counts_perform {operation : Operation} (hkeep : m.wipes operation = false) :
    (m.perform operation).1.memory.counts =
      (m.memory.touchAll (m.accessesOf operation)).counts := by
  cases operation with
  | step => exact counts_after 1 m
  | run budget =>
    have hrun : (m.perform (.run budget)).1 = after (runLength budget m) m := m.run_eq_after budget
    rw [hrun]
    exact counts_after _ m
  | stepBack =>
    simp only [perform]
    split
    · next back hback =>
      cases retreat_of_stepBack hback
      rfl
    · rfl
  | reset => cases hkeep
  | loadWords words => cases hkeep
  | loadProgram text => cases hkeep
  | resize size =>
    have hstate : m.state = .running := by simpa [wipes] using hkeep
    simp only [perform, resize, if_pos hstate]
    rfl
  | onMemory operation =>
    refine Memory.counts_perform ?_
    rintro rfl
    cases hkeep
  | _ => rfl

/-- All counters are zero behind an operation that empties memory. -/
theorem hits_of_wipes {operation : Operation} (hwipes : m.wipes operation = true) (a : Nat) :
    (m.perform operation).1.memory.hits a = 0 := by
  cases operation with
  | reset => exact m.memory.hits_clear a
  | loadWords words => exact m.memory.hits_clear a
  | loadProgram text =>
    rw [perform_loadProgram_fst]
    unfold loadProgram
    split
    · exact m.memory.hits_clear a
    · exact m.memory.hits_clear a
  | resize size =>
    have hstate : m.state ≠ .running := by simpa [wipes] using hwipes
    simp only [perform, resize, if_neg hstate]
    exact Memory.hits_clear _ a
  | onMemory operation =>
    cases operation with
    | clear => exact m.memory.hits_clear a
    | _ => cases hwipes
  | _ => cases hwipes

/-! ## The ledger of a sequence of operations -/

/-- What stands in a ledger of accesses after an operation, if `entries` stood there before. -/
def entered (m : Machine) (entries : List Nat) (operation : Operation) : List Nat :=
  if m.wipes operation then []
  else if m.memory.tracking then entries ++ m.accessesOf operation
  else entries

/-- The accesses that a sequence of operations makes while they are tracked, since memory was last
emptied; `entries` are those from before. -/
def ledger (entries : List Nat) : Machine → List Operation → List Nat
  | _, [] => entries
  | m, operation :: rest => ledger (m.entered entries operation) (m.perform operation).1 rest

/-- Memory of a safe machine has a counter for every cell. -/
theorem Safe.hits_touchAll (hsafe : m.Safe) (htracking : m.memory.tracking = true)
    {cells : List Nat} (hcells : ∀ b ∈ cells, b < m.memory.size) (a : Nat) :
    (m.memory.touchAll cells).hits a = m.memory.hits a + cells.count a := by
  have hsizes : m.memory.counts.size = m.memory.size :=
    hsafe.memory.counts.trans hsafe.memory.cells.symm
  exact Memory.hits_touchAll htracking (hsizes ▸ hcells) a

/-- Operations enter into the ledger what they add to the counters. -/
theorem hits_perform (hsafe : m.Safe) {entries : List Nat}
    (hhits : ∀ a, m.memory.hits a = entries.count a) (operation : Operation) (a : Nat) :
    (m.perform operation).1.memory.hits a = (m.entered entries operation).count a := by
  unfold entered
  cases hwipes : m.wipes operation with
  | true => exact hits_of_wipes hwipes a
  | false =>
    rw [Memory.hits_congr (counts_perform hwipes) a]
    cases htracking : m.memory.tracking with
    | false =>
      rw [Memory.touchAll_of_not_tracking htracking]
      exact hhits a
    | true =>
      rw [hsafe.hits_touchAll htracking (fun _ => lt_size_of_mem_accessesOf), hhits a,
        ← List.count_append]
      rfl

/-- Each counter is the number of entries of its cell in the ledger. -/
theorem hits_performAll (hsafe : m.Safe) {entries : List Nat}
    (hhits : ∀ a, m.memory.hits a = entries.count a) (operations : List Operation) (a : Nat) :
    (m.performAll operations).memory.hits a = (ledger entries m operations).count a := by
  induction operations generalizing m entries with
  | nil => exact hhits a
  | cons operation rest ih =>
    exact ih (hsafe.perform operation) (hits_perform hsafe hhits operation)

/-! ## What a single step counts -/

/-- A turn accesses what its item does, if it runs one. -/
theorem accesses_turn (m : Machine) :
    m.turn.accesses = if m.executes then m.memory.accessed m.item else [] := by
  cases hexecutes : m.executes with
  | true => exact dataAccesses_of_executes hexecutes
  | false => exact dataAccesses_of_not_executes hexecutes

/-- Over a row of steps, what is counted for a cell grows by the accesses to it. -/
theorem hits_after (hsafe : m.Safe) (htracking : m.memory.tracking = true) (n a : Nat) :
    (after n m).memory.hits a =
      m.memory.hits a + ((turns n m).flatMap Turn.accesses).count a := by
  rw [Memory.hits_congr (counts_after n m) a]
  exact hsafe.hits_touchAll htracking (fun _ => lt_size_of_mem_turns) a

/-- Over a step, what is counted for a cell grows by the accesses to it. -/
theorem hits_step (hsafe : m.Safe) (htracking : m.memory.tracking = true) (a : Nat) :
    m.step.1.memory.hits a = m.memory.hits a + m.turn.accesses.count a := by
  have hafter := hits_after hsafe htracking 1 a
  have hturns : (turns 1 m).flatMap Turn.accesses = m.turn.accesses := List.flatMap_singleton _ _
  rwa [hturns] at hafter

/-- A row of steps accesses no more than two cells for each step. -/
theorem length_accesses_le (n : Nat) (m : Machine) :
    ((turns n m).flatMap Turn.accesses).length ≤ 2 * n := by
  induction n generalizing m with
  | zero => exact Nat.le_refl 0
  | succ n ih =>
    have hfirst : m.turn.accesses.length ≤ 2 := by
      rw [accesses_turn]
      split
      · exact m.memory.length_accessed_le m.item
      · exact Nat.zero_le 2
    have hcons : (turns (n + 1) m).flatMap Turn.accesses =
        m.turn.accesses ++ (turns n m.step.1).flatMap Turn.accesses := List.flatMap_cons
    have hrest := ih m.step.1
    rw [hcons, List.length_append]
    omega

/-- A counter grows by two with a step at most, so one of 64 bits holds what `2 ^ 63 - 1` steps
leave in it. -/
theorem hits_after_le (hsafe : m.Safe) (htracking : m.memory.tracking = true) (n a : Nat) :
    (after n m).memory.hits a ≤ m.memory.hits a + 2 * n := by
  have hcount : ((turns n m).flatMap Turn.accesses).count a ≤ 2 * n :=
    Nat.le_trans List.count_le_length (length_accesses_le n m)
  rw [hits_after hsafe htracking]
  omega

/-- **The counters count the data accesses, and nothing else.**  Whatever has been done with a
machine, each counter is the number of accesses to its cell that were made while accesses were
tracked, since memory was last emptied.  From an operation on that empties memory, a run of any
length leaves the number of accesses that its steps make.  A step, also one that faults, changes no
counter while nothing is tracked, and otherwise adds one for each access that the item at the
program counter makes, so two to a pointer that names its own cell.  Taking a step back and editing
memory from outside change no counter at all. -/
theorem accesses_counted_exactly (config : Config) (operations : List Operation) :
    let m := (new config).performAll operations
    (∀ a, m.memory.hits a = (ledger [] (new config) operations).count a) ∧
    (∀ start, m.wipes start = true →
      let begun := (m.perform start).1
      begun.memory.tracking = true → ∀ n a,
        (after n begun).memory.hits a = ((turns n begun).flatMap Turn.accesses).count a) ∧
    (m.memory.tracking = false → m.step.1.memory.counts = m.memory.counts) ∧
    (m.memory.tracking = true → ∀ a,
      m.step.1.memory.hits a = m.memory.hits a + m.turn.accesses.count a) ∧
    (∀ before : Machine, before.turn.accesses =
      if before.executes then before.memory.accessed before.item else []) ∧
    (∀ op operand p, (op = .loadi ∨ op = .storei ∧ p ∉ m.memory.guarded) →
      m.memory.tracking = true → m.executes = true → m.item = .withOperand op operand →
      m.memory.address? operand = some p → m.memory.pointee? p = some p →
        m.step.1.memory.hits p = m.memory.hits p + 2) ∧
    (∀ a w image, ∀ operation ∈ [.stepBack, .onMemory (.poke a w), .onMemory (.loadImage image),
        .onMemory (.protect a), .onMemory (.unprotect a)],
      (m.perform operation).1.memory.counts = m.memory.counts) := by
  intro m
  have hsafe : m.Safe := Safe.performAll config operations
  refine ⟨?_, ?_, ?_, hits_step hsafe, accesses_turn, ?_, ?_⟩
  · intro a
    have hempty : ∀ b, (new config).memory.hits b = ([] : List Nat).count b :=
      fun b => Memory.hits_of_replicate rfl b
    exact hits_performAll (Safe.new config) hempty operations a
  · intro start hwipes begun htracking n a
    rw [hits_after (hsafe.perform start) htracking, hits_of_wipes hwipes, Nat.zero_add]
  · intro htracking
    rw [counts_step, Memory.touchAll_of_not_tracking htracking]
  · intro op operand p hop htracking hexecutes hitem haddress hself
    rw [hits_step hsafe htracking, accesses_turn, if_pos hexecutes, hitem,
      Memory.count_accessed_of_self hop haddress hself]
  · intro a w image operation hoperation
    have hquiet : m.wipes operation = false ∧ m.accessesOf operation = [] := by
      simp only [List.mem_cons, List.not_mem_nil, or_false] at hoperation
      rcases hoperation with rfl | rfl | rfl | rfl | rfl <;> exact ⟨rfl, rfl⟩
    rw [counts_perform hquiet.1, hquiet.2]
    rfl

/-- A load through a pointer to itself counts two, and a store through it that is then refused
still counts the pointer. -/
theorem accesses_counted_exactly_storingThrough :
    let m := (new { memorySize := .small, heatmapEnabled := true }).performAll
      [.loadWords [10, 6, -10, 6, 0, 0, 6], .onMemory (.protect 6), .step]
    m.memory.hits 6 = 2 ∧ m.step.2 = .error (.memory (.protectedCell 6)) ∧
      m.step.1.memory.hits 6 = 3 := by
  intro m
  obtain ⟨hledger, -, -, hstep, -⟩ := accesses_counted_exactly
    { memorySize := .small, heatmapEnabled := true }
    [.loadWords [10, 6, -10, 6, 0, 0, 6], .onMemory (.protect 6), .step]
  have htwo : m.memory.hits 6 = 2 := (hledger 6).trans (by decide +kernel)
  refine ⟨htwo, by decide +kernel, ?_⟩
  rw [hstep (by decide +kernel) 6, htwo]
  decide +kernel

end Machine

end TernaryMachine
