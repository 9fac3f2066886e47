import TernaryMachine.Proofs.Machine.Passage
import TernaryMachine.Proofs.Machine.Safety

/-!
# The limit of instructions bounds every run

An instruction runs only below the limit and counts one, so every step that simply goes on uses up
one of the instructions that are left (`Move.left_of_continued`).  A run therefore takes at most as
many steps as instructions are left.  A machine that is driven through its pauses takes up to twice
as many and one more: a pause at an address uses up no instruction, but the next step goes on from
there and runs one (`exists_drive_eq`).

The count itself stays below the limit as long as nobody lowers the limit, also when steps are taken
back, since every moment of the history was recorded below it.  The same goes for whatever is
measured on call stack and count, if a step keeps it within a limit (`Within.changeAll`).
-/

set_option autoImplicit false

namespace TernaryMachine.Machine

variable {m m' : Machine}

/-- The number of instructions that the limit leaves. -/
def left (m : Machine) : Nat := m.config.maxInstructions.toNat - m.instructionCount

/-! ## Steps -/

/-- Below the limit, an instruction is left. -/
theorem left_pos_of_not_spent (h : ¬ m.Spent) : 0 < m.left := by
  unfold Spent at h
  unfold left
  omega

/-- Only a step that does not fail needs an instruction to be left. -/
theorem Move.left_pos {outcome : Outcome} (h : m.Move m' (.ok outcome)) : 0 < m.left := by
  cases h with
  | pause hgate =>
    cases gate_eq_iff.1 hgate with
    | breakpoint _ hspent _ => exact left_pos_of_not_spent hspent
  | outside hgate =>
    cases gate_eq_iff.1 hgate with
    | outside _ hspent _ _ => exact left_pos_of_not_spent hspent
  | stop hgate _ _ =>
    cases gate_eq_iff.1 hgate with
    | run _ hspent _ _ => exact left_pos_of_not_spent hspent
  | go hgate _ _ =>
    cases gate_eq_iff.1 hgate with
    | run _ hspent _ _ => exact left_pos_of_not_spent hspent

/-- A step that goes on uses up one of the instructions left. -/
theorem Move.left_of_continued (h : m.Move m' (.ok .continued)) : m'.left + 1 = m.left := by
  cases h with
  | @go word core flow hgate _ _ =>
    have hlt := instructionCount_lt_of_gate hgate
    show m.config.maxInstructions.toNat - (m.instructionCount + 1) + 1 = _
    unfold left
    omega

/-! ## Runs with a budget -/

/-- A run takes no more steps than there are instructions left. -/
theorem steps_runFrom_le (taken budget : Nat) (m : Machine) :
    (runFrom taken budget m).2.steps ≤ taken + m.left := by
  induction budget generalizing taken m with
  | zero => exact Nat.le_add_right taken m.left
  | succ budget ih =>
    have hmove := m.move_step
    unfold runFrom
    split
    · next m' hstep =>
      rw [hstep] at hmove
      have hleft : m'.left + 1 = m.left := hmove.left_of_continued
      have hrest := ih (taken + 1) m'
      omega
    · next m' reason hstep =>
      rw [hstep] at hmove
      have hleft : 0 < m.left := hmove.left_pos
      show taken + 1 ≤ taken + m.left
      omega
    · exact Nat.le_add_right taken m.left

/-- A run that uses up its budget takes as many steps. -/
theorem steps_of_stop_budget {taken budget : Nat} {m : Machine}
    (h : (runFrom taken budget m).2.stop = .budget) :
    (runFrom taken budget m).2.steps = taken + budget := by
  induction budget generalizing taken m with
  | zero => rfl
  | succ budget ih =>
    cases hstep : m.step with
    | mk m' result =>
      cases result with
      | error f => simp [runFrom, hstep] at h
      | ok outcome =>
        cases outcome with
        | halted reason => simp [runFrom, hstep] at h
        | continued =>
          simp only [runFrom, hstep] at h ⊢
          have hrest := ih h
          omega

/-- A run does not take more steps than instructions are left, and so a greater budget is never
used up. -/
theorem run_within_left (budget : Nat) (m : Machine) :
    (m.run budget).2.steps ≤ m.left ∧
      (m.left < budget → (m.run budget).2.stop ≠ .budget) := by
  have hsteps := steps_runFrom_le 0 budget m
  rw [Nat.zero_add] at hsteps
  refine ⟨hsteps, ?_⟩
  intro hlt hstop
  have hall := steps_of_stop_budget hstop
  have hle : (runFrom 0 budget m).2.steps ≤ m.left := hsteps
  omega

/-! ## Driving to the end -/

/-- A step that driving goes on from is no pause on the last instruction. -/
theorem two_le_remaining (h : goesOn m.step.2 = true) : 2 ≤ m.remaining := by
  have hleft : 0 < m.left := by
    have hmove := m.move_step
    cases hresult : m.step.2 with
    | error f =>
      rw [hresult] at h
      cases h
    | ok outcome =>
      rw [hresult] at hmove
      exact hmove.left_pos
  unfold left at hleft
  unfold remaining
  omega

/-- Driving is a row of steps of which each but the last is gone on from, and there are at most as
many as remain, or just one. -/
theorem exists_drive_eq {σ : Type} (visit : σ → Turn → σ) (s : σ) (m : Machine) :
    ∃ k, k + 1 ≤ max 1 m.remaining ∧
      (∀ j < k, goesOn (after j m).step.2 = true) ∧
      goesOn (after k m).step.2 = false ∧
      m.drive visit s = ((turns k m).foldl visit s, (after k m).turn) := by
  induction m using drive_induction generalizing s with
  | h m ih =>
    by_cases hgo : goesOn m.step.2 = true
    · obtain ⟨k, hk, hbefore, hlast, hdrive⟩ := ih hgo (visit s m.turn)
      have hlt := remaining_step_lt hgo
      have htwo := two_le_remaining hgo
      refine ⟨k + 1, ?_, ?_, hlast, ?_⟩
      · omega
      · intro j hj
        cases j with
        | zero => exact hgo
        | succ j => exact hbefore j (by omega)
      · rw [drive_of_goesOn visit s hgo, hdrive]
        rfl
    · rw [Bool.not_eq_true] at hgo
      refine ⟨0, by omega, ?_, hgo, ?_⟩
      · intro j hj
        omega
      · rw [drive_of_stop visit s hgo]
        rfl

/-! ## The count of instructions -/

/-- What may become of a machine: an operation, or other memory is put in the place of its own. -/
inductive Change where
  | operation (operation : Operation)
  | memory (memory : Memory)

/-- A machine after one change. -/
def change (m : Machine) : Change → Machine
  | .operation operation => (m.perform operation).1
  | .memory memory => m.withMemory memory

/-- A machine after a sequence of changes. -/
def changeAll (m : Machine) (changes : List Change) : Machine := changes.foldl change m

/-- No change of the sequence lowers a limit. -/
def NeverLowered (limit : Config → UInt64) : Machine → List Change → Prop
  | _, [] => True
  | m, first :: rest =>
    limit m.config ≤ limit (m.change first).config ∧ NeverLowered limit (m.change first) rest

/-- What is measured on call stack and count is within a limit of the configuration, here and in
every moment of the history. -/
structure Within (measure : List Nat → Nat → Nat) (limit : Config → UInt64) (m : Machine) :
    Prop where
  present : measure m.callStack m.instructionCount ≤ (limit m.config).toNat
  past : ∀ moment ∈ m.history.moments,
    measure moment.callStack moment.instructionCount ≤ (limit m.config).toNat

namespace Within

section Measure

variable {measure : List Nat → Nat → Nat} {limit : Config → UInt64} (hzero : measure [] 0 = 0)
  (hstep : ∀ {m m' : Machine} {result : Except Fault Outcome}, m.Move m' result →
    measure m.callStack m.instructionCount ≤ (limit m.config).toNat →
      measure m'.callStack m'.instructionCount ≤ (limit m.config).toNat)

include hzero in
/-- Where nothing is called or counted and nothing is remembered, any limit will do. -/
theorem of_start (hstack : m.callStack = []) (hcount : m.instructionCount = 0)
    (hmoments : m.history.moments = []) : Within measure limit m where
  present := by
    rw [hstack, hcount, hzero]
    exact Nat.zero_le _
  past := by
    rw [hmoments]
    exact List.forall_mem_nil _

include hstep in
/-- A step keeps what is measured within the limit. -/
theorem step (h : Within measure limit m) : Within measure limit m.step.1 := by
  have hconfig : m.step.1.config = m.config := m.move_step.config_eq
  refine ⟨?_, ?_⟩
  · rw [hconfig]
    exact hstep m.move_step h.present
  · rw [hconfig]
    have hnow : m.executes = true →
        measure m.moment.callStack m.moment.instructionCount ≤ (limit m.config).toNat :=
      fun _ => h.present
    exact m.move_step.forall_moments hnow h.past

include hzero hstep in
/-- A passage keeps what is measured within the limit, unless the limit is lowered on the way. -/
theorem of_passage (h : Within measure limit m) (hpassage : m.Passage m')
    (hlimit : limit m.config ≤ limit m'.config) : Within measure limit m' := by
  have hle := UInt64.le_iff_toNat_le.1 hlimit
  cases hpassage with
  | steps n => exact after_induction (fun _ hm => hm.step hstep) h n
  | back hback =>
    cases retreat_of_stepBack hback with
    | back hpop =>
      obtain ⟨hmoment, hrest⟩ := History.forall_of_pop? hpop h.past
      exact ⟨hmoment, hrest⟩
  | anew _ hstack hcount hmoments => exact of_start hzero hstack hcount hmoments
  | stay _ hstack hcount hmoments =>
    refine ⟨?_, ?_⟩
    · rw [hstack, hcount]
      exact Nat.le_trans h.present hle
    · intro moment hmoment
      exact Nat.le_trans (h.past moment (hmoments.subset hmoment)) hle

include hzero hstep in
/-- What a step keeps within a limit stays within it, whatever becomes of the machine, as long as
the limit is not lowered. -/
theorem changeAll (h : Within measure limit m) {changes : List Change}
    (hkept : NeverLowered limit m changes) : Within measure limit (m.changeAll changes) := by
  induction changes generalizing m with
  | nil => exact h
  | cons first rest ih =>
    obtain ⟨hfirst, hrest⟩ := hkept
    have hnext : Within measure limit (m.change first) := by
      cases first with
      | operation operation => exact h.of_passage hzero hstep (m.passage_perform operation) hfirst
      | memory memory => exact ⟨h.present, h.past⟩
    exact ih hnext hrest

end Measure

end Within

/-- A move keeps the count of instructions within its limit. -/
theorem Move.instructionCount_le {result : Except Fault Outcome} (hmove : m.Move m' result)
    (h : m.instructionCount ≤ m.config.maxInstructions.toNat) :
    m'.instructionCount ≤ m.config.maxInstructions.toNat := by
  cases hmove with
  | stop hgate _ _ =>
    have hlt := instructionCount_lt_of_gate hgate
    exact hlt
  | go hgate _ _ =>
    have hlt := instructionCount_lt_of_gate hgate
    exact hlt
  | _ => exact h

/-- **The limit of instructions bounds every run.**  A run takes at most as many steps as
instructions are left, and so it never uses up a budget above that.  Driving a machine through its
pauses, wherever they are, comes to an end after at most twice as many steps and one more.  And
whatever becomes of a machine, its count of instructions stays within the limit, as long as the
limit is not lowered. -/
theorem limit_bounds_runs {σ : Type} (visit : σ → Turn → σ) (s : σ) (m : Machine) (budget : Nat)
    (config : Config) (changes : List Change) :
    ((m.run budget).2.steps ≤ m.config.maxInstructions.toNat - m.instructionCount ∧
      (m.config.maxInstructions.toNat - m.instructionCount < budget →
        (m.run budget).2.stop ≠ .budget)) ∧
    (∃ k, k + 1 ≤ 2 * (m.config.maxInstructions.toNat - m.instructionCount) + 1 ∧
      (∀ j < k, goesOn (after j m).step.2 = true) ∧
      goesOn (after k m).step.2 = false ∧
      m.drive visit s = ((turns k m).foldl visit s, (after k m).turn)) ∧
    (NeverLowered Config.maxInstructions (new config) changes →
      ((new config).changeAll changes).instructionCount ≤
        ((new config).changeAll changes).config.maxInstructions.toNat) := by
  refine ⟨m.run_within_left budget, ?_, ?_⟩
  · obtain ⟨k, hk, hsteps⟩ := exists_drive_eq visit s m
    have hle := m.remaining_le
    exact ⟨k, by omega, hsteps⟩
  · intro hkept
    have hnew : Within (fun _ count => count) Config.maxInstructions (new config) :=
      .of_start rfl rfl rfl rfl
    exact (hnew.changeAll rfl Move.instructionCount_le hkept).present

/-- A jump to itself at a breakpoint, with a condition that always holds: it pauses before and after
every instruction. -/
def pausing : Machine :=
  let m := (new { memorySize := .small, maxInstructions := 3 }).loadWords [3, 0]
  { m with breakpoints := (Breakpoints.none.add 0).addCondition ⟨.accumulator, .eq, 0⟩ }

/-- What may become of a machine whose limit is raised on the way. -/
def raised : List Change :=
  [.operation (.loadWords [3, 0]), .operation (.run 4), .operation (.setMaxInstructions 5),
    .memory (Memory.fresh .large), .operation .stepBack, .operation (.run 9)]

/-- A program that pauses at every turn is still driven to its end, and a raised limit bounds the
count. -/
theorem limit_bounds_runs_pausing :
    (pausing.run 4).2.stop ≠ .budget ∧
    (∃ k, k + 1 ≤ 7 ∧ goesOn (after k pausing).step.2 = false) ∧
    ((new { maxInstructions := 3 }).changeAll raised).instructionCount ≤ 5 := by
  obtain ⟨⟨-, hbudget⟩, ⟨k, hk, -, hlast, -⟩, hcount⟩ :=
    limit_bounds_runs (fun _ _ => ()) () pausing 4 { maxInstructions := 3 } raised
  have hleft : pausing.config.maxInstructions.toNat - pausing.instructionCount = 3 := by
    decide +kernel
  rw [hleft] at hbudget hk
  have hkept : NeverLowered Config.maxInstructions (new { maxInstructions := 3 }) raised :=
    ⟨by decide +kernel, by decide +kernel, by decide +kernel, by decide +kernel, by decide +kernel,
      by decide +kernel, trivial⟩
  have hlimit : ((new { maxInstructions := 3 }).changeAll raised).config.maxInstructions = 5 := by
    decide +kernel
  have hwithin := hcount hkept
  rw [hlimit] at hwithin
  exact ⟨hbudget (by decide), ⟨k, hk, hlast⟩, hwithin⟩

end TernaryMachine.Machine
