import Mathlib.Data.Int.ModEq
import TernaryMachine.Proofs.Machine.Refinement
import TernaryMachine.Proofs.Machine.Turns
import TernaryMachine.Proofs.Machine.Walk

/-!
# Arithmetic of the accumulator

Six instructions calculate with the accumulator and wrap around.  `Arithmetic` lists them with what
they do to a word and what they do to an integer without bounds; modulo `2 ^ 64` these are the same
(`toInt_onWords_modEq`), and the second only depends on its argument modulo `2 ^ 64`
(`exact_modEq`).  So a run that does nothing else to the accumulator leaves the one word that is
congruent to the unbounded result (`modEq_after`, `Word.eq_of_modEq`).

The shift to the right is no such homomorphism.  It takes an exact floor, and undoes a shift to the
left just where that did not wrap around (`floorThird_mul_three_eq_iff`).
-/

set_option autoImplicit false

namespace TernaryMachine

namespace Word

/-- No two words are congruent. -/
theorem eq_of_modEq {w w' : Word} (h : w.toInt ≡ w'.toInt [ZMOD 2 ^ 64]) : w = w' := by
  have hlo := w.le_toInt
  have hhi := w.toInt_lt
  have hlo' := w'.le_toInt
  have hhi' := w'.toInt_lt
  apply Int64.toInt_inj.1
  unfold Int.ModEq at h
  omega

end Word

/-- The instructions that calculate with the accumulator and wrap around. -/
inductive Arithmetic where
  | add (operand : Word)
  | sub (operand : Word)
  | inc
  | dec
  | neg
  | shl
  deriving DecidableEq

namespace Arithmetic

/-- What an instruction makes of the accumulator. -/
def onWords : Arithmetic → Word → Word
  | add operand, acc => acc + operand
  | sub operand, acc => acc - operand
  | inc, acc => acc + 1
  | dec, acc => acc - 1
  | neg, acc => -acc
  | shl, acc => acc * 3

/-- The same on an integer without bounds. -/
def exact : Arithmetic → Int → Int
  | add operand, x => x + operand.toInt
  | sub operand, x => x - operand.toInt
  | inc, x => x + 1
  | dec, x => x - 1
  | neg, x => -x
  | shl, x => x * 3

/-- On words an instruction does what it does without bounds, and wraps around once. -/
theorem toInt_onWords (a : Arithmetic) (w : Word) :
    (a.onWords w).toInt = (a.exact w.toInt).bmod (2 ^ 64) := by
  cases a with
  | add operand => exact Int64.toInt_add w operand
  | sub operand => exact Int64.toInt_sub w operand
  | inc => exact Int64.toInt_add w 1
  | dec => exact Int64.toInt_sub w 1
  | neg => exact Int64.toInt_neg w
  | shl => exact Int64.toInt_mul w 3

/-- On words, the operation is the exact one modulo `2 ^ 64`. -/
theorem toInt_onWords_modEq (a : Arithmetic) (w : Word) :
    (a.onWords w).toInt ≡ a.exact w.toInt [ZMOD 2 ^ 64] := by
  rw [toInt_onWords]
  exact Int.bmod_emod

/-- The exact operations respect congruence modulo `2 ^ 64`. -/
theorem exact_modEq (a : Arithmetic) {x y : Int} (h : x ≡ y [ZMOD 2 ^ 64]) :
    a.exact x ≡ a.exact y [ZMOD 2 ^ 64] := by
  cases a with
  | add operand => exact h.add_right _
  | sub operand => exact h.sub_right _
  | inc => exact h.add_right _
  | dec => exact h.sub_right _
  | neg => exact h.neg
  | shl => exact h.mul_right _

end Arithmetic

namespace Word

/-- The floor of a third is given by its bounds. -/
theorem floorThird_bounds (w : Word) :
    3 * (floorThird w).toInt ≤ w.toInt ∧ w.toInt < 3 * (floorThird w).toInt + 3 := by
  rw [Core.toInt_floorThird, Int.fdiv_eq_ediv_of_nonneg _ (by decide)]
  omega

/-- A third of three times a word is the word just where three times the word is one: to wrap around
moves it by a multiple of `2 ^ 64`, and its third by far more than the floor can take back. -/
theorem floorThird_mul_three_eq_iff (w : Word) :
    floorThird (w * 3) = w ↔ least ≤ 3 * w.toInt ∧ 3 * w.toInt ≤ greatest := by
  have hlo := (w * 3).le_toInt
  have hhi := (w * 3).toInt_lt
  have hbounds := floorThird_bounds (w * 3)
  obtain ⟨wraps, hwraps⟩ : (2 ^ 64 : Int) ∣ w.toInt * 3 - (w * 3).toInt :=
    (Arithmetic.shl.toInt_onWords_modEq w).dvd
  rw [← Int64.toInt_inj]
  unfold least greatest
  constructor
  · intro h
    omega
  · intro h
    omega

end Word

/-- The calculation that an item asks for, if it does. -/
def Item.arithmetic? : Item → Option Arithmetic
  | .withOperand .add operand => some (.add operand)
  | .withOperand .sub operand => some (.sub operand)
  | .plain .inc => some .inc
  | .plain .dec => some .dec
  | .plain .neg => some .neg
  | .plain .shl => some .shl
  | _ => none

/-- An arithmetic item puts the result into the accumulator and goes on. -/
theorem Core.carryOut_of_arithmetic {item : Item} {a : Arithmetic}
    (h : item.arithmetic? = some a) (c : Core) (maxDepth : Nat) :
    ∃ core, c.carryOut maxDepth item = (core, .ok .next) ∧
      core.registers.acc = a.onWords c.registers.acc := by
  cases item with
  | plain op =>
    cases op with
    | inc =>
      cases h
      exact ⟨_, rfl, rfl⟩
    | dec =>
      cases h
      exact ⟨_, rfl, rfl⟩
    | neg =>
      cases h
      exact ⟨_, rfl, rfl⟩
    | shl =>
      cases h
      exact ⟨_, rfl, rfl⟩
    | _ => cases h
  | withOperand op operand =>
    cases op with
    | add =>
      cases h
      exact ⟨_, rfl, rfl⟩
    | sub =>
      cases h
      exact ⟨_, rfl, rfl⟩
    | _ => cases h
  | _ => cases h

namespace Machine

variable {m : Machine}

/-! ## Steps that calculate -/

/-- A step that only changes the accumulator and goes on does not fail. -/
theorem acc_step {w : Word} (hexecutes : m.executes = true)
    (hcarry : ∀ c : Core, c.registers.acc = m.registers.acc →
      ∃ core, c.carryOut m.config.maxCallDepth.toNat m.item = (core, .ok .next) ∧
        core.registers.acc = w) :
    m.step.1.registers.acc = w ∧ ∃ outcome, m.step.2 = .ok outcome := by
  obtain ⟨word, hgate⟩ := exists_gate_of_executes hexecutes
  obtain ⟨core, hcore, hacc⟩ := hcarry (m.fetch word).toCore rfl
  have hword := peek?_of_gate hgate
  have hexec : (m.fetch word).toCore.execute m.config.maxCallDepth.toNat word =
      (core, .ok .next) :=
    (Core.execute_eq_carryOut (c := (m.fetch word).toCore) hword).trans hcore
  refine ⟨?_, exists_outcome_of_flow hgate hexec⟩
  rw [← hacc]
  exact congrArg (fun c => c.registers.acc) (toCore_step hgate hexec)

/-- A step that runs an arithmetic item puts the result into the accumulator and does not fail. -/
theorem step_of_arithmetic {a : Arithmetic} (hexecutes : m.executes = true)
    (h : m.item.arithmetic? = some a) :
    m.step.1.registers.acc = a.onWords m.registers.acc ∧ ∃ outcome, m.step.2 = .ok outcome := by
  refine acc_step hexecutes fun c hacc => ?_
  rw [← hacc]
  exact Core.carryOut_of_arithmetic h c _

/-- A step that shifts right leaves the third of the accumulator, rounded down, and does not fail.
-/
theorem step_of_shr (hexecutes : m.executes = true) (h : m.item = .plain .shr) :
    m.step.1.registers.acc = Word.floorThird m.registers.acc ∧
      ∃ outcome, m.step.2 = .ok outcome := by
  refine acc_step hexecutes fun c hacc => ?_
  rw [h, ← hacc]
  exact ⟨_, rfl, rfl⟩

end Machine

/-! ## Runs that calculate -/

/-- The calculation that a turn does, if it does one. -/
def Turn.arithmetic? (turn : Turn) : Option Arithmetic :=
  if turn.before.executes then turn.before.item.arithmetic? else none

/-- What a turn makes of an integer without bounds in the place of the accumulator. -/
def Turn.exact (turn : Turn) (x : Int) : Int :=
  match turn.arithmetic? with
  | some a => a.exact x
  | none => x

/-- What a turn does exactly respects congruence modulo `2 ^ 64`. -/
theorem Turn.exact_modEq (turn : Turn) {x y : Int} (h : x ≡ y [ZMOD 2 ^ 64]) :
    turn.exact x ≡ turn.exact y [ZMOD 2 ^ 64] := by
  unfold exact
  split
  · next a _ => exact a.exact_modEq h
  · exact h

namespace Machine

variable {m : Machine}

/-- What the calculations of a row of turns come to without bounds. -/
def unbounded (turns : List Turn) (x : Int) : Int := turns.foldl (fun x turn => turn.exact x) x

/-- What a row of turns does exactly respects congruence modulo `2 ^ 64`. -/
theorem unbounded_modEq (turns : List Turn) {x y : Int} (h : x ≡ y [ZMOD 2 ^ 64]) :
    unbounded turns x ≡ unbounded turns y [ZMOD 2 ^ 64] := by
  induction turns generalizing x y with
  | nil => exact h
  | cons turn rest ih => exact ih (turn.exact_modEq h)

/-- A turn that runs an arithmetic item puts the result into the accumulator and does not fail. -/
theorem step_of_turn_arithmetic {a : Arithmetic} (h : m.turn.arithmetic? = some a) :
    m.step.1.registers.acc = a.onWords m.registers.acc ∧ ∃ outcome, m.step.2 = .ok outcome := by
  unfold Turn.arithmetic? at h
  split at h
  · next hexecutes => exact step_of_arithmetic hexecutes h
  · cases h

/-- A turn that calculates, or leaves the accumulator alone, is exact modulo `2 ^ 64`. -/
theorem modEq_step
    (h : m.turn.arithmetic? = none → m.step.1.registers.acc = m.registers.acc) :
    m.step.1.registers.acc.toInt ≡ m.turn.exact m.registers.acc.toInt [ZMOD 2 ^ 64] := by
  unfold Turn.exact
  cases harithmetic : m.turn.arithmetic? with
  | none =>
    rw [h harithmetic]
  | some a =>
    rw [(step_of_turn_arithmetic harithmetic).1]
    exact a.toInt_onWords_modEq m.registers.acc

/-- After a row of steps, the accumulator is congruent to the exact result, as long as nothing else
writes to it. -/
theorem modEq_after {n : Nat}
    (h : ∀ turn ∈ turns n m, turn.arithmetic? = none →
      turn.after.registers.acc = turn.before.registers.acc) :
    (after n m).registers.acc.toInt ≡
      unbounded (turns n m) m.registers.acc.toInt [ZMOD 2 ^ 64] := by
  induction n generalizing m with
  | zero => rfl
  | succ n ih =>
    obtain ⟨hfirst, hrest⟩ := List.forall_mem_cons.1 h
    exact (ih hrest).trans (unbounded_modEq _ (modEq_step hfirst))

/-- **Arithmetic of the accumulator is exact modulo `2 ^ 64`.**  If every step of a run that is none
of the six calculations leaves the accumulator alone, then the run leaves the one word that is
congruent to what the same calculations come to on integers without bounds.  No calculation fails,
whatever the accumulator and the operand are.  A shift to the right leaves the floor of a third, and
behind a shift to the left it gives the accumulator back just if three times the accumulator is a
word. -/
theorem arithmetic_exact :
    (∀ (n : Nat) (m : Machine),
      (∀ turn ∈ turns n m, turn.arithmetic? = none →
        turn.after.registers.acc = turn.before.registers.acc) →
      ∀ w : Word, w.toInt ≡ unbounded (turns n m) m.registers.acc.toInt [ZMOD 2 ^ 64] ↔
        w = (after n m).registers.acc) ∧
    (∀ m : Machine, m.turn.arithmetic? ≠ none → ∃ outcome, m.step.2 = .ok outcome) ∧
    (∀ m : Machine, m.executes = true → m.item = .plain .shr →
      let third := m.step.1.registers.acc.toInt
      (∃ outcome, m.step.2 = .ok outcome) ∧
        3 * third ≤ m.registers.acc.toInt ∧ m.registers.acc.toInt < 3 * third + 3) ∧
    (∀ m next : Machine, m.executes = true → m.item = .plain .shl →
      next.executes = true → next.item = .plain .shr →
      next.registers.acc = m.step.1.registers.acc →
      (next.step.1.registers.acc = m.registers.acc ↔
        Word.least ≤ 3 * m.registers.acc.toInt ∧ 3 * m.registers.acc.toInt ≤ Word.greatest)) := by
  refine ⟨?_, ?_, ?_, ?_⟩
  · intro n m hturns w
    have hafter := modEq_after hturns
    constructor
    · intro hw
      exact Word.eq_of_modEq (hw.trans hafter.symm)
    · rintro rfl
      exact hafter
  · intro m harithmetic
    obtain ⟨a, ha⟩ := Option.ne_none_iff_exists'.1 harithmetic
    exact (step_of_turn_arithmetic ha).2
  · intro m hexecutes hitem third
    obtain ⟨hacc, hok⟩ := step_of_shr hexecutes hitem
    have hthird : third = (Word.floorThird m.registers.acc).toInt := congrArg Int64.toInt hacc
    rw [hthird]
    exact ⟨hok, Word.floorThird_bounds m.registers.acc⟩
  · intro m next hexecutes hitem hexecutes' hitem' hnext
    have hshl : m.item.arithmetic? = some .shl := by rw [hitem]; rfl
    obtain ⟨hacc, -⟩ := step_of_arithmetic hexecutes hshl
    obtain ⟨hacc', -⟩ := step_of_shr hexecutes' hitem'
    rw [hacc', hnext, hacc]
    exact Word.floorThird_mul_three_eq_iff m.registers.acc

/-- The least word is its own negative and wraps around to itself when shifted to the left; what it
stands for without bounds has left the words at once. -/
theorem arithmetic_exact_least :
    let m := (new { memorySize := .small }).loadWords [1, -9223372036854775808, 8, 6, -6]
    unbounded (turns 3 m) 0 = 27670116110564327424 ∧
      (after 3 m).registers.acc = -9223372036854775808 ∧
      (after 3 m).step.1.registers.acc ≠ (after 2 m).registers.acc := by
  intro m
  obtain ⟨hruns, -, -, hback⟩ := arithmetic_exact
  have hword := (hruns 3 m (by decide +kernel) (-9223372036854775808)).1 (by decide +kernel)
  have hshifts := hback (after 2 m) (after 3 m) (by decide +kernel) (by decide +kernel)
    (by decide +kernel) (by decide +kernel) (by decide +kernel)
  exact ⟨by decide +kernel, hword.symm, fun hequal => absurd (hshifts.1 hequal) (by decide +kernel)⟩

end Machine

end TernaryMachine
