import TernaryMachine.Proofs.Machine.Transition

/-!
# Runs of single steps

`Machine.turns` lists the next steps of a machine as turns, whatever comes of each, and
`Machine.after` is the machine that they leave.  A run with a budget is as many of them as
`Machine.runLength` counts (`run_eq_after`).  `Machine.driven` lists the turns of a machine that
is driven through its pauses to the end; `drive_induction` is the induction that goes with it, on
the steps that remain.
-/

set_option autoImplicit false

namespace TernaryMachine

/-- Whether a turn got past the gate: it ran an instruction or faulted inside one. -/
def Turn.executed (turn : Turn) : Bool := turn.before.executes

namespace Machine

/-- The next `n` steps of a machine, whatever comes of each. -/
def turns : Nat → Machine → List Turn
  | 0, _ => []
  | n + 1, m => m.turn :: turns n m.step.1

/-- The machine after its next `n` steps. -/
def after : Nat → Machine → Machine
  | 0, m => m
  | n + 1, m => after n m.step.1

/-- Steps are taken one row after the other. -/
theorem after_add (i j : Nat) (m : Machine) : after (i + j) m = after j (after i m) := by
  induction i generalizing m with
  | zero => rw [Nat.zero_add, after]
  | succ i ih =>
    rw [Nat.succ_add, after, after]
    exact ih m.step.1

/-- The turns of steps are those of the first and then those of the others. -/
theorem turns_add (i j : Nat) (m : Machine) :
    turns (i + j) m = turns i m ++ turns j (after i m) := by
  induction i generalizing m with
  | zero =>
    rw [Nat.zero_add]
    rfl
  | succ i ih =>
    rw [Nat.succ_add, turns, turns, after, ih m.step.1]
    rfl

/-- So many steps are as many turns. -/
theorem length_turns (n : Nat) (m : Machine) : (turns n m).length = n := by
  induction n generalizing m with
  | zero => rfl
  | succ n ih => rw [turns, List.length_cons, ih]

/-- What every step keeps, any number of them keeps. -/
theorem after_induction {P : Machine → Prop} (hstep : ∀ m : Machine, P m → P m.step.1)
    {m : Machine} (h : P m) (n : Nat) : P (after n m) := by
  induction n generalizing m with
  | zero => exact h
  | succ n ih => exact ih (hstep m h)

/-- Neither a run nor any turn of it changes the frame of memory. -/
theorem frame_after (n : Nat) (m : Machine) :
    (after n m).memory.frame = m.memory.frame ∧
      ∀ turn ∈ turns n m, turn.before.memory.frame = m.memory.frame := by
  induction n generalizing m with
  | zero => exact ⟨rfl, by simp [turns]⟩
  | succ n ih =>
    obtain ⟨hlast, hbefore⟩ := ih m.step.1
    refine ⟨hlast.trans m.move_step.frame_eq, ?_⟩
    intro turn hturn
    rcases List.mem_cons.1 hturn with rfl | hturn
    · rfl
    · exact (hbefore turn hturn).trans m.move_step.frame_eq

/-- Every turn of a run is the next step of some machine. -/
theorem exists_turn_of_mem_turns {n : Nat} {m : Machine} {turn : Turn} (h : turn ∈ turns n m) :
    ∃ before : Machine, turn = before.turn := by
  induction n generalizing m with
  | zero => cases h
  | succ n ih =>
    rcases List.mem_cons.1 h with rfl | hrest
    · exact ⟨m, rfl⟩
    · exact ih hrest

/-- How many steps a run takes: it stops behind the first that does not simply go on. -/
def runLength : Nat → Machine → Nat
  | 0, _ => 0
  | budget + 1, m =>
    match m.step.2 with
    | .ok .continued => runLength budget m.step.1 + 1
    | _ => 1

/-- A run is as many single steps. -/
theorem run_eq_after (budget : Nat) (m : Machine) :
    (m.run budget).1 = after (runLength budget m) m := by
  suffices hfrom : ∀ taken : Nat, (runFrom taken budget m).1 = after (runLength budget m) m from
    hfrom 0
  induction budget generalizing m with
  | zero => exact fun _ => rfl
  | succ budget ih =>
    intro taken
    have hone : ∀ k, after (k + 1) m = after k m.step.1 := fun _ => rfl
    cases hstep : m.step with
    | mk next result =>
      rw [hstep] at hone
      cases result with
      | error f =>
        simp only [runFrom, runLength, hstep]
        exact (hone 0).symm
      | ok outcome =>
        cases outcome with
        | halted reason =>
          simp only [runFrom, runLength, hstep]
          exact (hone 0).symm
        | continued =>
          simp only [runFrom, runLength, hstep, hone]
          exact ih next (taken + 1)

/-! ## Driving to the end -/

/-- The turns of a machine that is driven to its end, the last one included. -/
def driven (m : Machine) : List Turn :=
  let (passed, last) := m.drive (fun turns turn => turns ++ [turn]) []
  passed ++ [last]

/-- What holds of a machine whenever it holds of the machine that driving goes on with, holds. -/
theorem drive_induction {P : Machine → Prop}
    (h : ∀ m : Machine, (goesOn m.step.2 = true → P m.step.1) → P m) (m : Machine) : P m := by
  induction hn : m.remaining using Nat.strongRecOn generalizing m with
  | ind n ih =>
    refine h m fun hgo => ?_
    have hlt : m.step.1.remaining < n := hn ▸ remaining_step_lt hgo
    exact ih _ hlt _ rfl

section Drive

variable {σ : Type} (visit : σ → Turn → σ) (s : σ) {m : Machine}

/-- A drive visits a turn after which the machine goes on, and drives on from there. -/
theorem drive_of_goesOn (hgo : goesOn m.step.2 = true) :
    m.drive visit s = m.step.1.drive visit (visit s m.turn) := by
  have hturn : goesOn m.turn.result = true := hgo
  rw [drive]
  simp only [hturn, dif_pos]
  rfl

/-- A drive ends with the first turn after which the machine does not go on. -/
theorem drive_of_stop (hstop : goesOn m.step.2 = false) : m.drive visit s = (s, m.turn) := by
  have hturn : goesOn m.turn.result = false := hstop
  rw [drive]
  simp only [hturn, Bool.false_eq_true, dif_neg, not_false_eq_true]

end Drive

/-- Where driving ends does not depend on what is done with the turns. -/
theorem drive_last {σ τ : Type} (visit : σ → Turn → σ) (visit' : τ → Turn → τ) (s : σ) (t : τ)
    (m : Machine) : (m.drive visit s).2 = (m.drive visit' t).2 := by
  induction m using drive_induction generalizing s t with
  | h m ih =>
    by_cases hgo : goesOn m.step.2 = true
    · rw [drive_of_goesOn visit s hgo, drive_of_goesOn visit' t hgo]
      exact ih hgo _ _
    · rw [Bool.not_eq_true] at hgo
      rw [drive_of_stop visit s hgo, drive_of_stop visit' t hgo]

/-- The turns that a drive visits stand behind those that it started with. -/
theorem drive_append (front : List Turn) (m : Machine) :
    (m.drive (fun turns turn => turns ++ [turn]) front).1 =
      front ++ (m.drive (fun turns turn => turns ++ [turn]) []).1 := by
  induction m using drive_induction generalizing front with
  | h m ih =>
    by_cases hgo : goesOn m.step.2 = true
    · rw [drive_of_goesOn _ front hgo, drive_of_goesOn _ [] hgo, ih hgo (front ++ [m.turn]),
        ih hgo ([] ++ [m.turn])]
      simp
    · rw [Bool.not_eq_true] at hgo
      rw [drive_of_stop _ front hgo, drive_of_stop _ [] hgo]
      simp

/-- The turns of a drive begin with one after which the machine goes on, if there are more. -/
theorem driven_of_goesOn {m : Machine} (hgo : goesOn m.step.2 = true) :
    m.driven = m.turn :: m.step.1.driven := by
  have hlast := drive_last (fun turns turn => turns ++ [turn]) (fun turns turn => turns ++ [turn])
    ([] ++ [m.turn]) [] m.step.1
  simp only [driven]
  rw [drive_of_goesOn _ [] hgo, drive_append ([] ++ [m.turn]), hlast]
  simp

/-- A drive whose first turn stops is this turn. -/
theorem driven_of_stop {m : Machine} (hstop : goesOn m.step.2 = false) : m.driven = [m.turn] := by
  simp only [driven]
  rw [drive_of_stop _ [] hstop]
  rfl

/-- Every turn of a drive is the next step of some machine. -/
theorem exists_turn_of_mem_driven {m : Machine} {turn : Turn} (h : turn ∈ m.driven) :
    ∃ before : Machine, turn = before.turn := by
  induction m using drive_induction with
  | h m ih =>
    by_cases hgo : goesOn m.step.2 = true
    · rw [driven_of_goesOn hgo] at h
      rcases List.mem_cons.1 h with rfl | hrest
      · exact ⟨m, rfl⟩
      · exact ih hgo hrest
    · rw [Bool.not_eq_true] at hgo
      rw [driven_of_stop hgo] at h
      exact ⟨m, List.mem_singleton.1 h⟩

end Machine

end TernaryMachine
