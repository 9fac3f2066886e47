import TernaryMachine.Proofs.Machine.Operation
import TernaryMachine.Proofs.Machine.Turns

/-!
# What an operation does to a run

`Machine.Passage` is the inversion of `Machine.perform` as far as a run goes: an operation takes
steps, or takes one back, or begins anew, or leaves the run where it is.  Seventeen operations
become four cases (`passage_perform`), and an invariant that says nothing about settings and words
needs no more.

Not every operation that leaves the run alone leaves the past alone: the oldest moments may go, so
what is known of the history afterwards is that it is a part of what it was, from the newest moment
on.
-/

set_option autoImplicit false

namespace TernaryMachine.Machine

variable {m m' : Machine}

/-- What an operation can do to the run that a machine is in. -/
inductive Passage (m : Machine) : Machine → Prop where
  | steps (n : Nat) : Passage m (after n m)
  | back {back : Machine} (hback : m.stepBack = .ok back) : Passage m back
  | anew {m' : Machine} (hregisters : m'.registers = {}) (hstack : m'.callStack = [])
      (hcount : m'.instructionCount = 0) (hmoments : m'.history.moments = []) : Passage m m'
  | stay {m' : Machine} (hregisters : m'.registers = m.registers)
      (hstack : m'.callStack = m.callStack) (hcount : m'.instructionCount = m.instructionCount)
      (hmoments : m'.history.moments <+: m.history.moments) : Passage m m'

/-- Nothing at all is a passage. -/
theorem Passage.refl (m : Machine) : m.Passage m := .steps 0

/-- Loading a program text is a passage. -/
theorem passage_loadProgram (m : Machine) (text : String) :
    m.Passage (m.loadProgram text).1 := by
  unfold loadProgram
  split
  · exact .anew rfl rfl rfl rfl
  · exact .anew rfl rfl rfl rfl

/-- Changing the size of memory is a passage. -/
theorem passage_resize {size : MemorySize} (h : m.resize size = .ok m') : m.Passage m' := by
  unfold resize at h
  split at h
  · cases h
  · cases h
    exact .anew rfl rfl rfl rfl

/-- Every operation does one of the four. -/
theorem passage_perform (m : Machine) (operation : Operation) :
    m.Passage (m.perform operation).1 := by
  cases operation with
  | step => exact .steps 1
  | run budget =>
    have hrun : (m.perform (.run budget)).1 = after (runLength budget m) m := m.run_eq_after budget
    rw [hrun]
    exact .steps _
  | stepBack =>
    simp only [perform]
    split
    · next back hback => exact .back hback
    · exact .refl m
  | reset => exact .anew rfl rfl rfl rfl
  | loadWords words => exact .anew rfl rfl rfl rfl
  | loadProgram text =>
    rw [perform_loadProgram_fst]
    exact passage_loadProgram m text
  | resize size =>
    simp only [perform]
    split
    · next resized hresize => exact passage_resize hresize
    · exact .refl m
  | setHistoryEnabled on =>
    refine .stay rfl rfl rfl ?_
    cases on with
    | true => exact List.prefix_rfl
    | false => exact List.nil_prefix
  | setMaxHistory limit => exact .stay rfl rfl rfl (List.take_prefix _ _)
  | _ => exact .stay rfl rfl rfl List.prefix_rfl

end TernaryMachine.Machine
