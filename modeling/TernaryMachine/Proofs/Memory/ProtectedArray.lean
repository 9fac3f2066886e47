import TernaryMachine.Proofs.Machine.Safety

/-!
# Memory as a protected array

Whatever has been asked of a memory, it is an array whose cells hold what was written to them last,
with some of them protected.  What a call wrote to a cell, or did to its protection, is read off the
operation and the answer alone (`MemoryCall.written?`, `MemoryCall.guards?`), so the calls so far
say what memory holds: the latest of them that did something to the cell decides.

`Called.peek?_eq` and `Called.isProtected_eq` say what one call makes of a cell, and
`view_performAll` takes either of them through a row of calls.
-/

set_option autoImplicit false

namespace TernaryMachine

/-- An operation that was asked of a memory, and what was answered. -/
structure MemoryCall where
  operation : MemoryOperation
  answer : MemoryAnswer

namespace MemoryCall

/-- The word that a call wrote to a cell, if it was not refused and wrote one there. -/
def written? (a : Nat) (call : MemoryCall) : Option Word :=
  match call.answer, call.operation with
  | .refused _, _ => none
  | _, .store b w => if b = a then some w else none
  | _, .poke b w => if b = a then some w else none
  | _, .loadImage image => image[a]?
  | _, .clear => some 0
  | _, _ => none

/-- Whether a cell is protected after a call, if the call was not refused and decided that. -/
def guards? (a : Nat) (call : MemoryCall) : Option Bool :=
  match call.answer, call.operation with
  | .refused _, _ => none
  | _, .protect b => if b = a then some true else none
  | _, .unprotect b => if b = a then some false else none
  | _, .clear => some false
  | _, _ => none

variable {β : Type}

/-- What the latest call did that did anything of the kind. -/
def latest? (did : MemoryCall → Option β) (calls : List MemoryCall) : Option β :=
  calls.reverse.findSome? did

/-- The latest of calls to do something is the first only if none of the others does it. -/
theorem latest?_cons (did : MemoryCall → Option β) (call : MemoryCall) (calls : List MemoryCall) :
    latest? did (call :: calls) = (latest? did calls).or (did call) := by
  rw [latest?, List.reverse_cons, List.findSome?_append, List.findSome?_singleton, latest?]

end MemoryCall

namespace Memory

/-- Memory after a row of operations, whatever came of them. -/
def performAll (m : Memory) (operations : List MemoryOperation) : Memory :=
  operations.foldl (fun m operation => (m.perform operation).1) m

/-- The calls of a row of operations. -/
def calls (m : Memory) : List MemoryOperation → List MemoryCall
  | [] => []
  | operation :: rest =>
    ⟨operation, (m.perform operation).2⟩ :: (m.perform operation).1.calls rest

variable {m m' : Memory}

/-! ## Cells -/

/-- A cell of memory holds a word. -/
theorem peek?_eq_of_lt {a : Nat} (ha : a < m.size) : m.peek? a = some ((m.peek? a).getD 0) := by
  rw [peek?, Array.getElem?_eq_getElem (show a < m.cells.size from ha)]
  rfl

/-- A written cell holds the new word, and every other cell its own. -/
theorem peek?_write {a : Nat} (ha : a < m.size) (b : Nat) (w : Word) :
    (m.write b w).peek? a = some (if b = a then w else (m.peek? a).getD 0) := by
  rw [peek?, write, Array.getElem?_setIfInBounds]
  by_cases hba : b = a
  · have hb : b < m.cells.size := hba ▸ ha
    rw [if_pos hba, if_pos hb, if_pos hba]
  · rw [if_neg hba, if_neg hba]
    exact peek?_eq_of_lt ha

/-- A cell within an image holds the image's word, and every other cell its own. -/
theorem peek?_loadImage {a : Nat} (ha : a < m.size) (image : List Word) :
    (m.loadImage image).peek? a = some (image[a]?.getD ((m.peek? a).getD 0)) := by
  have hold := peek?_eq_of_lt ha
  rw [peek?] at hold
  rw [peek?, loadImage, List.getElem?_toArray, List.getElem?_append, List.length_take]
  by_cases hin : a < image.length
  · rw [if_pos (Nat.lt_min.2 ⟨ha, hin⟩), List.getElem?_take_of_lt ha,
      List.getElem?_eq_getElem hin]
    rfl
  · -- Past the image the cells start again where it ends.
    have hout : image.length ≤ a := Nat.not_lt.1 hin
    have hlen : min m.size image.length = image.length :=
      Nat.min_eq_right (Nat.le_trans hout (Nat.le_of_lt ha))
    rw [if_neg (by omega), hlen, List.getElem?_drop, Nat.add_sub_cancel' hout,
      Array.getElem?_toList, List.getElem?_eq_none hout]
    exact hold

/-- A cell of cleared memory holds zero. -/
theorem peek?_clear {a : Nat} (ha : a < m.size) : m.clear.peek? a = some 0 := by
  rw [peek?, clear, Array.getElem?_replicate, if_pos (show a < m.cells.size from ha)]

/-! ## One call -/

namespace Called

variable {operation : MemoryOperation} {answer : MemoryAnswer}

/-- A store is refused just outside memory, which is checked first, and at a protected cell. -/
theorem store_answer {a : Nat} {w : Word} (h : m.Called (.store a w) m' answer) :
    answer = if m.size ≤ a then .refused (.outOfRange a)
      else if m.isProtected a = true then .refused (.protectedCell a) else .done := by
  simp only [isProtected, AddressSet.contains_eq_true_iff]
  cases h with
  | store _ ha hfree => rw [if_neg (Nat.not_le.2 ha), if_neg hfree]
  | storeOutside _ ha => rw [if_pos ha]
  | storeGuarded _ ha hguard => rw [if_neg (Nat.not_le.2 ha), if_pos hguard]

/-- Protection does not matter to a poke. -/
theorem poke_answer {a : Nat} {w : Word} (h : m.Called (.poke a w) m' answer) :
    answer = if m.size ≤ a then .refused (.outOfRange a) else .done := by
  cases h with
  | poke _ ha => rw [if_neg (Nat.not_le.2 ha)]
  | pokeOutside _ ha => rw [if_pos ha]

/-- A cell holds what the call wrote there, or what it held. -/
theorem peek?_eq {a : Nat} (ha : a < m.size) (h : m.Called operation m' answer) :
    m'.peek? a = some ((MemoryCall.written? a ⟨operation, answer⟩).getD ((m.peek? a).getD 0)) := by
  cases h with
  | load _ _ =>
    rw [peek?, cells_touch]
    exact peek?_eq_of_lt ha
  | @store b w _ _ =>
    have hcells : ((m.write b w).touch b).peek? a = (m.write b w).peek? a := by
      rw [peek?, cells_touch, peek?]
    rw [hcells, peek?_write ha]
    simp only [MemoryCall.written?]
    split <;> rfl
  | @poke b w _ =>
    rw [peek?_write ha]
    simp only [MemoryCall.written?]
    split <;> rfl
  | loadImage image => exact peek?_loadImage ha image
  | clear => exact peek?_clear ha
  | _ => exact peek?_eq_of_lt ha

/-- A cell is protected as the call decided, or as it was. -/
theorem isProtected_eq (a : Nat) (h : m.Called operation m' answer) :
    m'.isProtected a = (MemoryCall.guards? a ⟨operation, answer⟩).getD (m.isProtected a) := by
  cases h with
  | load _ _ =>
    rw [isProtected, guarded_touch]
    rfl
  | store _ _ _ =>
    rw [isProtected, guarded_touch]
    rfl
  | @protect b _ =>
    simp only [MemoryCall.guards?, isProtected]
    rw [Bool.eq_iff_iff, AddressSet.contains_eq_true_iff, AddressSet.mem_insert]
    split
    · next hba => simp [hba]
    · next hba => simp [Ne.symm hba]
  | unprotect b =>
    simp only [MemoryCall.guards?, isProtected, Memory.unprotect]
    rw [Bool.eq_iff_iff, AddressSet.contains_eq_true_iff, AddressSet.mem_erase]
    split
    · next hba => simp [hba]
    · next hba => simp [Ne.symm hba]
  | clear =>
    have hnot : ¬ AddressSet.empty.contains a = true := by simp
    exact Bool.not_eq_true _ ▸ hnot
  | _ => rfl

end Called

/-! ## All calls -/

/-- What every operation preserves, a row of operations preserves. -/
theorem performAll_induction {P : Memory → Prop}
    (hkeep : ∀ (m : Memory) (operation : MemoryOperation), P m → P (m.perform operation).1)
    (h : P m) (operations : List MemoryOperation) : P (m.performAll operations) := by
  induction operations generalizing m with
  | nil => exact h
  | cons operation rest ih => exact ih (hkeep m operation h)

/-- What every call decides or leaves as it was, the latest call that decided it has decided. -/
theorem view_performAll {β : Type} {P : Memory → Prop} (view : Memory → β)
    (did : MemoryCall → Option β)
    (hkeep : ∀ (m : Memory) (operation : MemoryOperation), P m → P (m.perform operation).1)
    (hview : ∀ (m : Memory) (operation : MemoryOperation), P m →
      view (m.perform operation).1 = (did ⟨operation, (m.perform operation).2⟩).getD (view m))
    (h : P m) (operations : List MemoryOperation) :
    view (m.performAll operations) =
      (MemoryCall.latest? did (m.calls operations)).getD (view m) := by
  induction operations generalizing m with
  | nil => rfl
  | cons operation rest ih =>
    have hrest := ih (hkeep m operation h)
    rw [calls, MemoryCall.latest?_cons]
    refine hrest.trans ?_
    rw [hview m operation h]
    cases MemoryCall.latest? did ((m.perform operation).1.calls rest) <;> rfl

variable {size : Nat}

/-- Operations keep the size of memory. -/
theorem Fits.performAll (h : m.Fits size) (operations : List MemoryOperation) :
    (m.performAll operations).Fits size :=
  performAll_induction (fun _ operation hm => hm.perform operation) h operations

/-- A cell holds what was written to it last. -/
theorem Fits.peek?_performAll (h : m.Fits size) (operations : List MemoryOperation) (a : Nat) :
    (m.performAll operations).peek? a =
      if a < size then
        some ((MemoryCall.latest? (MemoryCall.written? a) (m.calls operations)).getD
          ((m.peek? a).getD 0))
      else none := by
  have hlast := h.performAll operations
  split
  · next ha =>
    have hword := view_performAll (P := Fits size) (fun m => (m.peek? a).getD 0)
      (MemoryCall.written? a)
      (fun _ operation hm => hm.perform operation)
      (fun m operation hm => by
        have hlt : a < m.size := Nat.lt_of_lt_of_eq ha hm.cells.symm
        rw [(m.called operation).peek?_eq hlt]
        rfl) h operations
    have hlt : a < (m.performAll operations).size := Nat.lt_of_lt_of_eq ha hlast.cells.symm
    rw [peek?_eq_of_lt hlt]
    exact congrArg some hword
  · next ha =>
    have hle : (m.performAll operations).cells.size ≤ a := hlast.cells ▸ Nat.not_lt.1 ha
    exact Array.getElem?_eq_none hle

/-- A cell is protected as was decided last. -/
theorem isProtected_performAll (m : Memory) (operations : List MemoryOperation) (a : Nat) :
    (m.performAll operations).isProtected a =
      (MemoryCall.latest? (MemoryCall.guards? a) (m.calls operations)).getD (m.isProtected a) :=
  view_performAll (P := fun _ => True) (fun m => m.isProtected a) (MemoryCall.guards? a)
    (fun _ _ _ => trivial) (fun m operation _ => (m.called operation).isProtected_eq a)
    trivial operations

/-- Fresh memory fits its size. -/
theorem fits_fresh (size : MemorySize) : (fresh size).Fits size.words := Fits.fresh size false

/-- **Memory is a protected array.**  After any row of operations on a fresh memory there are as
many cells and counters as at first and none but cells are protected; a cell holds what the latest
call wrote there that was not refused, or zero, and it is protected if the latest call that decided
that protected it.  A store is refused just outside memory, which is checked first, and at a
protected cell; protection matters neither to a poke nor to an image.  What refuses leaves memory
as it was. -/
theorem protected_array (size : MemorySize) (operations : List MemoryOperation) :
    let m := (fresh size).performAll operations
    let calls := (fresh size).calls operations
    m.cells.size = size.words ∧ m.counts.size = size.words ∧
    (∀ a ∈ m.guarded, a < size.words) ∧
    (∀ a, m.peek? a = if a < size.words then
      some ((MemoryCall.latest? (MemoryCall.written? a) calls).getD 0) else none) ∧
    (∀ a, m.isProtected a = (MemoryCall.latest? (MemoryCall.guards? a) calls).getD false) ∧
    (∀ a w, (m.perform (.store a w)).2 =
      if size.words ≤ a then .refused (.outOfRange a)
      else if m.isProtected a then .refused (.protectedCell a) else .done) ∧
    (∀ a w, (m.perform (.poke a w)).2 =
      if size.words ≤ a then .refused (.outOfRange a) else .done) ∧
    (∀ image, (m.perform (.loadImage image)).2 = .written (min image.length size.words)) ∧
    (∀ operation cause,
      (m.perform operation).2 = .refused cause → (m.perform operation).1 = m) := by
  intro m calls
  have hfits : m.Fits size.words := (fits_fresh size).performAll operations
  have hsize : m.size = size.words := hfits.cells
  refine ⟨hfits.cells, hfits.counts, hfits.guarded, fun a => ?_, fun a => ?_, fun a w => ?_,
    fun a w => ?_, fun image => ?_, fun operation cause hrefused => ?_⟩
  · have hpeek := (fits_fresh size).peek?_performAll operations a
    have hzero : ((fresh size).peek? a).getD 0 = 0 := by
      rw [peek?, fresh, Array.getElem?_replicate]
      split <;> rfl
    rw [hzero] at hpeek
    exact hpeek
  · exact isProtected_performAll (fresh size) operations a
  · rw [← hsize]
    exact (m.called (.store a w)).store_answer
  · rw [← hsize]
    exact (m.called (.poke a w)).poke_answer
  · rw [← hsize]
    rfl
  · have hcalled := m.called operation
    rw [hrefused] at hcalled
    exact hcalled.eq_of_refused

/-- A refused store leaves the word that was poked, and its access is not counted. -/
theorem protected_array_retried :
    let m := (fresh .small).performAll [.setTracking true, .protect 1, .poke 1 5, .store 1 7]
    m.peek? 1 = some 5 ∧ m.isProtected 1 = true ∧
      m.perform (.store 1 7) = (m, .refused (.protectedCell 1)) ∧
      (m.perform (.store 27 7)).2 = .refused (.outOfRange 27) := by
  intro m
  obtain ⟨-, -, -, hpeek, hguard, hstore, -, -, hrefused⟩ :=
    protected_array .small [.setTracking true, .protect 1, .poke 1 5, .store 1 7]
  have hprotected : m.isProtected 1 = true := (hguard 1).trans (by decide +kernel)
  have hanswer : (m.perform (.store 1 7)).2 = .refused (.protectedCell 1) := by
    refine (hstore 1 7).trans ?_
    rw [if_neg (by decide)]
    exact if_pos hprotected
  refine ⟨(hpeek 1).trans (by decide +kernel), hprotected, ?_, hstore 27 7⟩
  exact Prod.ext (hrefused _ _ hanswer) hanswer

end Memory

end TernaryMachine
