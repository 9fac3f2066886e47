/-!
# Sets of addresses

A set of addresses is kept as its elements in ascending order, each once, so two sets with the
same elements are the same value and reports list the elements as they stand.  `mem_insert` and
`mem_erase` say what the two updates do; everything else follows from them.
-/

set_option autoImplicit false

namespace TernaryMachine

/-- A finite set of addresses, listed in ascending order. -/
structure AddressSet where
  /-- The elements, ascending. -/
  toList : List Nat
  /-- No element is listed twice or out of order. -/
  ascending : toList.Pairwise (· < ·)
  deriving DecidableEq, Repr

namespace AddressSet

/-- The set without elements. -/
def empty : AddressSet := ⟨[], List.Pairwise.nil⟩

instance : Inhabited AddressSet := ⟨empty⟩

/-- Whether an address is an element. -/
def contains (s : AddressSet) (a : Nat) : Bool := s.toList.contains a

instance : Membership Nat AddressSet := ⟨fun s a => a ∈ s.toList⟩

instance (a : Nat) (s : AddressSet) : Decidable (a ∈ s) :=
  inferInstanceAs (Decidable (a ∈ s.toList))

/-- An ascending list with `a` put in its place, unless it is there already. -/
def place (a : Nat) : List Nat → List Nat
  | [] => [a]
  | b :: rest =>
    if a < b then a :: b :: rest
    else if a = b then b :: rest
    else b :: place a rest

/-- Placing an address into a row adds it and nothing else. -/
theorem mem_place {a b : Nat} {l : List Nat} : b ∈ place a l ↔ b = a ∨ b ∈ l := by
  induction l with
  | nil => simp [place]
  | cons c l ih =>
    unfold place
    split
    · simp
    · split
      · next h => simp [h]
      · simp only [List.mem_cons, ih]
        constructor
        · rintro (h | h | h) <;> simp [h]
        · rintro (h | h | h) <;> simp [h]

/-- Placing an address into an ascending row leaves it ascending. -/
theorem pairwise_place {a : Nat} {l : List Nat} (h : l.Pairwise (· < ·)) :
    (place a l).Pairwise (· < ·) := by
  induction l with
  | nil => simp [place]
  | cons c l ih =>
    obtain ⟨hc, hl⟩ := List.pairwise_cons.1 h
    unfold place
    split
    · next hac =>
      refine List.pairwise_cons.2 ⟨fun b hb => ?_, h⟩
      rcases List.mem_cons.1 hb with rfl | hb
      · exact hac
      · exact Nat.lt_trans hac (hc b hb)
    · split
      · exact h
      · next hlt hne =>
        refine List.pairwise_cons.2 ⟨fun b hb => ?_, ih hl⟩
        rcases mem_place.1 hb with rfl | hb
        · omega
        · exact hc b hb

/-- The set with one more element. -/
def insert (s : AddressSet) (a : Nat) : AddressSet :=
  ⟨place a s.toList, pairwise_place s.ascending⟩

/-- The set without an element. -/
def erase (s : AddressSet) (a : Nat) : AddressSet :=
  ⟨s.toList.filter (· != a), s.ascending.filter _⟩

/-- The row of a set lists its members. -/
theorem mem_toList {s : AddressSet} {a : Nat} : a ∈ s.toList ↔ a ∈ s := Iff.rfl

/-- The test for an address decides membership. -/
@[simp]
theorem contains_eq_true_iff {s : AddressSet} {a : Nat} : s.contains a = true ↔ a ∈ s := by
  simp [contains, mem_toList]

/-- The empty set has no member. -/
@[simp]
theorem not_mem_empty (a : Nat) : a ∉ empty := by
  simp [← mem_toList, empty]

/-- Inserting an address adds it and nothing else. -/
@[simp]
theorem mem_insert {s : AddressSet} {a b : Nat} : b ∈ s.insert a ↔ b = a ∨ b ∈ s := mem_place

/-- Erasing an address takes it out and nothing else. -/
@[simp]
theorem mem_erase {s : AddressSet} {a b : Nat} : b ∈ s.erase a ↔ b ∈ s ∧ b ≠ a := by
  simp [← mem_toList, erase]

end AddressSet

end TernaryMachine
