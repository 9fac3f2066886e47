import Mathlib.Data.List.Induction
import TernaryMachine.Json.Shape
import TernaryMachine.Proofs.Json.Grammar

/-!
# What is known of a library

`Library.Documented` lists what a library for JSON records promises.  Numbers of 64 bits and truth
values are written and read as themselves, and no other value is read as one.  A record is written
as an object with its members in order.  An object is read member by member: without any it is the
record that the shape starts from, a member that is known and new puts its value in, one that is
known and has been given is refused, and one that is unknown is passed over.  How the object is
spelled does not matter.

Whatever stands before or behind it, a value that its member refuses is refused
(`Documented.ofMembers_refuses`).
-/

set_option autoImplicit false

namespace TernaryMachine.Json

/-- What the documentation of a library promises. -/
structure Library.Documented (lib : Library) : Prop where
  /-- A number is written as itself. -/
  toJson_unsigned : ∀ n : UInt64, lib.toJson .unsigned n = .nat n.toNat
  /-- A truth value is written as itself. -/
  toJson_bool : ∀ b : Bool, lib.toJson .bool b = .bool b
  /-- A value that travels as a number is written as that number. -/
  toJson_through : ∀ {α : Type} (make : UInt64 → Except String α) (number : α → UInt64) (a : α),
    lib.toJson (.through make number) a = lib.toJson .unsigned (number a)
  /-- Numbers of 64 bits are read exactly, and no other value is read as one. -/
  ofJson_unsigned : ∀ {value : Json} {n : UInt64},
    lib.ofJson .unsigned value = .ok n ↔ value = .nat n.toNat
  /-- Truth values are read as they are, and no other value is read as one. -/
  ofJson_bool : ∀ {value : Json} {b : Bool}, lib.ofJson .bool value = .ok b ↔ value = .bool b
  /-- A value that travels as a number is made of the number that is read. -/
  ofJson_through : ∀ {α : Type} {make : UInt64 → Except String α} {number : α → UInt64}
    {value : Json} {a : α}, lib.ofJson (.through make number) value = .ok a ↔
      ∃ n, lib.ofJson .unsigned value = .ok n ∧ make n = .ok a
  /-- An object without members is the record that the shape starts from. -/
  ofMembers_nil : ∀ {α : Type} {shape : Shape α}, lib.ofMembers shape [] = .ok shape.start
  /-- A member that has not been given yet puts its value in. -/
  ofMembers_known : ∀ {α : Type} {shape : Shape α} {members : List (String × Json)}
    {name : String} {value : Json} {m : Member α} {a : α}, shape.member? name = some m →
      name ∉ members.map Prod.fst →
      (lib.ofMembers shape (members ++ [(name, value)]) = .ok a ↔
        ∃ front part, lib.ofMembers shape members = .ok front ∧
          lib.ofJson m.kind value = .ok part ∧ m.put part front = a)
  /-- A member is not given twice. -/
  ofMembers_repeated : ∀ {α : Type} {shape : Shape α} {members : List (String × Json)}
    {name : String} {value : Json} {m : Member α} (a : α), shape.member? name = some m →
      name ∈ members.map Prod.fst → lib.ofMembers shape (members ++ [(name, value)]) ≠ .ok a
  /-- A name that is no member is passed over with its value. -/
  ofMembers_unknown : ∀ {α : Type} {shape : Shape α} {members : List (String × Json)}
    {name : String} {value : Json} {a : α}, shape.member? name = none →
      (lib.ofMembers shape (members ++ [(name, value)]) = .ok a ↔
        lib.ofMembers shape members = .ok a)
  /-- A record is written as an object with its members in order. -/
  write_spells : ∀ {α : Type} (shape : Shape α) (a : α), ∃ text, lib.write shape a = .ok text ∧
    SpellsElement text.toList
      (.object (shape.members.map fun m => (m.name, lib.toJson m.kind (m.get a))))
  /-- A text that spells an object is read as the record of its members. -/
  read_spelled : ∀ {α : Type} {shape : Shape α} {members : List (String × Json)}
    {text : String} {a : α}, SpellsElement text.toList (.object members) →
      (lib.read shape text = .ok a ↔ lib.ofMembers shape members = .ok a)

namespace Library.Documented

variable {lib : Library} {α : Type} {shape : Shape α} {members : List (String × Json)}
  {name : String} {value : Json} {m : Member α} {a : α}

/-- If members are read with one more at their end, they are read without it. -/
theorem exists_front (h : lib.Documented)
    (ha : lib.ofMembers shape (members ++ [(name, value)]) = .ok a) :
    ∃ front, lib.ofMembers shape members = .ok front := by
  cases hm : shape.member? name with
  | none => exact ⟨a, (h.ofMembers_unknown hm).1 ha⟩
  | some m =>
    by_cases hgiven : name ∈ members.map Prod.fst
    · exact absurd ha (h.ofMembers_repeated a hm hgiven)
    · obtain ⟨front, part, hfront, -, -⟩ := (h.ofMembers_known hm hgiven).1 ha
      exact ⟨front, hfront⟩

/-- If members are read, the last of them has a value that it accepts. -/
theorem exists_part (h : lib.Documented) (hm : shape.member? name = some m)
    (ha : lib.ofMembers shape (members ++ [(name, value)]) = .ok a) :
    ∃ part, lib.ofJson m.kind value = .ok part := by
  by_cases hgiven : name ∈ members.map Prod.fst
  · exact absurd ha (h.ofMembers_repeated a hm hgiven)
  · obtain ⟨front, part, -, hpart, -⟩ := (h.ofMembers_known hm hgiven).1 ha
    exact ⟨part, hpart⟩

/-- A value that its member refuses is refused, whatever stands before and behind it. -/
theorem ofMembers_refuses (h : lib.Documented) (hm : shape.member? name = some m)
    (hvalue : ∀ part, lib.ofJson m.kind value ≠ .ok part) (hmem : (name, value) ∈ members) :
    lib.ofMembers shape members ≠ .ok a := by
  intro ha
  induction members using List.reverseRecOn generalizing a with
  | nil => cases hmem
  | append_singleton front last ih =>
    rcases List.mem_append.1 hmem with hfront | hlast
    · obtain ⟨before, hbefore⟩ := h.exists_front ha
      exact ih hfront hbefore
    · obtain rfl := List.mem_singleton.1 hlast
      obtain ⟨part, hpart⟩ := h.exists_part hm ha
      exact hvalue part hpart

end Library.Documented

end TernaryMachine.Json
