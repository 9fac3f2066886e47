import TernaryMachine.Json.Value

/-!
# Shapes of records, and libraries that read and write them

A record is written as a JSON object with one member for each of its parts.  `Shape` is what a
record declares for that: the names of its members, the kinds of their values, and the record
that a text without any member stands for.

Turning records into text and back is the work of a library.  `Library` is the interface to one,
and nothing is said here of how it works, so whatever is built on a library is built on its
interface alone.
-/

set_option autoImplicit false

namespace TernaryMachine.Json

/-- The kinds of values that the members of a record have. -/
inductive Kind : Type → Type 1 where
  /-- A number of 64 bits without a sign. -/
  | unsigned : Kind UInt64
  /-- A truth value. -/
  | bool : Kind Bool
  /-- A value that is written as a number, and made of one unless the number is refused; the
  refusal has a wording. -/
  | through {α : Type} (make : UInt64 → Except String α) (number : α → UInt64) : Kind α

/-- A member of a record. -/
structure Member (α : Type) : Type 1 where
  /-- The name in front of the colon. -/
  name : String
  /-- The type of the value. -/
  Value : Type
  /-- The kind of the value. -/
  kind : Kind Value
  /-- The value of a record. -/
  get : α → Value
  /-- A record with the value put in. -/
  put : Value → α → α

/-- What a record declares for its JSON form. -/
structure Shape (α : Type) : Type 1 where
  /-- The record that an object without members stands for. -/
  start : α
  /-- The members, in the order in which they are written. -/
  members : List (Member α)

/-- The member with a name. -/
def Shape.member? {α : Type} (shape : Shape α) (name : String) : Option (Member α) :=
  shape.members.find? fun m => m.name == name

/-- A library that writes records as JSON text and reads them back.  The text of a record goes
through the values of its members, in either direction. -/
structure Library where
  /-- Why something cannot be written or read. -/
  Error : Type
  /-- The JSON value that a value of a kind is written as. -/
  toJson : {α : Type} → Kind α → α → Json
  /-- The value of a kind that a JSON value is read as. -/
  ofJson : {α : Type} → Kind α → Json → Except Error α
  /-- The record that the members of a JSON object, in their order, are read as. -/
  ofMembers : {α : Type} → Shape α → List (String × Json) → Except Error α
  /-- The text of a record, with a line for each member. -/
  write : {α : Type} → Shape α → α → Except Error String
  /-- The record of a text. -/
  read : {α : Type} → Shape α → String → Except Error α

end TernaryMachine.Json
