import TernaryMachine.Json.Scan
import TernaryMachine.Json.Shape

/-!
# Reading and writing records

`library` is the library that the program is run with.  A record is read from an object with any
of its members in any order; the others keep what the shape starts from, and names that are no
member are passed over.  It is also read from an array that lists the first values in order.

Reading follows the text and stops at the first fault, so a value out of range early in the text
comes before a fault of grammar behind it.  A number that a member refuses is refused only when
the object or array around it has been left, so the report names the place behind the closing
bracket if that follows at once.

`Shape.ofMembers` is the same on an object whose members have been told apart already.
-/

set_option autoImplicit false

namespace TernaryMachine.Json

/-- Why a text is not a record. -/
inductive ReadError where
  /-- The text is no JSON, ends too early, or holds a value of the wrong kind. -/
  | scan (cause : ScanError)
  /-- A member is given twice. -/
  | repeated (name : String)
  /-- A member refuses its number; `rest` is what had not been read by then. -/
  | refused (wording : String) (rest : List Char)
  deriving DecidableEq, Repr

/-- The error behind the object around it. -/
def ReadError.leaveObject : ReadError → ReadError
  | refused wording rest =>
    match skipSpace rest with
    | '\x7d' :: rest => refused wording rest
    | rest => refused wording rest
  | e => e

/-- The error behind the array around it. -/
def ReadError.leaveArray : ReadError → ReadError
  | refused wording rest =>
    match skipSpace rest with
    | ']' :: rest => refused wording rest
    | ',' :: rest => refused wording (skipSpace rest)
    | rest => refused wording rest
  | e => e

namespace Kind

variable {α : Type}

/-- The JSON value of a value. -/
def toJson : {α : Type} → Kind α → α → Json
  | _, unsigned, n => .nat n.toNat
  | _, bool, b => .bool b
  | _, through _ number, a => .nat (number a).toNat

/-- The number of 64 bits that a JSON value is. -/
def number? : Json → Option UInt64
  | .int (.ofNat n) => if n < UInt64.size then some (UInt64.ofNat n) else none
  | _ => none

/-- The value that a JSON value is read as. -/
def ofJson : {α : Type} → Kind α → Json → Except ReadError α
  | _, unsigned, value =>
    match number? value with
    | some n => .ok n
    | none => .error (.scan .mismatched)
  | _, bool, value =>
    match value with
    | .bool b => .ok b
    | _ => .error (.scan .mismatched)
  | _, through make _, value =>
    match number? value with
    | some n => (make n).mapError (.refused · [])
    | none => .error (.scan .mismatched)

/-- A value read from the front of a text. -/
def scan : {α : Type} → Kind α → List Char → Except ReadError (α × List Char)
  | _, unsigned, s => (scanUnsigned s).mapError .scan
  | _, bool, s => (scanBool s).mapError .scan
  | _, through make _, s =>
    match scanUnsigned s with
    | .error e => .error (.scan e)
    | .ok (n, rest) =>
      match make n with
      | .error wording => .error (.refused wording rest)
      | .ok a => .ok (a, rest)

end Kind

/-- A record with the value of a member that stands in front of a text. -/
def Member.scan {α : Type} (m : Member α) (a : α) (s : List Char) :
    Except ReadError (α × List Char) :=
  (m.kind.scan s).map fun (value, rest) => (m.put value a, rest)

/-- Passes over the colon behind a name. -/
def scanColon (s : List Char) : Except ScanError (List Char) :=
  match skipSpace s with
  | [] => .error .truncated
  | ':' :: rest => .ok rest
  | _ => .error .malformed

/-- Reads the elements of an array for the given members, up to the closing bracket; `first`
tells whether no element has been read. -/
def scanElements {α : Type} (a : α) (first : Bool) (s : List Char) :
    List (Member α) → Except ReadError (α × List Char)
  | [] =>
    match skipSpace s with
    | [] => .error (.scan .truncated)
    | ']' :: rest => .ok (a, rest)
    | _ => .error (.scan .malformed)
  | m :: more =>
    let element (s : List Char) : Except ReadError (α × List Char) :=
      match m.scan a s with
      | .error e => .error e
      | .ok (a, rest) => scanElements a false rest more
    match skipSpace s with
    | [] => .error (.scan .truncated)
    | ']' :: rest => .ok (a, rest)
    | next :: rest =>
      if first then element (next :: rest)
      else if next = ',' then
        match skipSpace rest with
        | [] => .error (.scan .truncated)
        | ']' :: _ => .error (.scan .malformed)
        | rest => element rest
      else .error (.scan .malformed)

namespace Shape

variable {α : Type} (shape : Shape α)

/-- A record as a JSON value. -/
def toJson (a : α) : Json :=
  .object (shape.members.map fun m => (m.name, m.kind.toJson (m.get a)))

/-- A record with one more member, and the names of members given by then. -/
def addMember (state : α × List String) (member : String × Json) :
    Except ReadError (α × List String) :=
  match shape.member? member.1 with
  | none => .ok state
  | some m =>
    if member.1 ∈ state.2 then .error (.repeated member.1)
    else (m.kind.ofJson member.2).map fun value => (m.put value state.1, member.1 :: state.2)

/-- The record of the members of an object. -/
def ofMembers (members : List (String × Json)) : Except ReadError α :=
  (members.foldlM shape.addMember (shape.start, [])).map Prod.fst

/-- Reads the member whose opening quote has just been read: the record with it and the names
given by then. -/
def scanMember (a : α) (given : List String) (s : List Char) :
    Except ReadError ((α × List String) × List Char) :=
  match scanText true s with
  | .error e => .error (.scan e)
  | .ok (letters, rest) =>
    let name := String.ofList letters
    match shape.member? name with
    | none =>
      match (scanColon rest).bind skipValue with
      | .error e => .error (.scan e)
      | .ok rest => .ok ((a, given), rest)
    | some m =>
      if name ∈ given then .error (.repeated name)
      else
        match scanColon rest with
        | .error e => .error (.scan e)
        | .ok rest => (m.scan a rest).map fun (a, rest) => ((a, name :: given), rest)

/-- Reads members up to the closing brace, at most `bound` of them. -/
def scanMembers (a : α) (given : List String) : Nat → List Char → Except ReadError (α × List Char)
  | 0, _ => .error (.scan .truncated)
  | bound + 1, s =>
    match shape.scanMember a given s with
    | .error e => .error e
    | .ok ((a, given), rest) =>
      match skipSpace rest with
      | [] => .error (.scan .truncated)
      | '\x7d' :: rest => .ok (a, rest)
      | ',' :: rest =>
        match skipSpace rest with
        | [] => .error (.scan .truncated)
        | '"' :: rest => scanMembers a given bound rest
        | _ => .error (.scan .malformed)
      | _ => .error (.scan .malformed)

/-- Reads an object whose opening brace has been read. -/
def scanObject (s : List Char) : Except ReadError (α × List Char) :=
  match skipSpace s with
  | [] => .error (.scan .truncated)
  | '\x7d' :: rest => .ok (shape.start, rest)
  | '"' :: rest => shape.scanMembers shape.start [] s.length rest
  | _ => .error (.scan .malformed)

/-- The record of a text. -/
def read (text : String) : Except ReadError α :=
  let s := skipSpace text.toList
  let result := match s with
    | '\x7b' :: rest => (shape.scanObject rest).mapError ReadError.leaveObject
    | '[' :: rest =>
      (scanElements shape.start true rest shape.members).mapError ReadError.leaveArray
    | _ => .error (.scan (mismatch s))
  match result with
  | .error e => .error e
  | .ok (a, rest) => if (skipSpace rest).isEmpty then .ok a else .error (.scan .malformed)

end Shape

/-- The library that the program is run with. -/
def library : Library where
  Error := ReadError
  toJson := Kind.toJson
  ofJson := Kind.ofJson
  ofMembers := Shape.ofMembers
  write shape a := .ok (shape.toJson a).pretty
  read := Shape.read

end TernaryMachine.Json
