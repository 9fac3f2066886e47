import TernaryMachine.Text.Decimal

/-!
# Keys

A terminal sends a key as the character on it, with the control key held down as one of the
characters before the space, and keys without a character as control sequences: an escape
character, an opening bracket, parameters with semicolons between them, and a character that ends
the sequence and tells what it is.

A key can be sent when it is pressed, when it is held, and when it is let go; only the first is
something to act on.
-/

set_option autoImplicit false

namespace TernaryMachine

/-- The keys that a debugger is worked with. -/
inductive Key where
  | char (c : Char)
  | up
  | down
  | pageUp
  | pageDown
  /-- What has no character and moves nothing: another key, a mouse, a pasted text. -/
  | other
  deriving DecidableEq, Repr

namespace Key

/-- The key of a character on its own; one before the space is that of a letter or digit with the
control key held down. -/
def ofChar (c : Char) : Key :=
  let n := c.toNat
  if c = '\t' ∨ c = '\r' ∨ n = 0x1B ∨ n = 0x7F then other
  else if n = 0 then char ' '
  else if n < 0x1B then char (Char.ofNat (n + 0x60))
  else if n < 0x20 then char (Char.ofNat (n + 0x18))
  else char c

/-- The key of a letter that ends a sequence. -/
def ofFinal? (c : Char) : Option Key :=
  if c = 'A' then some up
  else if c = 'B' then some down
  else if ['C', 'D', 'F', 'H', 'P', 'Q', 'R', 'S'].contains c then some other
  else none

/-- The key of a letter that ends a sequence without parameters. -/
def ofBare? (c : Char) : Option Key :=
  if c = 'I' ∨ c = 'O' ∨ c = 'Z' then some other
  else if c = 'R' then none
  else ofFinal? c

/-- The key with a number. -/
def ofNumber? (number : Nat) : Option Key :=
  if number = 5 then some pageUp
  else if number = 6 then some pageDown
  else if (1 ≤ number ∧ number ≤ 8) ∨ (11 ≤ number ∧ number ≤ 15) ∨
      (17 ≤ number ∧ number ≤ 21) ∨ (23 ≤ number ∧ number ≤ 26) ∨
      number = 28 ∨ number = 29 ∨ (31 ≤ number ∧ number ≤ 34) then some other
  else none

/-- The key with a code: that of its character, or one set apart for a key of the number pad. -/
def ofCode? (code : Nat) : Option Key :=
  if code = 57419 then some up
  else if code = 57420 then some down
  else if code = 57421 then some pageUp
  else if code = 57422 then some pageDown
  else if code.isValidChar then some (char (Char.ofNat code))
  else none

/-- Whether a mouse has such a button or movement; the bit of weight 32 tells a movement. -/
def isMouse (button : Nat) : Bool :=
  let number := button % 4 + 4 * (button / 64)
  number < 6 || (number < 8 && button / 32 % 2 = 0)

/-- The fields of a text with a separator between them. -/
def fields (separator : Char) (text : List Char) : List (List Char) :=
  ((String.ofList text).splitOn (String.singleton separator)).map String.toList

/-- The number below a limit that a field holds. -/
def number? (limit : Nat) (field : List Char) : Option Nat :=
  ((Text.readUnsigned? field).map UInt64.toNat).filter (· < limit)

/-- The keys held down with another, as a number, and whether that one was pressed. -/
structure Modifiers where
  /-- One more than the sum of the weights of the keys held down. -/
  number : Nat
  /-- Whether the key was pressed, not held or let go. -/
  isPress : Bool

namespace Modifiers

/-- No key held down. -/
def none : Modifiers := ⟨1, true⟩

/-- The modifiers that a field holds. -/
def ofField? (field : List Char) : Option Modifiers :=
  let pieces := fields ':' field
  (number? 256 (pieces.headD [])).map fun number =>
    let kind := (pieces[1]?.bind (number? 256)).getD 1
    ⟨number, kind != 2 && kind != 3⟩

/-- Whether the shift key is held down. -/
def hasShift (m : Modifiers) : Bool := m.number != 0 && m.number % 2 = 0

/-- What becomes of a key with the modifiers. -/
def apply (m : Modifiers) (key : Key) : Key := if m.isPress then key else other

end Modifiers

/-- What a mouse sends: a button, a column and a row, where the numbers of buttons start at the
given one. -/
def ofMouse? (start : Nat) (parameters : List (List Char)) : Option Key :=
  match parameters with
  | button :: column :: row :: _ =>
    match number? 256 button, number? 65536 column, number? 65536 row with
    | some button, some _, some _ =>
      if start ≤ button && isMouse (button - start) then some other else none
    | _, _, _ => none
  | _ => none

/-- Whether a code is that of a shift key, the left one or the right one. -/
def isShiftCode (code : Nat) : Bool := code = 57441 || code = 57447

/-- The key of a field with its code; behind a colon stands the code of the character that the
shift key makes of it.  A shift key counts as held down with itself. -/
def ofCodeField? (m : Modifiers) (field : List Char) : Option Key :=
  let codes := (fields ':' field).map (number? 4294967296)
  codes.head?.join.bind fun code =>
    let second := if m.hasShift || isShiftCode code then codes[1]?.join else none
    let shifted := (second.filter Nat.isValidChar).map fun code => char (Char.ofNat code)
    (ofCode? code).map fun key => m.apply (shifted.getD key)

/-- The key of a sequence with parameters that ends in the given character. -/
def ofParameters? (text : List Char) (last : Char) : Option Key :=
  let parameters := fields ';' text
  let first := parameters.headD []
  let given := parameters[1]?.bind Modifiers.ofField?
  let modifiers := given.getD .none
  if last = '~' then ((number? 256 first).bind ofNumber?).map modifiers.apply
  else if last = 'u' then ofCodeField? modifiers first
  else if last = 'M' then ofMouse? 32 parameters
  else if last = 'R' then none
  else if given.isSome || (text.getLast?.map Char.isDigit).getD false then
    (ofFinal? last).map modifiers.apply
  else none

end Key

end TernaryMachine
