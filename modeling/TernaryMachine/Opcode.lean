import TernaryMachine.Word

/-!
# The instruction set

A word is its own opcode: no bits of it hold an operand.  Eleven of the eighteen opcodes take
the word that follows as their operand.  A word that is no opcode is plain data.

`decode?_eq_some_iff` says that decoding inverts encoding exactly, and
`ofMnemonic?_mnemonic` that every opcode is found under its own name.
-/

set_option autoImplicit false

namespace TernaryMachine

/-- The instructions of the machine. -/
inductive Opcode where
  /-- Stop. -/
  | halt
  /-- Add the operand to the accumulator. -/
  | add
  /-- Subtract the operand from the accumulator. -/
  | sub
  /-- Load the cell that the operand addresses into the accumulator. -/
  | load
  /-- Store the accumulator into the cell that the operand addresses. -/
  | store
  /-- Jump to the operand. -/
  | jmp
  /-- Jump to the operand if the accumulator is zero. -/
  | jz
  /-- Jump to the operand unless the accumulator is zero. -/
  | jnz
  /-- Jump to the operand if the accumulator is positive. -/
  | jnp
  /-- Triple the accumulator. -/
  | shl
  /-- Replace the accumulator by the floor of its third. -/
  | shr
  /-- Remember where to come back to and jump to the operand. -/
  | call
  /-- Jump to where the latest call comes back to. -/
  | ret
  /-- Negate the accumulator. -/
  | neg
  /-- Add one to the accumulator. -/
  | inc
  /-- Subtract one from the accumulator. -/
  | dec
  /-- Load through the pointer in the cell that the operand addresses. -/
  | loadi
  /-- Store through the pointer in the cell that the operand addresses. -/
  | storei
  deriving DecidableEq, Repr

namespace Opcode

/-- Every opcode, in the order of the instruction table. -/
def all : List Opcode :=
  [halt, add, sub, load, store, jmp, jz, jnz, jnp, shl, shr, call, ret, neg, inc, dec, loadi,
    storei]

/-- The word that stands for an opcode. -/
def encode : Opcode → Word
  | halt => 0
  | add => 1
  | sub => -1
  | load => 2
  | store => -2
  | jmp => 3
  | jz => 4
  | jnz => -4
  | jnp => 5
  | shl => 6
  | shr => -6
  | call => 7
  | ret => -7
  | neg => 8
  | inc => 9
  | dec => -9
  | loadi => 10
  | storei => -10

/-- The opcode that a word stands for, if any. -/
def decode? (w : Word) : Option Opcode :=
  match w.toInt with
  | 0 => some halt
  | 1 => some add
  | -1 => some sub
  | 2 => some load
  | -2 => some store
  | 3 => some jmp
  | 4 => some jz
  | -4 => some jnz
  | 5 => some jnp
  | 6 => some shl
  | -6 => some shr
  | 7 => some call
  | -7 => some ret
  | 8 => some neg
  | 9 => some inc
  | -9 => some dec
  | 10 => some loadi
  | -10 => some storei
  | _ => none

/-- Whether an opcode takes the following word as its operand. -/
def hasOperand : Opcode → Bool
  | add | sub | load | store | jmp | jz | jnz | jnp | call | loadi | storei => true
  | halt | shl | shr | ret | neg | inc | dec => false

/-- The number of words that an instruction occupies. -/
def width (op : Opcode) : Nat := if op.hasOperand then 2 else 1

/-- The name of an opcode in assembly text. -/
def mnemonic : Opcode → String
  | halt => "HALT"
  | add => "ADD"
  | sub => "SUB"
  | load => "LOAD"
  | store => "STORE"
  | jmp => "JMP"
  | jz => "JZ"
  | jnz => "JNZ"
  | jnp => "JNP"
  | shl => "SHL"
  | shr => "SHR"
  | call => "CALL"
  | ret => "RET"
  | neg => "NEG"
  | inc => "INC"
  | dec => "DEC"
  | loadi => "LOADI"
  | storei => "STOREI"

/-- Second names that assembly text may use. -/
def aliases : List (String × Opcode) := [("HLT", halt), ("LDA", load), ("STA", store)]

/-- The opcode of a name in any mixture of ASCII capitals and small letters. -/
def ofMnemonic? (name : String) : Option Opcode :=
  let upper := String.ofList (name.toList.map Char.toUpper)
  match aliases.find? fun entry => entry.1 == upper with
  | some entry => some entry.2
  | none => all.find? fun op => op.mnemonic == upper

/-- The word that stands for an opcode is decoded as it. -/
@[simp]
theorem decode?_encode (op : Opcode) : decode? op.encode = some op := by
  cases op <;> rfl

/-- A word that is decoded is the one that stands for the opcode. -/
theorem toInt_encode_of_decode? {w : Word} {op : Opcode} (h : decode? w = some op) :
    w.toInt = op.encode.toInt := by
  unfold decode? at h
  split at h <;> cases h <;> assumption

/-- Decoding is the inverse of encoding. -/
theorem decode?_eq_some_iff {w : Word} {op : Opcode} : decode? w = some op ↔ w = op.encode := by
  constructor
  · intro h
    exact Int64.toInt_inj.1 (toInt_encode_of_decode? h)
  · rintro rfl
    exact decode?_encode op

/-- An opcode is found under its own name. -/
theorem ofMnemonic?_mnemonic (op : Opcode) : ofMnemonic? op.mnemonic = some op := by
  cases op <;> decide +kernel

end Opcode

end TernaryMachine
