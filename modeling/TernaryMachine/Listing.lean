import TernaryMachine.Numeral
import TernaryMachine.Opcode
import TernaryMachine.Text.Column

/-!
# Listings

A listing shows words the way the machine walks over them: an instruction with its operand
takes two words, everything else one.  What stands at an address depends on the word there and
the word behind it only; `Item.read` is that reading, and `Item` its result.
-/

set_option autoImplicit false

namespace TernaryMachine

/-- What a listing shows at one address. -/
inductive Item where
  /-- An instruction without operand. -/
  | plain (op : Opcode)
  /-- An instruction and its operand. -/
  | withOperand (op : Opcode) (operand : Word)
  /-- An instruction whose operand is missing. -/
  | truncated (op : Opcode)
  /-- A word that is no opcode. -/
  | data (w : Word)
  /-- No word at all. -/
  | nothing
  deriving DecidableEq, Repr

namespace Item

/-- What stands at an address with the given word and the given word behind it. -/
def read (first second : Option Word) : Item :=
  match first with
  | none => nothing
  | some w =>
    match Opcode.decode? w with
    | none => data w
    | some op =>
      if op.hasOperand then
        match second with
        | some operand => withOperand op operand
        | none => truncated op
      else plain op

/-- What stands at an address of memory. -/
def atAddress (cells : Array Word) (a : Nat) : Item := read cells[a]? cells[a + 1]?

/-- The number of words that an item occupies. -/
def width : Item → Nat
  | withOperand _ _ => 2
  | _ => 1

/-- The text of an item, in the form that assembly text has. -/
def text : Item → String
  | plain op => op.mnemonic
  | withOperand op operand => op.mnemonic ++ " " ++ operand.decimal
  | truncated op => op.mnemonic ++ " ???"
  | data w => "DAT " ++ w.decimal
  | nothing => "???"

/-- The words that an item shows. -/
def words : Item → List Word
  | plain op => [op.encode]
  | withOperand op operand => [op.encode, operand]
  | truncated op => [op.encode]
  | data w => [w]
  | nothing => []

/-- An item takes at least one word. -/
theorem width_pos (item : Item) : 0 < item.width := by
  cases item <;> simp [width]

/-- An item that is read from the start of a row stands for the words that it takes from it. -/
theorem words_read_cons (w : Word) (rest : List Word) :
    (read (some w) rest[0]?).words = (w :: rest).take (read (some w) rest[0]?).width := by
  unfold read
  cases hop : Opcode.decode? w with
  | none => simp [hop, words, width]
  | some op =>
    obtain rfl := Opcode.decode?_eq_some_iff.1 hop
    cases rest with
    | nil => cases h : op.hasOperand <;> simp [h, words, width]
    | cons x rest => cases h : op.hasOperand <;> simp [h, words, width]

/-- An item that is read from the start of a row takes no more words than the row has. -/
theorem width_read_le (w : Word) (rest : List Word) :
    (read (some w) rest[0]?).width ≤ (w :: rest).length := by
  unfold read
  cases hop : Opcode.decode? w with
  | none => simp [hop, width]
  | some op =>
    cases rest with
    | nil => cases h : op.hasOperand <;> simp [hop, h, width]
    | cons x rest => cases h : op.hasOperand <;> simp [hop, h, width]

end Item

/-- One line of a listing: an address and what stands there. -/
structure ListingEntry where
  address : Nat
  item : Item
  deriving DecidableEq, Repr

namespace Listing

/-- The entries for a row of words, the first of which has the given address. -/
def entriesFrom (address : Nat) : List Word → List ListingEntry
  | [] => []
  | w :: rest =>
    let item := Item.read (some w) rest[0]?
    ⟨address, item⟩ :: entriesFrom (address + item.width) (rest.drop (item.width - 1))
termination_by words => words.length
decreasing_by simp only [List.length_drop, List.length_cons]; omega

/-- The entries for a row of words. -/
def entries (words : List Word) : List ListingEntry := entriesFrom 0 words

/-- One line of the listing text: address, item and the numerals of the words. -/
def line (entry : ListingEntry) : String :=
  Text.address entry.address ++ ": " ++ Text.padRight 12 entry.item.text ++ " ; " ++
    " ".intercalate (entry.item.words.map Numeral.render) ++ "\n"

/-- The two comment lines and the empty line that open a listing text. -/
def header : String := "; tritvm disassembly\n; ------------------\n\n"

/-- The listing text for a row of words. -/
def render (words : List Word) : String := header ++ String.join ((entries words).map line)

end Listing

end TernaryMachine
