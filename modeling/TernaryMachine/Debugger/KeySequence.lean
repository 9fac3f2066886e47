import TernaryMachine.Debugger.Key

/-!
# Sequences of keys

`Key.ofTyped` reads the keys from what a terminal sends, character by character.  `KeySequence`
is the start of a sequence whose end is still to come.
-/

set_option autoImplicit false

namespace TernaryMachine

/-- What has come of a sequence of characters that stands for one key. -/
inductive KeySequence where
  /-- Nothing. -/
  | empty
  /-- An escape character. -/
  | escape
  /-- An escape character and the letter O. -/
  | letter
  /-- An escape character and an opening bracket. -/
  | bracket
  /-- An escape character, two opening brackets. -/
  | brackets
  /-- An escape character, an opening bracket and parameters, which start with a digit. -/
  | parameters (text : List Char)
  /-- An escape character, an opening bracket, the letter M, and what a mouse sends as three
  bytes. -/
  | mouse (text : List Char)
  /-- An escape character, an opening bracket, a sign less than, and what a mouse sends as text. -/
  | mouseText (text : List Char)
  /-- An escape character, an opening bracket, a question mark, and an answer of the terminal,
  which may be empty yet. -/
  | answer (isEmpty : Bool)
  /-- The start of a pasted text, and the text. -/
  | pasted (text : List Char)
  deriving DecidableEq, Repr

namespace KeySequence

/-- The end of a pasted text. -/
def pasteEnd : List Char := "\x1b[201~".toList

/-- The key of the three bytes that a mouse sends; the first tells the button, counted from the
space on. -/
def ofMouseBytes? (text : List Char) : Option Key :=
  let button := (text.headD ' ').toNat
  if 0x20 ≤ button && button < 0x80 && Key.isMouse (button - 0x20) then some .other else none

/-- Takes one more character of what a terminal sends: the sequence that goes on, and the key that
is complete. -/
def take : KeySequence → Char → KeySequence × Option Key
  | empty, c => if c = '\x1b' then (escape, none) else (empty, some (.ofChar c))
  | escape, c =>
    if c = 'O' then (letter, none)
    else if c = '[' then (bracket, none)
    else (empty, some (.ofChar c))
  | letter, c => (empty, Key.ofFinal? c)
  | bracket, c =>
    if c = '[' then (brackets, none)
    else if c = 'M' then (mouse [], none)
    else if c = '<' then (mouseText [], none)
    else if c = '?' then (answer true, none)
    else if c.isDigit then (parameters [c], none)
    else (empty, Key.ofBare? c)
  | brackets, c => (empty, if 'A' ≤ c ∧ c ≤ 'E' then some .other else none)
  | parameters text, c =>
    if '@' ≤ c ∧ c ≤ '~' then
      if text = ['2', '0', '0'] ∧ c = '~' then (pasted [], none)
      else (empty, Key.ofParameters? text c)
    else (parameters (text ++ [c]), none)
  | mouse text, c =>
    let text := text ++ [c]
    if (String.ofList text).utf8ByteSize < 3 then (mouse text, none)
    else (empty, ofMouseBytes? text)
  | mouseText text, c =>
    if c = 'm' ∨ c = 'M' then (empty, Key.ofMouse? 0 (Key.fields ';' text))
    else (mouseText (text ++ [c]), none)
  | answer isEmpty, c =>
    if c = 'c' ∨ (c = 'u' ∧ !isEmpty) then (empty, none) else (answer false, none)
  | pasted text, c =>
    let text := text ++ [c]
    if pasteEnd.isSuffixOf text then (empty, some .other) else (pasted text, none)

/-- The keys of what a terminal sends behind the start of a sequence, and the start of the one
that it ends in. -/
def keys (start : KeySequence) : List Char → List Key × KeySequence
  | [] => ([], start)
  | c :: rest =>
    let (start, key) := start.take c
    let (more, left) := start.keys rest
    (key.toList ++ more, left)

end KeySequence

namespace Key

/-- The keys of what a terminal sends. -/
def ofTyped (typed : String) : List Key := (KeySequence.empty.keys typed.toList).1

end Key

end TernaryMachine
