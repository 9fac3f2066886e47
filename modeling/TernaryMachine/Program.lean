import TernaryMachine.Numeral
import TernaryMachine.Text.Blank

/-!
# Program text

A program is a row of words.  Its text is one numeral per word, cut at blanks; the word of the
token with index `i` goes to address `i`.  Reading stops at the first bad token.

`parseTokens_append` says that two texts, one behind the other, are read one after the other,
with the indices of the second counted on.
-/

set_option autoImplicit false

namespace TernaryMachine

/-- Why a text is not a program. -/
inductive ProgramError where
  /-- A token holds a character that is no digit glyph. -/
  | invalidToken (index : Nat) (token : String)
  /-- A token consists of digit glyphs but is not the numeral of a word. -/
  | numeral (index : Nat) (token : String) (source : NumeralError)
  deriving DecidableEq, Repr

/-- The number of tokens before the bad one. -/
def ProgramError.index : ProgramError → Nat
  | invalidToken index _ => index
  | numeral index _ _ => index

/-- The wording of a program error. -/
def ProgramError.message : ProgramError → String
  | invalidToken index token => "invalid ternary at token " ++ index.repr ++ ": '" ++ token ++ "'"
  | numeral index token source =>
    "bad value at token " ++ index.repr ++ " ('" ++ token ++ "'): " ++ source.message

/-- Whether a text holds nothing but blanks and digit glyphs. -/
def Numeral.isDigitText (text : List Char) : Bool :=
  text.all fun c => Text.isBlank c || (Trit.ofChar? c).isSome

namespace Program

/-- The word of the token with the given index. -/
def parseToken (index : Nat) (token : List Char) : Except ProgramError Word :=
  let text := String.ofList token
  if Numeral.isDigitText token then
    match Numeral.parse text with
    | .ok w => .ok w
    | .error e => .error (.numeral index text e)
  else .error (.invalidToken index text)

/-- The words of a row of tokens, the first of which has the given index. -/
def parseTokens (index : Nat) : List (List Char) → Except ProgramError (List Word)
  | [] => .ok []
  | token :: rest =>
    match parseToken index token with
    | .error e => .error e
    | .ok w => (parseTokens (index + 1) rest).map (w :: ·)

/-- The words that a program text spells. -/
def parse (text : String) : Except ProgramError (List Word) :=
  parseTokens 0 (Text.words text.toList)

/-- The program text of a row of words. -/
def render (words : List Word) : String := " ".intercalate (words.map Numeral.render)

/-- Tokens are read from left to right: those behind start at the index where the others end, and
are not looked at after an error. -/
theorem parseTokens_append (index : Nat) (a b : List (List Char)) :
    parseTokens index (a ++ b) =
      match parseTokens index a with
      | .error e => .error e
      | .ok x => (parseTokens (index + a.length) b).map (x ++ ·) := by
  induction a generalizing index with
  | nil => cases h : parseTokens index b <;> simp [parseTokens, h, Except.map]
  | cons token rest ih =>
    simp only [List.cons_append, parseTokens]
    cases parseToken index token with
    | error e => rfl
    | ok w =>
      rw [ih, List.length_cons, Nat.add_comm rest.length 1, ← Nat.add_assoc]
      cases parseTokens (index + 1) rest with
      | error e => rfl
      | ok x => cases parseTokens (index + 1 + rest.length) b <;> rfl

end Program

end TernaryMachine
