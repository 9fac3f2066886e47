import TernaryMachine.Json.Number

/-!
# Scanning JSON text

The functions here read one piece of JSON text from the front of a list of characters and give
back what is left.  They stop at the first fault in the order of the text, and they tell apart
a text that breaks the grammar from one that ends too early.

`skipValue` passes over a value that nobody asked for: its grammar is checked, but not the range
of its numbers or the pairing of its surrogate escapes.
-/

set_option autoImplicit false

namespace TernaryMachine.Json

/-- Why a text is not what a reader asked for. -/
inductive ScanError where
  /-- The text breaks the grammar. -/
  | malformed
  /-- The text ends too early. -/
  | truncated
  /-- A value of another kind, or out of the range asked for. -/
  | mismatched
  deriving DecidableEq, Repr

/-- What is read from the front of a text, and the rest of the text. -/
abbrev Scan (α : Type) := Except ScanError (α × List Char)

/-- Whether a character separates the pieces of JSON text. -/
def isSpace (c : Char) : Bool := c == ' ' || c == '\n' || c == '\t' || c == '\r'

/-- A text without the spaces at its front. -/
def skipSpace (s : List Char) : List Char := s.dropWhile isSpace

/-- Passes over the letters of a literal name. -/
def expect : List Char → List Char → Except ScanError (List Char)
  | [], s => .ok s
  | _ :: _, [] => .error .truncated
  | p :: pattern, c :: s => if p = c then expect pattern s else .error .malformed

/-- The value of a hexadecimal digit. -/
def hexValue? (c : Char) : Option Nat :=
  if '0' ≤ c ∧ c ≤ '9' then some (c.toNat - '0'.toNat)
  else if 'a' ≤ c ∧ c ≤ 'f' then some (c.toNat - 'a'.toNat + 10)
  else if 'A' ≤ c ∧ c ≤ 'F' then some (c.toNat - 'A'.toNat + 10)
  else none

/-- The number that four hexadecimal digits spell; a text of fewer than four bytes ends too
early, whatever stands in it. -/
def scanHex (s : List Char) : Scan Nat :=
  if ((s.take 4).map Char.utf8Size).foldl (· + ·) 0 < 4 then .error .truncated
  else
    match s with
    | a :: b :: c :: d :: rest =>
      match hexValue? a, hexValue? b, hexValue? c, hexValue? d with
      | some a, some b, some c, some d => .ok (((a * 16 + b) * 16 + c) * 16 + d, rest)
      | _, _, _, _ => .error .malformed
    | _ => .error .malformed

/-- The character behind a `\u`: one code unit, or a pair of surrogates with `\u` between. -/
def scanCodePoint (s : List Char) : Scan Char :=
  match scanHex s with
  | .error e => .error e
  | .ok (high, rest) =>
    if 0xDC00 ≤ high ∧ high ≤ 0xDFFF then .error .malformed
    else if high < 0xD800 ∨ 0xDBFF < high then .ok (Char.ofNat high, rest)
    else
      match rest with
      | [] => .error .truncated
      | '\\' :: [] => .error .truncated
      | '\\' :: 'u' :: rest =>
        match scanHex rest with
        | .error e => .error e
        | .ok (low, rest) =>
          if low < 0xDC00 ∨ 0xDFFF < low then .error .malformed
          else .ok (Char.ofNat (0x10000 + (high - 0xD800) * 0x400 + (low - 0xDC00)), rest)
      | _ => .error .malformed

/-- The character that stands for itself behind a backslash in this form. -/
def escaped? (c : Char) : Option Char :=
  if c = '"' ∨ c = '\\' ∨ c = '/' then some c
  else if c = 'b' then some (Char.ofNat 8)
  else if c = 'f' then some (Char.ofNat 12)
  else if c = 'n' then some '\n'
  else if c = 'r' then some '\r'
  else if c = 't' then some '\t'
  else none

/-- The piece of a string that one character or escape stands for; `none` is the closing
quote.  With `strict`, the surrogates of an escape must pair up. -/
def scanPiece (strict : Bool) : List Char → Scan (Option Char)
  | [] => .error .truncated
  | '"' :: rest => .ok (none, rest)
  | '\\' :: [] => .error .truncated
  | '\\' :: 'u' :: rest =>
    if strict then (scanCodePoint rest).map fun (c, rest) => (some c, rest)
    else (scanHex rest).map fun (_, rest) => (some 'u', rest)
  | '\\' :: c :: rest =>
    match escaped? c with
    | some d => .ok (some d, rest)
    | none => .error .malformed
  | c :: rest => if c.toNat < 0x20 then .error .malformed else .ok (some c, rest)

/-- The characters of a string up to its closing quote, reading at most `bound` pieces. -/
def scanPieces (strict : Bool) : Nat → List Char → Scan (List Char)
  | 0, _ => .error .truncated
  | bound + 1, s =>
    match scanPiece strict s with
    | .error e => .error e
    | .ok (none, rest) => .ok ([], rest)
    | .ok (some c, rest) =>
      (scanPieces strict bound rest).map fun (more, rest) => (c :: more, rest)

/-- The characters of a string whose opening quote has been read; each piece takes a character
at least, so the length of the text bounds their number. -/
def scanText (strict : Bool) (s : List Char) : Scan (List Char) :=
  scanPieces strict (s.length + 1) s

/-- A non-empty run of digits; `atEnd` is the error for a text that ends instead. -/
def scanDigits (atEnd : ScanError) (s : List Char) : Scan (List Char) :=
  match s with
  | [] => .error atEnd
  | c :: _ =>
    if c.isDigit then .ok (s.takeWhile Char.isDigit, s.dropWhile Char.isDigit)
    else .error .malformed

/-- The digits before the point: a zero alone, or digits that do not start with zero. -/
def scanWhole (atEnd : ScanError) (s : List Char) : Scan (List Char) :=
  match scanDigits atEnd s with
  | .error e => .error e
  | .ok (digits, rest) =>
    if digits.head? = some '0' ∧ digits.length ≠ 1 then .error .malformed
    else .ok (digits, rest)

/-- The point and the digits behind it, if there is a point. -/
def scanFraction (atEnd : ScanError) : List Char → Scan (Option (List Char))
  | '.' :: rest => (scanDigits atEnd rest).map fun (digits, rest) => (some digits, rest)
  | s => .ok (none, s)

/-- The exponent, if there is one. -/
def scanExponent (atEnd : ScanError) (s : List Char) : Scan (Option (Bool × List Char)) :=
  let digitsOf (negative : Bool) (rest : List Char) : Scan (Option (Bool × List Char)) :=
    (scanDigits atEnd rest).map fun (digits, rest) => (some (negative, digits), rest)
  match s with
  | 'e' :: '-' :: rest | 'E' :: '-' :: rest => digitsOf true rest
  | 'e' :: '+' :: rest | 'E' :: '+' :: rest => digitsOf false rest
  | 'e' :: rest | 'E' :: rest => digitsOf false rest
  | _ => .ok (none, s)

/-- A number in its parts. -/
def scanNumber (atEnd : ScanError) (s : List Char) : Scan NumberText :=
  let negative := s.head? == some '-'
  match scanWhole atEnd (if negative then s.drop 1 else s) with
  | .error e => .error e
  | .ok (whole, rest) =>
    match scanFraction atEnd rest with
    | .error e => .error e
    | .ok (fraction, rest) =>
      (scanExponent atEnd rest).map fun (exponent, rest) =>
        (⟨negative, whole, fraction, exponent⟩, rest)

/-- Looks at a value of another kind than asked for: a fault inside a literal name, a number or
a string comes first, then the mismatch. -/
def mismatch (s : List Char) : ScanError :=
  let after {α : Type} : Except ScanError α → ScanError
    | .error e => e
    | .ok _ => .mismatched
  match s with
  | [] => .truncated
  | 'n' :: rest => after (expect ['u', 'l', 'l'] rest)
  | 't' :: rest => after (expect ['r', 'u', 'e'] rest)
  | 'f' :: rest => after (expect ['a', 'l', 's', 'e'] rest)
  | '"' :: rest => after (scanText true rest)
  | '[' :: _ | '\x7b' :: _ => .mismatched
  | c :: _ =>
    if c = '-' ∨ c.isDigit then
      match scanNumber .truncated s with
      | .error e => e
      | .ok (n, _) => if n.isHuge then .malformed else .mismatched
    else .malformed

/-- An unsigned 64-bit number. -/
def scanUnsigned (s : List Char) : Scan UInt64 :=
  let s := skipSpace s
  match s with
  | [] => .error .truncated
  | c :: _ =>
    if c.isDigit then
      match scanNumber .truncated s with
      | .error e => .error e
      | .ok (n, rest) =>
        match n.unsigned? with
        | some value => .ok (value, rest)
        | none => .error (mismatch s)
    else .error (mismatch s)

/-- A truth value. -/
def scanBool (s : List Char) : Scan Bool :=
  let s := skipSpace s
  match s with
  | 't' :: rest => (expect ['r', 'u', 'e'] rest).map fun rest => (true, rest)
  | 'f' :: rest => (expect ['a', 'l', 's', 'e'] rest).map fun rest => (false, rest)
  | _ => .error (mismatch s)

/-- Passes over a value that holds no other values, if one stands here. -/
def skipScalar (s : List Char) : Except ScanError (List Char) :=
  match s with
  | [] => .error .truncated
  | 'n' :: rest => expect ['u', 'l', 'l'] rest
  | 't' :: rest => expect ['r', 'u', 'e'] rest
  | 'f' :: rest => expect ['a', 'l', 's', 'e'] rest
  | '"' :: rest => (scanText false rest).map fun (_, rest) => rest
  | c :: _ =>
    if c = '-' ∨ c.isDigit then (scanNumber .malformed s).map fun (_, rest) => rest
    else .error .malformed

/-- Passes over the name of a member and its colon; the opening quote comes first. -/
def skipKey (s : List Char) : Except ScanError (List Char) :=
  match skipSpace s with
  | [] => .error .truncated
  | '"' :: rest =>
    match scanText false rest with
    | .error e => .error e
    | .ok (_, rest) =>
      match skipSpace rest with
      | [] => .error .truncated
      | ':' :: rest => .ok rest
      | _ => .error .malformed
  | _ => .error .malformed

mutual

/-- Passes over a value inside brackets that close with the given characters, innermost first,
and over what follows up to the last of them, in at most `bound` moves. -/
def skipWithin (closing : List Char) : Nat → List Char → Except ScanError (List Char)
  | 0, _ => .error .truncated
  | bound + 1, s =>
    match skipSpace s with
    | '[' :: rest =>
      match skipSpace rest with
      | ']' :: rest => skipBehind closing bound rest
      | rest => skipOpened ']' closing bound rest
    | '\x7b' :: rest =>
      match skipSpace rest with
      | '\x7d' :: rest => skipBehind closing bound rest
      | rest => skipOpened '\x7d' closing bound rest
    | s =>
      match skipScalar s with
      | .error e => .error e
      | .ok rest => skipBehind closing bound rest

/-- Passes over the first part behind an opening bracket that is not closed at once. -/
def skipOpened (close : Char) (closing : List Char) :
    Nat → List Char → Except ScanError (List Char)
  | 0, _ => .error .truncated
  | bound + 1, s =>
    if close = '\x7d' then
      match skipKey s with
      | .error e => .error e
      | .ok rest => skipWithin (close :: closing) bound rest
    else skipWithin (close :: closing) bound s

/-- Goes on behind a value. -/
def skipBehind (closing : List Char) : Nat → List Char → Except ScanError (List Char)
  | 0, _ => .error .truncated
  | bound + 1, s =>
    match closing with
    | [] => .ok s
    | close :: outer =>
      match skipSpace s with
      | [] => .error .truncated
      | ',' :: rest => skipOpened close outer bound rest
      | c :: rest => if c = close then skipBehind outer bound rest else .error .malformed

end

/-- Passes over any value; no move is without a character of its own but the two around it. -/
def skipValue (s : List Char) : Except ScanError (List Char) :=
  skipWithin [] (3 * s.length + 3) s

end TernaryMachine.Json
