import TernaryMachine.Text.Emoji
import TernaryMachine.Text.Mark

/-!
# Clusters

A cluster is what a reader takes for one character: a character with its marks, a Hangul
syllable in letters, a flag, a picture put together with joiners, an Indic conjunct.  Clusters
are the extended grapheme clusters of Unicode.

A text is cut into clusters from the left.  `Ending` is all that has to be known about a cluster
to tell whether the next character still belongs to it.
-/

set_option autoImplicit false

namespace TernaryMachine.Text

/-- The characters that are clusters of their own: line ends, controls, invisible formatting. -/
def controls : CharSet := ⟨[
    (0x0, 0x1F), (0x7F, 0x9F), (0xAD, 0xAD), (0x61C, 0x61C), (0x180E, 0x180E), (0x200B, 0x200B),
    (0x200E, 0x200F), (0x2028, 0x202E), (0x2060, 0x206F), (0xFEFF, 0xFEFF), (0xFFF0, 0xFFFB),
    (0x13430, 0x1343F), (0x1BCA0, 0x1BCA3), (0x1D173, 0x1D17A), (0xE0000, 0xE001F),
    (0xE0080, 0xE00FF), (0xE01F0, 0xE0FFF)]⟩

/-- The signs that belong to the character behind them. -/
def prepended : CharSet := ⟨[
    (0x600, 0x605), (0x6DD, 0x6DD), (0x70F, 0x70F), (0x890, 0x891), (0x8E2, 0x8E2), (0xD4E, 0xD4E),
    (0x110BD, 0x110BD), (0x110CD, 0x110CD), (0x111C2, 0x111C3), (0x113D1, 0x113D1),
    (0x1193F, 0x1193F), (0x11941, 0x11941), (0x11A84, 0x11A89), (0x11D46, 0x11D46),
    (0x11F02, 0x11F02)]⟩

/-- What the cutting of clusters knows of a character. -/
inductive BreakClass where
  /-- A character that stands alone. -/
  | control
  /-- An extending mark. -/
  | mark
  /-- An extending mark that links consonants. -/
  | linker
  /-- The zero width non-joiner, a mark that ends what could be joined. -/
  | nonJoiner
  /-- The zero width joiner. -/
  | joiner
  /-- A spacing mark. -/
  | spacing
  /-- A sign that belongs to the character behind it. -/
  | prepended
  /-- A leading consonant of Hangul. -/
  | lead
  /-- A vowel of Hangul. -/
  | vowel
  /-- A trailing consonant of Hangul. -/
  | trail
  /-- A Hangul syllable without a trailing consonant. -/
  | openSyllable
  /-- A Hangul syllable with a trailing consonant. -/
  | closedSyllable
  /-- A letter of a flag. -/
  | flagLetter
  /-- A pictograph. -/
  | pictograph
  /-- A consonant that linkers link. -/
  | consonant
  /-- Any other character. -/
  | other
  deriving DecidableEq, Repr

namespace BreakClass

/-- The class of a mark, if a character is one. -/
def ofMark? (c : Char) : Option BreakClass :=
  if c = '\u200c' then some nonJoiner
  else if c = '\u200d' then some joiner
  else if linkers.contains c then some linker
  else if extendingMarks.contains c then some mark
  else if spacingMarks.contains c then some spacing
  else none

/-- The class of a Hangul letter or syllable, if a character is one; some vowel signs of other
scripts are put together in the same way. -/
def ofHangul? (c : Char) : Option BreakClass :=
  let n := c.toNat
  if (0x1100 ≤ n && n ≤ 0x115F) || (0xA960 ≤ n && n ≤ 0xA97C) then some lead
  else if (0x1160 ≤ n && n ≤ 0x11A7) || (0xD7B0 ≤ n && n ≤ 0xD7C6) then some vowel
  else if n = 0x16D63 || (0x16D67 ≤ n && n ≤ 0x16D6A) then some vowel
  else if (0x11A8 ≤ n && n ≤ 0x11FF) || (0xD7CB ≤ n && n ≤ 0xD7FB) then some trail
  else if 0xAC00 ≤ n && n ≤ 0xD7A3 then
    some (if (n - 0xAC00) % 28 = 0 then openSyllable else closedSyllable)
  else none

/-- The class of a character. -/
def ofChar (c : Char) : BreakClass :=
  if ' ' ≤ c ∧ c ≤ '~' then other
  else if controls.contains c then control
  else if let some found := ofMark? c then found
  else if let some found := ofHangul? c then found
  else if isFlagLetter c then flagLetter
  else if pictographs.contains c then pictograph
  else if linkedConsonants.contains c then consonant
  else if Text.prepended.contains c then prepended
  else other

end BreakClass

/-- How a cluster ends, as far as it matters to what can follow in it. -/
inductive Ending where
  /-- In a character that stands alone. -/
  | control
  /-- In a sign that belongs to the character behind it. -/
  | prepended
  /-- In a leading consonant of Hangul. -/
  | lead
  /-- In a vowel of Hangul. -/
  | vowel
  /-- In a trailing consonant of Hangul. -/
  | trail
  /-- In the first letter of a flag. -/
  | flag
  /-- In a pictograph, marked perhaps. -/
  | pictograph
  /-- In a pictograph and a joiner. -/
  | joined
  /-- In a consonant, marked perhaps. -/
  | consonant
  /-- In a consonant with a linker among its marks. -/
  | linked
  /-- In a way that only marks can follow. -/
  | plain
  deriving DecidableEq, Repr

namespace Ending

/-- The ending of a cluster of one character. -/
def ofClass : BreakClass → Ending
  | .control => control
  | .prepended => prepended
  | .lead => lead
  | .vowel => vowel
  | .openSyllable => vowel
  | .trail => trail
  | .closedSyllable => trail
  | .flagLetter => flag
  | .pictograph => pictograph
  | .consonant => consonant
  | _ => plain

/-- The ending of a cluster with one more character, if that belongs to it. -/
def follow? : Ending → BreakClass → Option Ending
  | control, _ => none
  | _, .control => none
  | pictograph, .mark => some pictograph
  | pictograph, .linker => some pictograph
  | pictograph, .nonJoiner => some pictograph
  | pictograph, .joiner => some joined
  | consonant, .mark => some consonant
  | consonant, .joiner => some consonant
  | consonant, .linker => some linked
  | linked, .mark => some linked
  | linked, .joiner => some linked
  | linked, .linker => some linked
  | _, .mark => some plain
  | _, .linker => some plain
  | _, .nonJoiner => some plain
  | _, .joiner => some plain
  | _, .spacing => some plain
  | prepended, next => some (ofClass next)
  | lead, .lead => some lead
  | lead, .vowel => some vowel
  | lead, .openSyllable => some vowel
  | lead, .closedSyllable => some trail
  | vowel, .vowel => some vowel
  | vowel, .trail => some trail
  | trail, .trail => some trail
  | flag, .flagLetter => some plain
  | joined, .pictograph => some pictograph
  | linked, .consonant => some consonant
  | _, _ => none

end Ending

/-- The clusters of a text behind the start of a cluster, given in reverse with its ending. -/
def clustersFrom (start : List Char) (ending : Ending) : List Char → List (List Char)
  | [] => [start.reverse]
  | c :: rest =>
    match ending.follow? (.ofChar c) with
    | some ending => clustersFrom (c :: start) ending rest
    | none => start.reverse :: clustersFrom [c] (.ofClass (.ofChar c)) rest

/-- The clusters of a text, in order. -/
def clusters : List Char → List (List Char)
  | [] => []
  | c :: rest => clustersFrom [c] (.ofClass (.ofChar c)) rest

end TernaryMachine.Text
