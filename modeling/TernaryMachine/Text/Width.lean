import TernaryMachine.Text.Emoji
import TernaryMachine.Text.Mark

/-!
# Columns of a screen

`columns` counts the columns that a character takes on its own: two for a wide one, in the sense
of the Unicode property `East_Asian_Width`, none for a mark or an invisible character, and one for
any other, a control character too.

`width` counts the columns of a text.  It is the sum over the characters, but for emoji, which
selectors, skin tones and joiners make into one picture of two columns, and for subjoined Khmer
letters, which take none.  Because a character counts by what stands behind it, `width` goes
through the text from its end.
-/

set_option autoImplicit false

namespace TernaryMachine.Text

/-- The wide characters. -/
def wideCharacters : CharSet := ⟨[
    (0x1100, 0x115F), (0x17A4, 0x17A4), (0x231A, 0x231B), (0x2329, 0x232A), (0x23E9, 0x23EC),
    (0x23F0, 0x23F0), (0x23F3, 0x23F3), (0x25FD, 0x25FE), (0x2614, 0x2615), (0x2648, 0x2653),
    (0x267F, 0x267F), (0x2693, 0x2693), (0x26A1, 0x26A1), (0x26AA, 0x26AB), (0x26BD, 0x26BE),
    (0x26C4, 0x26C5), (0x26CE, 0x26CE), (0x26D4, 0x26D4), (0x26EA, 0x26EA), (0x26F2, 0x26F3),
    (0x26F5, 0x26F5), (0x26FA, 0x26FA), (0x26FD, 0x26FD), (0x2705, 0x2705), (0x270A, 0x270B),
    (0x2728, 0x2728), (0x274C, 0x274C), (0x274E, 0x274E), (0x2753, 0x2755), (0x2757, 0x2757),
    (0x2795, 0x2797), (0x27B0, 0x27B0), (0x27BF, 0x27BF), (0x2B1B, 0x2B1C), (0x2B50, 0x2B50),
    (0x2B55, 0x2B55), (0x2E80, 0x2E99), (0x2E9B, 0x2EF3), (0x2F00, 0x2FD5), (0x2FF0, 0x3029),
    (0x3030, 0x303E), (0x3041, 0x3096), (0x309B, 0x30FF), (0x3105, 0x312F), (0x3131, 0x3163),
    (0x3165, 0x318E), (0x3190, 0x31E3), (0x31EF, 0x321E), (0x3220, 0x3247), (0x3250, 0x4DBF),
    (0x4E00, 0xA48C), (0xA490, 0xA4C6), (0xA960, 0xA97C), (0xAC00, 0xD7A3), (0xF900, 0xFAFF),
    (0xFE10, 0xFE19), (0xFE30, 0xFE52), (0xFE54, 0xFE66), (0xFE68, 0xFE6B), (0xFF01, 0xFF60),
    (0xFFE0, 0xFFE6), (0x16FE0, 0x16FE3), (0x16FF0, 0x16FF1), (0x17000, 0x187F7),
    (0x18800, 0x18CD5), (0x18D00, 0x18D08), (0x1AFF0, 0x1AFF3), (0x1AFF5, 0x1AFFB),
    (0x1AFFD, 0x1AFFE), (0x1B000, 0x1B122), (0x1B132, 0x1B132), (0x1B150, 0x1B152),
    (0x1B155, 0x1B155), (0x1B164, 0x1B167), (0x1B170, 0x1B2FB), (0x1F004, 0x1F004),
    (0x1F0CF, 0x1F0CF), (0x1F18E, 0x1F18E), (0x1F191, 0x1F19A), (0x1F200, 0x1F202),
    (0x1F210, 0x1F23B), (0x1F240, 0x1F248), (0x1F250, 0x1F251), (0x1F260, 0x1F265),
    (0x1F300, 0x1F320), (0x1F32D, 0x1F335), (0x1F337, 0x1F37C), (0x1F37E, 0x1F393),
    (0x1F3A0, 0x1F3CA), (0x1F3CF, 0x1F3D3), (0x1F3E0, 0x1F3F0), (0x1F3F4, 0x1F3F4),
    (0x1F3F8, 0x1F43E), (0x1F440, 0x1F440), (0x1F442, 0x1F4FC), (0x1F4FF, 0x1F53D),
    (0x1F54B, 0x1F54E), (0x1F550, 0x1F567), (0x1F57A, 0x1F57A), (0x1F595, 0x1F596),
    (0x1F5A4, 0x1F5A4), (0x1F5FB, 0x1F64F), (0x1F680, 0x1F6C5), (0x1F6CC, 0x1F6CC),
    (0x1F6D0, 0x1F6D2), (0x1F6D5, 0x1F6D7), (0x1F6DC, 0x1F6DF), (0x1F6EB, 0x1F6EC),
    (0x1F6F4, 0x1F6FC), (0x1F7E0, 0x1F7EB), (0x1F7F0, 0x1F7F0), (0x1F90C, 0x1F93A),
    (0x1F93C, 0x1F945), (0x1F947, 0x1F9FF), (0x1FA70, 0x1FA7C), (0x1FA80, 0x1FA88),
    (0x1FA90, 0x1FABD), (0x1FABF, 0x1FAC5), (0x1FACE, 0x1FADB), (0x1FAE0, 0x1FAE8),
    (0x1FAF0, 0x1FAF8), (0x20000, 0x2FFFD), (0x30000, 0x3FFFD)]⟩

/-- The extending marks that take a column of their own. -/
def standingMarks : CharSet := ⟨[
    (0x897, 0x897), (0x1715, 0x1715), (0x1734, 0x1734), (0x1ACF, 0x1ADD), (0x1AE0, 0x1AEB),
    (0x1B44, 0x1B44), (0x1BAA, 0x1BAA), (0x1BF2, 0x1BF3), (0x2D7F, 0x2D7F), (0xA953, 0xA953),
    (0xA9C0, 0xA9C0), (0x10D69, 0x10D6D), (0x10EFA, 0x10EFC), (0x111C0, 0x111C0),
    (0x11235, 0x11235), (0x1134D, 0x1134D), (0x113B8, 0x113B8), (0x113BB, 0x113C0),
    (0x113C2, 0x113C2), (0x113C5, 0x113C5), (0x113C7, 0x113C9), (0x113CE, 0x113D0),
    (0x113D2, 0x113D2), (0x113E1, 0x113E2), (0x116B6, 0x116B6), (0x1193D, 0x1193D),
    (0x11B60, 0x11B60), (0x11B62, 0x11B64), (0x11B66, 0x11B66), (0x11F41, 0x11F41),
    (0x11F5A, 0x11F5A), (0x1611E, 0x16129), (0x1612D, 0x1612F), (0x16FF0, 0x16FF1),
    (0x1D166, 0x1D166), (0x1D16D, 0x1D16D), (0x1E5EE, 0x1E5EF), (0x1E6E3, 0x1E6E3),
    (0x1E6E6, 0x1E6E6), (0x1E6EE, 0x1E6EF), (0x1E6F5, 0x1E6F5), (0x1F3FB, 0x1F3FF)]⟩

/-- The characters that are no extending marks and take no column: formatting, fillers, signs over
what follows. -/
def unseenCharacters : CharSet := ⟨[
    (0xAD, 0xAD), (0x605, 0x605), (0x61C, 0x61C), (0x70F, 0x70F), (0x890, 0x891), (0x8E2, 0x8E2),
    (0xD4E, 0xD4E), (0x180E, 0x180E), (0x200B, 0x200B), (0x200D, 0x200F), (0x202A, 0x202E),
    (0x2060, 0x206F), (0x3164, 0x3164), (0xA8FA, 0xA8FA), (0xFEFF, 0xFEFF), (0xFFA0, 0xFFA0),
    (0xFFF0, 0xFFF8), (0x111C2, 0x111C3), (0x1171E, 0x1171E), (0x1193F, 0x1193F),
    (0x11941, 0x11941), (0x11A3A, 0x11A3A), (0x11A84, 0x11A89), (0x11D46, 0x11D46),
    (0x11F02, 0x11F02), (0x1BCA0, 0x1BCA3), (0x1D173, 0x1D17A), (0xE0000, 0xE001F),
    (0xE0080, 0xE00FF), (0xE01F0, 0xE0FFF)]⟩

/-- Whether a character is a vowel or trailing consonant of Hangul; the leading consonant in front
of it takes the columns of the syllable. -/
def isHangulTail (c : Char) : Bool :=
  let n := c.toNat
  (0x1160 ≤ n && n ≤ 0x11FF) || (0xD7B0 ≤ n && n ≤ 0xD7C6) || (0xD7CB ≤ n && n ≤ 0xD7FB)

/-- Whether a character takes no column. -/
def isUnseen (c : Char) : Bool :=
  unseenCharacters.contains c || isHangulTail c ||
    (extendingMarks.contains c && !standingMarks.contains c)

/-- The number of columns that a character takes on its own; one Khmer sign spells out three
letters. -/
def columns (c : Char) : Nat :=
  if c ≤ '\u00a0' then 1
  else if isUnseen c then 0
  else if c = '\u17d8' then 3
  else if wideCharacters.contains c then 2
  else 1

/-- Whether a character is an emoji that is a picture without a selector. -/
def isPicture (c : Char) : Bool :=
  pictographs.contains c && wideCharacters.contains c && !textEmoji.contains c

/-- Whether a selector makes a text of an emoji that is a picture without one; framed ideographs
are as wide in either form. -/
def isTextable (c : Char) : Bool :=
  convertibleEmoji.contains c && !(0x1F200 ≤ c.toNat && c.toNat ≤ 0x1F2FF)

/-- Whether a Khmer letter can be subjoined to the one in front of it. -/
def isSubjoinable (c : Char) : Bool :=
  let set : CharSet := ⟨[
    (0x1780, 0x1782), (0x1784, 0x1787), (0x1789, 0x178C), (0x178E, 0x1793), (0x1795, 0x1798),
    (0x179B, 0x179D), (0x17A0, 0x17A0), (0x17A2, 0x17A2), (0x17A7, 0x17A7), (0x17AB, 0x17AC),
    (0x17AF, 0x17AF)]⟩
  set.contains c

/-- Whether a character only chooses between forms of others: a joiner or an invisible mark. -/
def isFormChoice (c : Char) : Bool :=
  let set : CharSet := ⟨[
    (0x34F, 0x34F), (0x17B4, 0x17B5), (0x180B, 0x180D), (0x180F, 0x180F), (0x200D, 0x200D),
    (0xFE00, 0xFE0F), (0xE0100, 0xE01EF)]⟩
  set.contains c

/-- Whether a character is one of the invisible letters that spell a region. -/
def isTagLetter (c : Char) : Bool := 0xE0061 ≤ c.toNat && c.toNat ≤ 0xE007A

/-- Whether a character is one of the invisible digits that spell a region. -/
def isTagDigit (c : Char) : Bool := 0xE0030 ≤ c.toNat && c.toNat ≤ 0xE0039

/-- What stands behind a character, as far as it matters to the columns.  The columns of a picture
are those of its last part, so what a joiner joins to it takes none. -/
inductive Behind where
  /-- Nothing that matters. -/
  | nothing
  /-- A picture. -/
  | picture
  /-- A skin tone. -/
  | skinTone
  /-- One letter of a flag. -/
  | flagLetter
  /-- Several letters of flags. -/
  | flagLetters
  /-- A selector for text. -/
  | textSelector
  /-- A selector for pictures. -/
  | pictureSelector
  /-- A joiner and a picture. -/
  | joiner
  /-- A selector for pictures, a joiner and a picture. -/
  | joinedSelector
  /-- A keycap, a joiner and a picture. -/
  | joinedKeycap
  /-- One letter of a flag, a joiner and a picture. -/
  | joinedFlagLetter
  /-- Whole flags, a joiner and a picture. -/
  | joinedFlags
  /-- One letter of a flag, whole flags, a joiner and a picture. -/
  | joinedFlagLetters
  /-- So many tag digits, so many tag letters, the end of the tags, a joiner and a picture. -/
  | joinedTags (digits letters : Nat)
  /-- A Khmer letter that can be subjoined. -/
  | subjoinable
  /-- A selector for text and a Khmer letter that can be subjoined. -/
  | subjoinableText
  /-- A selector for pictures and a Khmer letter that can be subjoined. -/
  | subjoinablePicture
  deriving DecidableEq, Repr

namespace Behind

/-- What matters of a character to the one in front of it. -/
def ofChar (c : Char) : Behind :=
  if c = '\ufe0e' then textSelector
  else if c = '\ufe0f' then pictureSelector
  else if isSkinTone c then skinTone
  else if isFlagLetter c then flagLetter
  else if isPicture c then picture
  else if isSubjoinable c then subjoinable
  else nothing

/-- Whether a joiner joins what stands behind it to what comes in front; a single letter of a flag
is not joined, but several are. -/
def isJoinable : Behind → Bool
  | picture => true
  | skinTone => true
  | flagLetters => true
  | joinedFlags => true
  | joinedFlagLetters => true
  | _ => false

/-- What stands behind a character in front of tags, if that goes on with the tags or is the flag
that they are for.  A region is spelled by three to six letters, or by three digits and at most
four letters. -/
def beforeTags? (c : Char) (digits letters : Nat) : Option Behind :=
  if isTagLetter c then
    if digits = 0 ∧ letters < 6 then some (joinedTags 0 (letters + 1)) else none
  else if isTagDigit c then
    if digits < 3 ∧ letters ≤ 4 then some (joinedTags (digits + 1) letters) else none
  else if c = '🏴' then
    if digits = 3 ∨ (digits = 0 ∧ 3 ≤ letters) then some picture else none
  else none

end Behind

/-- The columns of a text and what stands at its start, with a character put in front. -/
def putBefore (c : Char) : Nat × Behind → Nat × Behind
  | (sum, behind) =>
    let alone := (sum + columns c, Behind.ofChar c)
    let subjoined : Nat × Behind :=
      if c = '\ufe0e' then (sum, .subjoinableText)
      else if c = '\ufe0f' then (sum, .subjoinablePicture)
      else if isFormChoice c then (sum, .subjoinable)
      else if c = '\u17d2' then (sum - 1, .nothing)
      else alone
    if c = '\u200d' ∧ behind.isJoinable then (sum, .joiner)
    else
      match behind with
      | .skinTone => if tonedEmoji.contains c then (sum, .picture) else alone
      | .flagLetter => if isFlagLetter c then (sum + 1, .flagLetters) else alone
      | .flagLetters => if isFlagLetter c then (sum + 1, .flagLetters) else alone
      | .textSelector => if isTextable c then (sum + 1, .nothing) else alone
      | .pictureSelector => if hasBothForms c then (sum + 2, .picture) else alone
      | .joiner =>
        if c = '\ufe0f' then (sum, .joinedSelector)
        else if c = '\u20e3' then (sum, .joinedKeycap)
        else if c.toNat = 0xE007F then (sum, .joinedTags 0 0)
        else if isFlagLetter c then (sum + 1, .joinedFlagLetter)
        else if isSkinTone c then (sum, .skinTone)
        else if isPicture c then (sum, .picture)
        else alone
      | .joinedSelector => if hasBothForms c then (sum, .picture) else alone
      | .joinedKeycap => if c = '\ufe0f' then (sum, .joinedSelector) else alone
      | .joinedFlagLetter => if isFlagLetter c then (sum - 1, .joinedFlags) else alone
      | .joinedFlags => if isFlagLetter c then (sum + 3, .joinedFlagLetters) else alone
      | .joinedFlagLetters => if isFlagLetter c then (sum - 1, .joinedFlags) else alone
      | .joinedTags digits letters =>
        ((Behind.beforeTags? c digits letters).map fun before => (sum, before)).getD alone
      | .subjoinable => subjoined
      | .subjoinableText => if isTextable c then (sum + 1, .nothing) else subjoined
      | .subjoinablePicture => if hasBothForms c then (sum + 2, .picture) else subjoined
      | _ => alone

/-- The number of columns that a text takes. -/
def width (s : List Char) : Nat := (s.foldr putBefore (0, .nothing)).1

end TernaryMachine.Text
