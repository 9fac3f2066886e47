/-!
# Text in columns

Padding counts characters: `padLeft` and `padRight` bring a text to at least a given number of
characters, and a text that is long enough already is left as it is (`length_padLeft`,
`length_padRight`).
-/

set_option autoImplicit false

namespace TernaryMachine.Text

/-- A text brought to `width` characters by copies of `fill` in front of it. -/
def padLeft (fill : Char) (width : Nat) (s : String) : String :=
  String.ofList (List.replicate (width - s.length) fill) ++ s

/-- A text brought to `width` characters by blanks behind it. -/
def padRight (width : Nat) (s : String) : String :=
  s ++ String.ofList (List.replicate (width - s.length) ' ')

/-- An address as reports and listings show it: at least three digits. -/
def address (a : Nat) : String := padLeft '0' 3 a.repr

/-- Padding in front brings a text to the width, or leaves its length when that is greater. -/
theorem length_padLeft (fill : Char) (width : Nat) (s : String) :
    (padLeft fill width s).length = max width s.length := by
  simp only [padLeft, String.length_append, String.length_ofList, List.length_replicate]
  omega

/-- Padding behind brings a text to the width, or leaves its length when that is greater. -/
theorem length_padRight (width : Nat) (s : String) :
    (padRight width s).length = max width s.length := by
  simp only [padRight, String.length_append, String.length_ofList, List.length_replicate]
  omega

end TernaryMachine.Text
