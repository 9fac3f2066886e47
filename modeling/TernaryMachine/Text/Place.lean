/-!
# Places in a text

A place in a text is told by its line, counted from one, and its column, the number of bytes
between the start of the line and the place.
-/

set_option autoImplicit false

namespace TernaryMachine.Text

/-- A place in a text. -/
structure Place where
  /-- The number of the line, counted from one. -/
  line : Nat
  /-- The number of bytes before the place on its line. -/
  column : Nat
  deriving DecidableEq, Repr

namespace Place

/-- The place behind one more character. -/
def advance (place : Place) (c : Char) : Place :=
  if c = '\n' then ⟨place.line + 1, 0⟩ else ⟨place.line, place.column + c.utf8Size⟩

/-- The place behind a text. -/
def after (s : List Char) : Place := s.foldl advance ⟨1, 0⟩

/-- A place as messages show it. -/
def text (place : Place) : String :=
  "line " ++ place.line.repr ++ " column " ++ place.column.repr

end Place

end TernaryMachine.Text
