import TernaryMachine.Text.Cluster
import TernaryMachine.Text.Width

/-!
# Screens

A screen is a list of rows and a row a list of cells, one per column.  A cluster that takes more
than one column stands in the first of its cells; the others are cleared.  One that takes none
shares the cell of another.  Rows are made from styled text with `Row.fill`, panels from rows with
`Panel.draw`, and panels are put together by appending lists.
-/

set_option autoImplicit false

namespace TernaryMachine

/-- The colours of a screen. -/
inductive Color where
  | red
  | green
  | yellow
  | blue
  | magenta
  | cyan
  | gray
  | darkGray
  | white
  deriving DecidableEq, Repr

/-- The name of a colour. -/
def Color.name : Color → String
  | red => "Red"
  | green => "Green"
  | yellow => "Yellow"
  | blue => "Blue"
  | magenta => "Magenta"
  | cyan => "Cyan"
  | gray => "Gray"
  | darkGray => "DarkGray"
  | white => "White"

/-- How a cell looks. -/
structure Style where
  color : Option Color := none
  bold : Bool := false
  deriving DecidableEq, Repr, Inhabited

namespace Style

/-- The style of a colour. -/
def of (color : Color) : Style := { color := some color }

/-- A style on top of another, which shows where the upper one leaves it open. -/
def overlay (upper lower : Style) : Style :=
  ⟨upper.color <|> lower.color, upper.bold || lower.bold⟩

end Style

/-- One cell of a screen. -/
structure Cell where
  glyph : String
  style : Style
  deriving DecidableEq, Repr, Inhabited

namespace Cell

/-- A cell with a space in it. -/
def blank (style : Style) : Cell := ⟨" ", style⟩

/-- A cell that a wide cluster in front of it has cleared. -/
def cleared : Cell := blank {}

end Cell

/-- One row of a screen. -/
abbrev Row := List Cell

/-- The rows of a screen, top row first. -/
abbrev Screen := List Row

namespace Screen

/-- The greatest number of cells that a screen can have. -/
def maxCells : Nat := 65535

/-- The length of a side whose square is to the greatest number of cells as the side is to the
other one, rounded down; found bit by bit. -/
def sideOf (side other : Nat) : Nat :=
  (List.range 16).foldr (fun bit found =>
    let more := found + 1 <<< bit
    if more * more * other ≤ maxCells * side then more else found) 0

/-- The width and height that a screen gets if these are asked for: one with too many cells
shrinks and keeps its proportions. -/
def fit (width height : Nat) : Nat × Nat :=
  if width * height ≤ maxCells then (width, height)
  else (sideOf width height, sideOf height width)

end Screen

/-- A stretch of text in one style. -/
structure Span where
  text : String
  style : Style
  deriving DecidableEq, Repr

/-- A text in the terminal's own style. -/
def Span.raw (text : String) : Span := ⟨text, {}⟩

/-- A stretch of neighbouring cells in one style. -/
structure StyleRun where
  start : Nat
  length : Nat
  style : Style
  deriving DecidableEq, Repr

namespace Row

/-- A row with so many cells cleared from a column on. -/
def clear (row : Row) (column : Nat) : Nat → Row
  | 0 => row
  | count + 1 => clear (row.set column .cleared) (column + 1) count

/-- A row with a cluster that takes so many columns put at a column.  One that takes none goes
into the cell before.  Only the first cell can hold something already, the clusters without
columns that a text starts with. -/
def put (row : Row) (style : Style) (column columns : Nat) (glyph : String) : Row :=
  let place := if columns = 0 then column - 1 else column
  let shared : Bool := columns = 0 || column = 0
  let change (cell : Cell) : Cell :=
    ⟨if shared then cell.glyph ++ glyph else glyph, style.overlay cell.style⟩
  clear (row.modify place change) (column + 1) (columns - 1)

/-- A row with clusters put one behind the other, the first at a column, as far as they fit. -/
def putAll (style : Style) (row : Row) (column : Nat) : List (List Char) → Row
  | [] => row
  | cluster :: rest =>
    let columns := Text.width cluster
    if column + columns ≤ row.length then
      putAll style (row.put style column columns (String.ofList cluster)) (column + columns) rest
    else row

/-- A row with a span written from its first cell on, as far as it fits; a span that takes no
columns is not shown at all. -/
def write (row : Row) (span : Span) : Row :=
  let chars := span.text.toList
  match Text.clusters chars with
  | [] => row
  | first :: rest =>
    if 0 < Text.width chars ∧ Text.width first ≤ row.length then
      putAll span.style (row.modify 0 fun cell => { cell with glyph := "" }) 0 (first :: rest)
    else row

/-- A row with spans written one behind the other. -/
def writeAll (row : Row) : List Span → Row
  | [] => row
  | span :: rest =>
    let columns := Text.width span.text.toList
    let row := row.write span
    row.take columns ++ writeAll (row.drop columns) rest

/-- A row of the given width and style that shows the spans, as far as they fit. -/
def fill (width : Nat) (base : Style) (spans : List Span) : Row :=
  writeAll (List.replicate width (.blank base)) spans

/-- What is seen of a row behind so many cells that are covered: a glyph covers as many cells
behind its own as it is wider than one column. -/
def visible (covered : Nat) : Row → List Char
  | [] => []
  | cell :: rest =>
    let chars := cell.glyph.toList
    (if covered = 0 then chars else []) ++ visible (max covered (Text.width chars) - 1) rest

/-- The text of a row without the spaces at its end. -/
def text (row : Row) : String :=
  String.ofList ((visible 0 row).reverse.dropWhile (· == ' ')).reverse

/-- The stretches of equal style in a row whose first cell is in the given column. -/
def runsFrom (column : Nat) : Row → List StyleRun
  | [] => []
  | cell :: rest =>
    match runsFrom (column + 1) rest with
    | [] => [⟨column, 1, cell.style⟩]
    | run :: more =>
      if cell.style = run.style then ⟨column, run.length + 1, run.style⟩ :: more
      else ⟨column, 1, cell.style⟩ :: run :: more

/-- The stretches of equal style, those in the terminal's own style left out. -/
def styleRuns (row : Row) : List StyleRun :=
  (runsFrom 0 row).filter fun run => run.style != {}

end Row

/-- A framed part of a screen. -/
structure Panel where
  title : String
  border : Style
  inside : Style := {}
  /-- What is shown, made for the width inside the border. -/
  rows : List Row

namespace Panel

/-- The rows of a panel with its border, as high and wide as given; of a border that is too wide,
the left side is kept. -/
def draw (panel : Panel) (width height : Nat) : List Row :=
  let within := width - 2
  let edge (glyph : String) : Cell := ⟨glyph, panel.border⟩
  let line : Row := List.replicate within (edge "─")
  let top := edge "┌" :: line.write (.raw panel.title) ++ [edge "┐"]
  let bottom := edge "└" :: line ++ [edge "┘"]
  let empty : Row := List.replicate within (.blank panel.inside)
  let body := (panel.rows ++ List.replicate (height - 2) empty).take (height - 2)
  let rows := top :: body.map (fun row => edge "│" :: row ++ [edge "│"]) ++ [bottom]
  rows.map (List.take width)

end Panel

end TernaryMachine
