import TernaryMachine.Debugger.Basic
import TernaryMachine.Screen

/-!
# What the debugger shows

The left column holds the disassembly, the registers, the watches and the status line; the right
column holds memory and a summary of the keys.  `Debugger.draw` first scrolls the memory view to
the cursor, so it gives back the debugger along with the screen.
-/

set_option autoImplicit false

namespace TernaryMachine.Debugger

/-- The colour of a digit. -/
def tritColor : Trit → Color
  | .minus => .red
  | .zero => .gray
  | .plus => .green

/-- The colour of an access count, by the thirds of the greatest one. -/
def heatColor (count hottest : Nat) : Color :=
  if count = 0 then .darkGray
  else
    match count * 3 / hottest with
    | 0 => .blue
    | 1 => .yellow
    | _ => .red

/-- A row that shows a text in one style. -/
def textRow (width : Nat) (style : Style) (text : String) : Row :=
  Row.fill width style [.raw text]

/-- A line without the carriage return at its end. -/
def withoutReturn (line : List Char) : List Char :=
  if line.getLast? = some '\r' then line.dropLast else line

/-- The lines of an entry; a carriage return in front of a line feed belongs to the line's end. -/
def entryLines (text : String) : List String :=
  let lines := Text.lines text.toList
  (lines.dropLast.map withoutReturn ++ lines.getLast?.toList).map String.ofList

/-- The rows of list entries, as many as are shown whole; an entry has a row for each line of
its text. -/
def entryRows (width : Nat) : Nat → List (String × Style) → List Row
  | _, [] => []
  | height, (text, style) :: rest =>
    let lines := (entryLines text).map (textRow width style)
    if lines.length ≤ height then lines ++ entryRows width (height - lines.length) rest else []

/-- The disassembly panel. -/
def disassemblyPanel (d : Debugger) (width height : Nat) : Panel :=
  let entry (line : ViewLine) : String × Style :=
    let marked := d.machine.breakpoints.contains line.address
    let text :=
      (if marked then "●" else " ") ++ " " ++ (if line.isCurrent then "▶ " else "  ") ++
        Text.address line.address ++ ": " ++ line.item.text
    let style : Style :=
      if line.isCurrent then ⟨some .yellow, true⟩
      else if marked then .of .red
      else {}
    (text, style)
  { title := " Disassembly "
    border := .of .cyan
    rows := entryRows (width - 2) (height - 2) ((d.disassembly (height - 2)).map entry) }

/-- The registers panel. -/
def registersPanel (d : Debugger) (width : Nat) : Panel :=
  let m := d.machine
  let stack := " ".intercalate (m.callStack.reverse.map Text.address)
  let digits := (Numeral.digits m.registers.acc).map fun t =>
    (⟨t.glyph.toString, .of (tritColor t)⟩ : Span)
  let rows : List (List Span) := [
    [.raw "ACC: "] ++ digits ++ [.raw (" = " ++ m.registers.acc.decimal)],
    [.raw "PC: ", ⟨Text.address m.registers.pc, .of .yellow⟩,
      .raw "   IR: ", ⟨m.registers.ir.decimal, .of .white⟩],
    [.raw "Stack: ", ⟨if stack.isEmpty then "-" else stack, .of .cyan⟩],
    [.raw "Steps: ", ⟨m.instructionCount.repr, .of .cyan⟩,
      .raw "   History: ", ⟨m.history.length.repr, .of .cyan⟩,
      .raw "   State: ",
      ⟨m.state.name, .of (if m.state = .halted then .red else .green)⟩]]
  { title := " Registers "
    border := .of .green
    rows := rows.map (Row.fill (width - 2) {}) }

/-- The watches panel: watches first, then conditions. -/
def watchesPanel (d : Debugger) (width height : Nat) : Panel :=
  let readings := d.machine.readings.map fun r =>
    (r.text, Style.of (if r.value.isSome then .white else .darkGray))
  let conditions := d.machine.breakpoints.conditions.map fun c =>
    ("when " ++ c.text, Style.of .red)
  { title := " Watches "
    border := .of .blue
    rows := entryRows (width - 2) (height - 2) (readings ++ conditions) }

/-- The status panel. -/
def statusPanel (d : Debugger) (width : Nat) : Panel where
  title := " Status "
  border := .of .white
  inside := .of .white
  rows := [textRow (width - 2) (.of .white) d.status]

/-- One entry of the memory view. -/
def memoryEntry (d : Debugger) (hottest a : Nat) : String × Style :=
  let memory := d.machine.memory
  let value : Word := memory.cells[a]?.getD 0
  let count : Nat := memory.counts[a]?.getD 0
  let head :=
    (if a = d.selected then ">" else " ") ++ Text.address a ++ ":" ++
      (if memory.isProtected a then "🔒" else "  ")
  let text :=
    if d.showHeatmap then head ++ " hits " ++ count.repr
    else head ++ " " ++ Text.padLeft ' ' 6 value.decimal
  let style : Style :=
    if a = d.machine.registers.pc then ⟨some .yellow, true⟩
    else if d.showHeatmap then .of (heatColor count hottest)
    else if value ≠ 0 then .of .white
    else .of .darkGray
  (text, style)

/-- The memory panel. -/
def memoryPanel (d : Debugger) (width height : Nat) : Panel :=
  let memory := d.machine.memory
  let hottest := memory.counts.foldl max 1
  let shown := List.range' d.scroll (min (height - 2) (memory.size - d.scroll))
  { title := if d.showHeatmap then " Memory (heat map) " else " Memory "
    border := .of .magenta
    rows := entryRows (width - 2) (height - 2) (shown.map (memoryEntry d hottest)) }

/-- The panel with a summary of the keys. -/
def helpPanel (width : Nat) : Panel where
  title := " Help "
  border := .of .darkGray
  inside := .of .darkGray
  rows := [
      "s: Step  u: Step back  r: Run  p: Pause",
      "b: Breakpoint  w: Protect  h: Heat map",
      "x: Reset  ↑↓: Select cell  q: Quit"].map (textRow (width - 2) (.of .darkGray))

/-- The width of the left column: 55 parts in a hundred, rounded. -/
def leftWidth (width : Nat) : Nat := (55 * width + 50) / 100

/-- Draws the debugger on a screen of the given size, as far as a screen can have that size. -/
def draw (d : Debugger) (width height : Nat) : Debugger × Screen :=
  let (width, height) := Screen.fit width height
  let memoryHeight := height - 5
  let d := d.scrollToSelection (memoryHeight - 2)
  let left := leftWidth width
  let right := width - left
  let listingHeight := height - 16
  let leftRows :=
    (disassemblyPanel d left listingHeight).draw left listingHeight ++
      (registersPanel d left).draw left 7 ++
      (watchesPanel d left 6).draw left 6 ++
      (statusPanel d left).draw left 3
  let rightRows :=
    (memoryPanel d right memoryHeight).draw right memoryHeight ++ (helpPanel right).draw right 5
  (d, List.zipWith (· ++ ·) leftRows rightRows)

end TernaryMachine.Debugger
