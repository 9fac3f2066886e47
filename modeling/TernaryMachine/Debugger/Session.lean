import TernaryMachine.Debugger.Key
import TernaryMachine.Debugger.View

/-!
# Debugger sessions

A session is a row of turns: each draws the debugger, acts on one key and lets one tick pass,
until the key to quit has been pressed.
-/

set_option autoImplicit false

namespace TernaryMachine

namespace Debugger

/-- Acts on a key; a key without a meaning does nothing. -/
def press (d : Debugger) : Key → Debugger
  | .up => d.select (-1)
  | .down => d.select 1
  | .pageUp => d.select (-9)
  | .pageDown => d.select 9
  | .char c =>
    if c = 'q' then { d with quitting := true }
    else if c = 's' then step { d with running := false }
    else if c = 'u' then d.stepBack
    else if c = 'r' then d.run
    else if c = 'p' then d.pause
    else if c = 'b' then d.toggleBreakpoint
    else if c = 'w' then d.toggleProtection
    else if c = 'h' then d.toggleHeatmap
    else if c = 'x' then d.reset
    else d
  | .other => d

/-- Acts on a key and lets a tick pass. -/
def turn (d : Debugger) (key : Key) : Debugger := (d.press key).tick

/-- The screens that a session shows, one before each key up to the one that quits. -/
def session (d : Debugger) (width height : Nat) : List Key → List Screen
  | [] => []
  | key :: rest =>
    let (d, screen) := d.draw width height
    let d := d.turn key
    screen :: if d.quitting then [] else session d width height rest

end Debugger

end TernaryMachine
