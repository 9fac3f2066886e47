import TernaryMachine.Memory

/-!
# Configuration

A configuration fixes the memory size and the limits of a machine, and whether it keeps a
history and counts memory accesses.  The values of a configuration are also dealt with one at
a time, as settings: `Config.settings` lists them and `Config.apply` puts one in.
`apply_settings` says that a configuration is put together again from its settings.
-/

set_option autoImplicit false

namespace TernaryMachine

/-- How a machine is built and what it is limited to. -/
structure Config where
  memorySize : MemorySize := .medium
  maxCallDepth : UInt64 := 10
  maxInstructions : UInt64 := 10000
  maxHistory : UInt64 := 1000
  historyEnabled : Bool := true
  heatmapEnabled : Bool := false
  deriving DecidableEq, Repr, Inhabited

/-- The names of the values of a configuration. -/
inductive Field where
  | memorySize
  | maxCallDepth
  | maxInstructions
  | maxHistory
  | historyEnabled
  | heatmapEnabled
  deriving DecidableEq, Repr

/-- One value of a configuration. -/
inductive Setting where
  | memorySize (size : MemorySize)
  | maxCallDepth (limit : UInt64)
  | maxInstructions (limit : UInt64)
  | maxHistory (limit : UInt64)
  | historyEnabled (on : Bool)
  | heatmapEnabled (on : Bool)
  deriving DecidableEq, Repr

namespace Field

/-- Every field, in the order in which a configuration is written. -/
def all : List Field :=
  [memorySize, maxCallDepth, maxInstructions, maxHistory, historyEnabled, heatmapEnabled]

/-- The key of a field in configuration text. -/
def key : Field → String
  | memorySize => "memory_size"
  | maxCallDepth => "max_call_depth"
  | maxInstructions => "max_instructions"
  | maxHistory => "max_history"
  | historyEnabled => "history_enabled"
  | heatmapEnabled => "heatmap_enabled"

/-- Fields are told apart by their keys. -/
theorem key_injective {f g : Field} (h : f.key = g.key) : f = g := by
  cases f <;> cases g <;> first | rfl | exact absurd h (by decide)

end Field

/-- The field that a setting is for. -/
def Setting.field : Setting → Field
  | memorySize _ => .memorySize
  | maxCallDepth _ => .maxCallDepth
  | maxInstructions _ => .maxInstructions
  | maxHistory _ => .maxHistory
  | historyEnabled _ => .historyEnabled
  | heatmapEnabled _ => .heatmapEnabled

namespace Config

/-- A configuration with one value put in. -/
def apply (c : Config) : Setting → Config
  | .memorySize size => { c with memorySize := size }
  | .maxCallDepth limit => { c with maxCallDepth := limit }
  | .maxInstructions limit => { c with maxInstructions := limit }
  | .maxHistory limit => { c with maxHistory := limit }
  | .historyEnabled on => { c with historyEnabled := on }
  | .heatmapEnabled on => { c with heatmapEnabled := on }

/-- The values of a configuration, one for each field. -/
def settings (c : Config) : List Setting :=
  [.memorySize c.memorySize, .maxCallDepth c.maxCallDepth, .maxInstructions c.maxInstructions,
    .maxHistory c.maxHistory, .historyEnabled c.historyEnabled, .heatmapEnabled c.heatmapEnabled]

/-- Whatever a configuration starts as, all settings of `c` make it `c`. -/
theorem apply_settings (start c : Config) : c.settings.foldl apply start = c := rfl

/-- A configuration is written with a setting for each field, in the order of the fields. -/
theorem fields_settings (c : Config) : c.settings.map Setting.field = Field.all := rfl

end Config

end TernaryMachine
