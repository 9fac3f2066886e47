import TernaryMachine.Config.Basic
import TernaryMachine.Json.Reader
import TernaryMachine.Text.Place

/-!
# Configuration text

A configuration declares the shape of a record: six members with the defaults of a configuration,
and a memory size that travels as its number of words.  `Config.write` and `Config.read` hand that
shape to a library, whichever it is; `Config.render` and `Config.parse` are the two with the
library that the program is run with.
-/

set_option autoImplicit false

namespace TernaryMachine

/-- The memory size of a number of words, or the wording of why there is none. -/
def MemorySize.ofCount (words : UInt64) : Except String MemorySize :=
  (MemorySize.ofWords words.toNat).mapError MemoryError.message

/-- The number of words of a memory size. -/
def MemorySize.count (size : MemorySize) : UInt64 := UInt64.ofNat size.words

namespace Config

/-- The members of a configuration. -/
def shape : Json.Shape Config where
  start := {}
  members := [
    ⟨Field.memorySize.key, MemorySize, .through MemorySize.ofCount MemorySize.count,
      Config.memorySize, fun size c => { c with memorySize := size }⟩,
    ⟨Field.maxCallDepth.key, UInt64, .unsigned,
      Config.maxCallDepth, fun limit c => { c with maxCallDepth := limit }⟩,
    ⟨Field.maxInstructions.key, UInt64, .unsigned,
      Config.maxInstructions, fun limit c => { c with maxInstructions := limit }⟩,
    ⟨Field.maxHistory.key, UInt64, .unsigned,
      Config.maxHistory, fun limit c => { c with maxHistory := limit }⟩,
    ⟨Field.historyEnabled.key, Bool, .bool,
      Config.historyEnabled, fun on c => { c with historyEnabled := on }⟩,
    ⟨Field.heatmapEnabled.key, Bool, .bool,
      Config.heatmapEnabled, fun on c => { c with heatmapEnabled := on }⟩]

/-- The text of a configuration, as a library writes it; without one if the library has none. -/
def write (lib : Json.Library) (c : Config) : String :=
  match lib.write shape c with
  | .ok text => text
  | .error _ => ""

/-- The configuration of a text, as a library reads it. -/
def read (lib : Json.Library) (text : String) : Except lib.Error Config := lib.read shape text

end Config

/-- Why a text is not a configuration. -/
inductive ConfigError where
  /-- The text is no JSON, ends too early, or holds a value of the wrong kind. -/
  | scan (cause : Json.ScanError)
  /-- A field is given twice. -/
  | repeatedField (key : String)
  /-- Memory does not come in the size asked for; `rest` is what had not been read by then. -/
  | size (wording : String) (rest : List Char)
  deriving DecidableEq, Repr

namespace ConfigError

/-- The error of a configuration whose text was not read; the memory size is the only member that
refuses a number. -/
def ofRead : Json.ReadError → ConfigError
  | .scan cause => scan cause
  | .repeated name => repeatedField name
  | .refused wording rest => size wording rest

/-- The wording of a configuration error. -/
def message : ConfigError → String
  | scan .malformed => "the text is not well formed"
  | scan .truncated => "the text ends too early"
  | scan .mismatched => "a value is of the wrong kind or out of range"
  | repeatedField key => "duplicate field " ++ key
  | size wording _ => wording

/-- The wording of an error in a configuration text, with the place of a refused size. -/
def report (text : String) : ConfigError → String
  | size wording rest =>
    let read := text.toList.take (text.length - rest.length)
    wording ++ " at " ++ (Text.Place.after read).text
  | e => e.message

end ConfigError

namespace Config

/-- The text of a configuration. -/
def render (c : Config) : String := c.write Json.library

/-- The configuration that a text spells. -/
def parse (text : String) : Except ConfigError Config :=
  (read Json.library text).mapError ConfigError.ofRead

end Config

end TernaryMachine
