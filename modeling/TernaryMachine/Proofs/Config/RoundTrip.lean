import TernaryMachine.Config.Text
import TernaryMachine.Proofs.Json.Records

/-!
# Configurations read back

Everything here is about configurations in the hands of any library that keeps its documentation.
A setting is one member of an object (`Config.members`), and its member accepts it
(`Setting.exists_member`), so settings of different fields are read one after the other and put in
(`Config.ofMembers_settings`).  The order of the members plays no part in that, and neither does it
for a memory size that there is not: `MemorySize.ofCount` has no size for it, wherever it stands.
-/

set_option autoImplicit false

namespace TernaryMachine

open Json

/-! ## Memory sizes -/

/-- The count of a memory size is its number of words. -/
theorem MemorySize.toNat_count (size : MemorySize) : size.count.toNat = size.words := by
  cases size <;> decide

/-- The number of words of a memory size gives that size back. -/
theorem MemorySize.ofCount_count (size : MemorySize) : ofCount size.count = .ok size := by
  rw [ofCount, toNat_count, ofWords_words]
  rfl

/-- Only the numbers of words of the three sizes are sizes. -/
theorem MemorySize.eq_words_of_ofCount {n : UInt64} {size : MemorySize}
    (h : ofCount n = .ok size) : n.toNat = size.words := by
  unfold ofCount ofWords at h
  split_ifs at h with hsmall hmedium hlarge <;> cases h <;> assumption

/-! ## Settings as members -/

namespace Setting

/-- The value of a setting as JSON. -/
def toJson : Setting → Json
  | memorySize size => .nat size.words
  | maxCallDepth limit => .nat limit.toNat
  | maxInstructions limit => .nat limit.toNat
  | maxHistory limit => .nat limit.toNat
  | historyEnabled on => .bool on
  | heatmapEnabled on => .bool on

/-- A member of a configuration accepts the value of a setting and puts it in. -/
theorem exists_member {lib : Library} (h : lib.Documented) (setting : Setting) :
    ∃ m part, Config.shape.member? setting.field.key = some m ∧
      lib.ofJson m.kind setting.toJson = .ok part ∧ ∀ c, m.put part c = c.apply setting := by
  cases setting with
  | memorySize size =>
    refine ⟨_, size, rfl, h.ofJson_through.2 ⟨size.count, ?_, size.ofCount_count⟩, fun _ => rfl⟩
    rw [h.ofJson_unsigned, size.toNat_count]
    rfl
  | maxCallDepth limit => exact ⟨_, limit, rfl, h.ofJson_unsigned.2 rfl, fun _ => rfl⟩
  | maxInstructions limit => exact ⟨_, limit, rfl, h.ofJson_unsigned.2 rfl, fun _ => rfl⟩
  | maxHistory limit => exact ⟨_, limit, rfl, h.ofJson_unsigned.2 rfl, fun _ => rfl⟩
  | historyEnabled on => exact ⟨_, on, rfl, h.ofJson_bool.2 rfl, fun _ => rfl⟩
  | heatmapEnabled on => exact ⟨_, on, rfl, h.ofJson_bool.2 rfl, fun _ => rfl⟩

end Setting

namespace Config

/-- Settings as members of a JSON object. -/
def members (settings : List Setting) : List (String × Json) :=
  settings.map fun setting => (setting.field.key, setting.toJson)

/-! ## Settings put in -/

/-- Applying a setting puts it in the place of the one with its field. -/
theorem mem_settings_apply (c : Config) (given setting : Setting) :
    setting ∈ (c.apply given).settings ↔
      setting = given ∨ (setting ∈ c.settings ∧ setting.field ≠ given.field) := by
  cases given <;> cases setting <;> simp [apply, settings, Setting.field]

/-- A configuration with settings put in has these, and its own for the other fields. -/
theorem mem_settings_foldl_apply (c : Config) {given : List Setting}
    (hgiven : (given.map Setting.field).Nodup) (setting : Setting) :
    setting ∈ (given.foldl apply c).settings ↔
      setting ∈ given ∨ (setting ∈ c.settings ∧ setting.field ∉ given.map Setting.field) := by
  induction given generalizing c with
  | nil => simp
  | cons first rest ih =>
    rw [List.map_cons, List.nodup_cons] at hgiven
    rw [List.foldl_cons, ih (c.apply first) hgiven.2, mem_settings_apply]
    constructor
    · rintro (hrest | ⟨rfl | ⟨hown, hfirst⟩, hrest⟩)
      · exact .inl (List.mem_cons_of_mem first hrest)
      · exact .inl List.mem_cons_self
      · refine .inr ⟨hown, ?_⟩
        rw [List.map_cons, List.mem_cons]
        exact not_or.2 ⟨hfirst, hrest⟩
    · rintro (hgiven' | ⟨hown, hother⟩)
      · rcases List.mem_cons.1 hgiven' with rfl | hrest
        · exact .inr ⟨.inl rfl, hgiven.1⟩
        · exact .inl hrest
      · rw [List.map_cons, List.mem_cons, not_or] at hother
        exact .inr ⟨.inr ⟨hown, hother.1⟩, hother.2⟩

/-! ## Reading and writing -/

section

variable {lib : Library} (h : lib.Documented)

include h

/-- Settings of different fields are read as the default configuration with these put in. -/
theorem ofMembers_settings {settings : List Setting}
    (hfields : (settings.map Setting.field).Nodup) :
    lib.ofMembers shape (members settings) = .ok (settings.foldl apply {}) := by
  induction settings using List.reverseRecOn with
  | nil => exact h.ofMembers_nil
  | append_singleton front last ih =>
    obtain ⟨m, part, hm, hpart, hput⟩ := Setting.exists_member h last
    rw [List.map_append, List.map_singleton, List.nodup_append] at hfields
    have hnew : last.field.key ∉ (members front).map Prod.fst := by
      intro hmem
      obtain ⟨member, hmember, hkey⟩ := List.mem_map.1 hmem
      obtain ⟨other, hother, rfl⟩ := List.mem_map.1 hmember
      have hdiffer := hfields.2.2 _ (List.mem_map_of_mem hother) _ (List.mem_singleton.2 rfl)
      exact hdiffer (Field.key_injective hkey)
    rw [members, List.map_append, List.map_singleton, List.foldl_append]
    exact (h.ofMembers_known hm hnew).2 ⟨_, part, ih hfields.1, hpart, hput _⟩

/-- However settings of different fields are spelled, they are read as the default configuration
with these put in. -/
theorem read_settings {settings : List Setting} (hfields : (settings.map Setting.field).Nodup)
    {text : String} (htext : SpellsElement text.toList (.object (members settings))) :
    read lib text = .ok (settings.foldl apply {}) :=
  (h.read_spelled htext).2 (ofMembers_settings h hfields)

/-- What is written of a configuration spells all of its settings. -/
theorem write_spells (c : Config) :
    SpellsElement (c.write lib).toList (.object (members c.settings)) := by
  obtain ⟨text, htext, hspells⟩ := h.write_spells shape c
  have hmembers : (shape.members.map fun m => (m.name, lib.toJson m.kind (m.get c))) =
      members c.settings := by
    simp [shape, members, settings, Setting.field, Setting.toJson, h.toJson_unsigned,
      h.toJson_bool, h.toJson_through, MemorySize.toNat_count]
  rw [hmembers] at hspells
  rwa [write, htext]

/-- A configuration that is written is read back. -/
theorem read_write (c : Config) : read lib (c.write lib) = .ok c := by
  have hfields : (c.settings.map Setting.field).Nodup := by
    rw [fields_settings]
    decide
  rw [read_settings h hfields (write_spells h c), apply_settings]

/-- A text with a member that is to be a memory size and is none is no configuration. -/
theorem read_refuses_size {members : List (String × Json)} {value : Json}
    (hmem : (Field.memorySize.key, value) ∈ members)
    (hvalue : ∀ size : MemorySize, value ≠ .nat size.words) {text : String}
    (htext : SpellsElement text.toList (.object members)) : ∃ e, read lib text = .error e := by
  cases hread : read lib text with
  | error e => exact ⟨e, rfl⟩
  | ok c =>
    have hsize : ∀ size : MemorySize,
        lib.ofJson (.through MemorySize.ofCount MemorySize.count) value ≠ .ok size := by
      intro size hsize
      obtain ⟨n, hn, hmake⟩ := h.ofJson_through.1 hsize
      apply hvalue size
      rw [h.ofJson_unsigned.1 hn, MemorySize.eq_words_of_ofCount hmake]
    have hrefuses : lib.ofMembers shape members ≠ .ok c := h.ofMembers_refuses rfl hsize hmem
    exact absurd ((h.read_spelled htext).1 hread) hrefuses

end

/-- A member with one space in front of its name and one in front of its value. -/
theorem spellsMember_setting (setting : Setting) {t : List Char} (h : Spells t setting.toJson) :
    SpellsMember (' ' :: '"' :: setting.field.key.toList.flatMap escape ++ '"' :: ':' :: ' ' :: t)
      (setting.field.key, setting.toJson) := by
  have hvalue := SpellsElement.mk isGap_blank h isGap_nil
  have hmember := SpellsMember.mk isGap_blank (spellsText_flatMap_escape setting.field.key.toList)
    isGap_nil hvalue
  simpa using hmember

end Config

/-- **Configurations are read back.**  Let a library keep its documentation.  A configuration that
it writes it reads back as it is.  An object whose members are settings of different fields, in any
order and any spelling, it reads as the configuration that has these settings and the default ones
for the other fields.  An object with a member that is to be a memory size and is none of the three
it refuses, whatever the other members are and wherever that one stands. -/
theorem configuration_round_trip (lib : Library) (h : lib.Documented) :
    (∀ c : Config, Config.read lib (c.write lib) = .ok c) ∧
    (∀ (settings : List Setting) (text : String), (settings.map Setting.field).Nodup →
      SpellsElement text.toList (.object (Config.members settings)) →
      ∃ c, Config.read lib text = .ok c ∧
        ∀ setting, setting ∈ c.settings ↔ setting ∈ settings ∨
          (setting ∈ ({} : Config).settings ∧ setting.field ∉ settings.map Setting.field)) ∧
    ∀ (members : List (String × Json)) (value : Json) (text : String),
      (Field.memorySize.key, value) ∈ members → (∀ size : MemorySize, value ≠ .nat size.words) →
      SpellsElement text.toList (.object members) → ∃ e, Config.read lib text = .error e := by
  refine ⟨Config.read_write h, ?_, ?_⟩
  · intro settings text hfields htext
    refine ⟨_, Config.read_settings h hfields htext, ?_⟩
    exact Config.mem_settings_foldl_apply {} hfields
  · intro members value text hmem hvalue htext
    exact Config.read_refuses_size h hmem hvalue htext

/-- Two settings out of order, read by the library that the program is run with. -/
theorem configuration_round_trip_two_settings :
    library.Documented ∧
    ∃ c, Config.read library "\x7b \"heatmap_enabled\": true, \"memory_size\": 243\x7d" = .ok c ∧
      ∀ setting, setting ∈ c.settings ↔
        setting ∈ [Setting.heatmapEnabled true, .memorySize .large] ∨
          (setting ∈ ({} : Config).settings ∧
            setting.field ∉ [Field.heatmapEnabled, Field.memorySize]) := by
  refine ⟨library_documented, ?_⟩
  apply (configuration_round_trip library library_documented).2.1
    [.heatmapEnabled true, .memorySize .large]
  · decide
  · have hheatmap := Config.spellsMember_setting (.heatmapEnabled true) .true
    have hsize := Config.spellsMember_setting (.memorySize .large) (.int 243)
    have hobject := Spells.object (SpellsMembers.more hheatmap (.one hsize))
    exact SpellsElement.mk isGap_nil hobject isGap_nil

end TernaryMachine
