import Mathlib.Tactic.SplitIfs
import TernaryMachine.Json.Scan
import TernaryMachine.Json.Value

/-!
# The grammar of JSON text

What a JSON text spells, as rules and without regard to how texts are read.  Spaces may stand around
every value, name and mark (`IsGap`), a character of a string has several spellings (`SpellsChar`),
and integers are spelled in decimal.  Fractions and exponents are left out, since no `Json` value
has any.

`spells_pretty` says that a value written over several lines is one of its texts.
-/

set_option autoImplicit false

namespace TernaryMachine.Json

/-- A row of spaces, which may be empty. -/
def IsGap (s : List Char) : Prop := ∀ c ∈ s, isSpace c = true

/-! ## Strings -/

/-- The letters that stand for a character behind a backslash. -/
def shortEscapes : List (Char × Char) :=
  [('"', '"'), ('\\', '\\'), ('/', '/'), ('b', Char.ofNat 8), ('f', Char.ofNat 12), ('n', '\n'),
    ('r', '\r'), ('t', '\t')]

/-- Four hexadecimal digits spell a code unit. -/
inductive SpellsUnit : List Char → Nat → Prop where
  | mk {a b c d : Char} {i j k l : Nat} (ha : hexValue? a = some i) (hb : hexValue? b = some j)
      (hc : hexValue? c = some k) (hd : hexValue? d = some l) :
      SpellsUnit [a, b, c, d] (((i * 16 + j) * 16 + k) * 16 + l)

/-- The spellings of a character within a string: itself, a short escape, or an escaped code unit
or pair of surrogates. -/
inductive SpellsChar : List Char → Char → Prop where
  | plain {c : Char} (hquote : c ≠ '"') (hslash : c ≠ '\\') (hcontrol : 0x20 ≤ c.toNat) :
      SpellsChar [c] c
  | short {letter c : Char} (h : (letter, c) ∈ shortEscapes) : SpellsChar ['\\', letter] c
  | unit {digits : List Char} {n : Nat} (h : SpellsUnit digits n) (hn : n < 0xD800 ∨ 0xDFFF < n) :
      SpellsChar ('\\' :: 'u' :: digits) (Char.ofNat n)
  | pair {digits digits' : List Char} {high low : Nat} (h : SpellsUnit digits high)
      (h' : SpellsUnit digits' low) (hhigh : 0xD800 ≤ high ∧ high ≤ 0xDBFF)
      (hlow : 0xDC00 ≤ low ∧ low ≤ 0xDFFF) :
      SpellsChar ('\\' :: 'u' :: digits ++ '\\' :: 'u' :: digits')
        (Char.ofNat (0x10000 + (high - 0xD800) * 0x400 + (low - 0xDC00)))

/-- What stands between the quotes of a string. -/
inductive SpellsText : List Char → List Char → Prop where
  | nil : SpellsText [] []
  | cons {t rest s : List Char} {c : Char} (hc : SpellsChar t c) (hrest : SpellsText rest s) :
      SpellsText (t ++ rest) (c :: s)

/-! ## Values -/

mutual

/-- A text spells a value, from its first character to its last. -/
inductive Spells : List Char → Json → Prop where
  | null : Spells ['n', 'u', 'l', 'l'] .null
  | true : Spells ['t', 'r', 'u', 'e'] (.bool Bool.true)
  | false : Spells ['f', 'a', 'l', 's', 'e'] (.bool Bool.false)
  | int (n : Int) : Spells n.repr.toList (.int n)
  | text {t : List Char} {s : String} (h : SpellsText t s.toList) :
      Spells ('"' :: t ++ ['"']) (.text s)
  | empty {gap : List Char} (h : IsGap gap) : Spells ('[' :: gap ++ [']']) (.array [])
  | array {t : List Char} {items : List Json} (h : SpellsItems t items) :
      Spells ('[' :: t ++ [']']) (.array items)
  | bare {gap : List Char} (h : IsGap gap) : Spells ('\x7b' :: gap ++ ['\x7d']) (.object [])
  | object {t : List Char} {members : List (String × Json)} (h : SpellsMembers t members) :
      Spells ('\x7b' :: t ++ ['\x7d']) (.object members)

/-- A value with spaces around it. -/
inductive SpellsElement : List Char → Json → Prop where
  | mk {front t back : List Char} {value : Json} (hfront : IsGap front) (h : Spells t value)
      (hback : IsGap back) : SpellsElement (front ++ t ++ back) value

/-- Values with commas between them. -/
inductive SpellsItems : List Char → List Json → Prop where
  | one {t : List Char} {value : Json} (h : SpellsElement t value) : SpellsItems t [value]
  | more {t rest : List Char} {value : Json} {values : List Json} (h : SpellsElement t value)
      (hrest : SpellsItems rest values) : SpellsItems (t ++ ',' :: rest) (value :: values)

/-- A name, a colon and a value, with spaces around each of them. -/
inductive SpellsMember : List Char → String × Json → Prop where
  | mk {front name gap t : List Char} {key : String} {value : Json} (hfront : IsGap front)
      (hname : SpellsText name key.toList) (hgap : IsGap gap) (h : SpellsElement t value) :
      SpellsMember (front ++ '"' :: name ++ '"' :: gap ++ ':' :: t) (key, value)

/-- Members with commas between them. -/
inductive SpellsMembers : List Char → List (String × Json) → Prop where
  | one {t : List Char} {member : String × Json} (h : SpellsMember t member) :
      SpellsMembers t [member]
  | more {t rest : List Char} {member : String × Json} {members : List (String × Json)}
      (h : SpellsMember t member) (hrest : SpellsMembers rest members) :
      SpellsMembers (t ++ ',' :: rest) (member :: members)

end

/-! ## Values as they are written -/

/-- Nothing at all is a gap. -/
theorem isGap_nil : IsGap [] := nofun

/-- A blank is a gap. -/
theorem isGap_blank : IsGap [' '] := by
  intro c hc
  rw [List.mem_singleton.1 hc]
  decide

/-- A line feed with the indent behind it is a gap. -/
theorem isGap_newLine (level : Nat) : IsGap (newLine level).toList := by
  intro c hc
  rw [newLine, String.toList_append] at hc
  rcases List.mem_append.1 hc with hfeed | hblank
  · rw [List.mem_singleton.1 (show c ∈ ['\n'] from hfeed)]
    decide
  · rw [String.toList_ofList] at hblank
    rw [List.eq_of_mem_replicate hblank]
    decide

/-- A hexadecimal digit is read as its value. -/
theorem hexValue?_hexDigit : ∀ n < 16, hexValue? (hexDigit n) = some n := by
  decide

/-- The escape of a character spells it. -/
theorem spellsChar_escape (c : Char) : SpellsChar (escape c) c := by
  have hself : Char.ofNat c.toNat = c := Char.ofNat_toNat c
  unfold escape
  split_ifs with hquote hslash hfeed hreturn htab hback hform hcontrol
  · rw [hquote]
    exact .short (by decide)
  · rw [hslash]
    exact .short (by decide)
  · rw [hfeed]
    exact .short (by decide)
  · rw [hreturn]
    exact .short (by decide)
  · rw [htab]
    exact .short (by decide)
  · rw [← hself, hback]
    exact .short (by decide)
  · rw [← hself, hform]
    exact .short (by decide)
  · have hhigh : c.toNat / 16 < 16 := by omega
    have hlow : c.toNat % 16 < 16 := by omega
    have hvalue : ((0 * 16 + 0) * 16 + c.toNat / 16) * 16 + c.toNat % 16 = c.toNat := by omega
    have hzero : hexValue? '0' = some 0 := by decide
    have hunit := SpellsUnit.mk hzero hzero (hexValue?_hexDigit _ hhigh) (hexValue?_hexDigit _ hlow)
    rw [hvalue] at hunit
    have hspells := SpellsChar.unit hunit (by omega)
    rwa [hself] at hspells
  · exact .plain hquote hslash (by omega)

/-- The escapes of a text's characters spell the text. -/
theorem spellsText_flatMap_escape (s : List Char) : SpellsText (s.flatMap escape) s := by
  induction s with
  | nil => exact .nil
  | cons c s ih =>
    rw [List.flatMap_cons]
    exact .cons (spellsChar_escape c) ih

/-- A quoted text is its escapes between quotation marks. -/
theorem toList_quote (s : String) :
    (quote s).toList = '"' :: s.toList.flatMap escape ++ ['"'] := by
  simp only [quote, String.toList_append, String.toList_ofList]
  rfl

/-- A block is its parts, each on a line of its own, with commas between and brackets around them.
-/
theorem toList_block (level : Nat) (first last : String) {parts : List String}
    (hparts : parts ≠ []) :
    (block level first last parts).toList =
      first.toList ++ ((newLine (level + 1)).toList ++
        (',' :: (newLine (level + 1)).toList).intercalate (parts.map String.toList) ++
          (newLine level).toList) ++ last.toList := by
  have hne : ¬ parts.isEmpty = true := by simpa using hparts
  simp only [block, if_neg hne, String.toList_append, String.toList_intercalate, List.append_assoc]
  rfl

/-- A block without parts is its brackets. -/
theorem toList_block_nil (level : Nat) (first last : String) :
    (block level first last []).toList = first.toList ++ last.toList :=
  String.toList_append

mutual

/-- At every indent, a value is printed as a text that spells it. -/
theorem spells_prettyAt (level : Nat) : (value : Json) → Spells (prettyAt level value).toList value
  | .null => by
    rw [prettyAt]
    exact .null
  | .bool Bool.true => by
    rw [prettyAt]
    exact .true
  | .bool Bool.false => by
    rw [prettyAt]
    exact .false
  | .int n => by
    rw [prettyAt]
    exact .int n
  | .text s => by
    rw [prettyAt, toList_quote]
    exact .text (spellsText_flatMap_escape s.toList)
  | .array [] => by
    rw [prettyAt, prettyItems, toList_block_nil]
    exact .empty isGap_nil
  | .array (item :: rest) => by
    rw [prettyAt, toList_block level _ _ (by simp [prettyItems])]
    exact .array (spellsItems_pretty level (item :: rest) (List.cons_ne_nil item rest))
  | .object [] => by
    rw [prettyAt, prettyMembers, toList_block_nil]
    exact .bare isGap_nil
  | .object ((key, value) :: rest) => by
    rw [prettyAt, toList_block level _ _ (by simp [prettyMembers])]
    exact .object
      (spellsMembers_pretty level ((key, value) :: rest) (List.cons_ne_nil (key, value) rest))

/-- What is printed between the brackets of an array spells its elements. -/
theorem spellsItems_pretty (level : Nat) : (items : List Json) → items ≠ [] →
    SpellsItems ((newLine (level + 1)).toList ++
      (',' :: (newLine (level + 1)).toList).intercalate
        ((prettyItems (level + 1) items).map String.toList) ++ (newLine level).toList) items
  | [], hne => absurd rfl hne
  | [item], _ => by
    have hitem := spells_prettyAt (level + 1) item
    simp only [prettyItems, List.map_cons, List.map_nil, List.intercalate_singleton]
    exact .one (.mk (isGap_newLine (level + 1)) hitem (isGap_newLine level))
  | item :: next :: rest, _ => by
    have hitem := SpellsElement.mk (isGap_newLine (level + 1)) (spells_prettyAt (level + 1) item)
      isGap_nil
    have hrest := spellsItems_pretty level (next :: rest) (List.cons_ne_nil next rest)
    simpa only [prettyItems, List.map_cons, List.intercalate_cons_cons, List.append_assoc,
      List.cons_append, List.nil_append, List.append_nil] using SpellsItems.more hitem hrest

/-- What is printed between the brackets of an object spells its members. -/
theorem spellsMembers_pretty (level : Nat) : (members : List (String × Json)) → members ≠ [] →
    SpellsMembers ((newLine (level + 1)).toList ++
      (',' :: (newLine (level + 1)).toList).intercalate
        ((prettyMembers (level + 1) members).map String.toList) ++ (newLine level).toList) members
  | [], hne => absurd rfl hne
  | [(key, value)], _ => by
    have hvalue := SpellsElement.mk isGap_blank (spells_prettyAt (level + 1) value)
      (isGap_newLine level)
    have hmember := SpellsMember.mk (isGap_newLine (level + 1))
      (spellsText_flatMap_escape key.toList) isGap_nil hvalue
    simpa [prettyMembers, toList_quote, String.toList_append] using SpellsMembers.one hmember
  | (key, value) :: next :: rest, _ => by
    have hvalue := SpellsElement.mk isGap_blank (spells_prettyAt (level + 1) value) isGap_nil
    have hmember := SpellsMember.mk (isGap_newLine (level + 1))
      (spellsText_flatMap_escape key.toList) isGap_nil hvalue
    have hrest := spellsMembers_pretty level (next :: rest) (List.cons_ne_nil next rest)
    simpa [prettyMembers, toList_quote, String.toList_append] using
      SpellsMembers.more hmember hrest

end

/-- What is written of a value spells it. -/
theorem spells_pretty (value : Json) : Spells value.pretty.toList value :=
  spells_prettyAt 0 value

end TernaryMachine.Json
