import TernaryMachine.Listing
import TernaryMachine.Proofs.Assembly.Line

/-!
# The text of an item as a statement

Listings write items in the form that assembly text has.  `Item.parse_text` says what the reader of
statements makes of the text of an item: the instruction or the word that it shows, with its operand
spelled out, and an error only for an instruction whose operand is missing.

The words of the text are made of digits, capital letters, minus signs and question marks
(`Item.Spelled`); so none of them holds a blank, a colon or a semicolon.
-/

set_option autoImplicit false

namespace TernaryMachine

namespace Item

/-- The words of the text of an item. -/
def tokens : Item → List String
  | plain op => [op.mnemonic]
  | withOperand op operand => [op.mnemonic, operand.decimal]
  | truncated op => [op.mnemonic, "???"]
  | data w => ["DAT", w.decimal]
  | nothing => ["???"]

/-- The statement that the text of an item is read as. -/
def statement : Item → Except StatementError Statement
  | plain op => .ok (.plain op)
  | withOperand op operand => .ok (.withOperand op (.literal operand))
  | truncated _ => .error (.malformed (.badOperand "???"))
  | data w => .ok (.datum (.literal w))
  | nothing => .error (.unknownMnemonic "???")

/-- Items as the walk over words reads them: opcodes have their operand, or lack it, only where
they take one. -/
def WellFormed : Item → Prop
  | plain op => op.hasOperand = false
  | withOperand op _ => op.hasOperand = true
  | truncated op => op.hasOperand = true
  | data _ => True
  | nothing => False

/-- An item that is read from memory is well-formed. -/
theorem wellFormed_read (w : Word) (second : Option Word) :
    (read (some w) second).WellFormed := by
  unfold read
  cases hdecode : Opcode.decode? w with
  | none =>
    simp only [hdecode]
    exact True.intro
  | some op =>
    cases hoperand : op.hasOperand with
    | false =>
      simp only [hdecode, hoperand]
      exact hoperand
    | true =>
      simp only [hdecode, hoperand, if_true]
      cases second with
      | none => exact hoperand
      | some operand => exact hoperand

/-- Only behind the last word an operand is missing. -/
theorem second_of_truncated {w : Word} {second : Option Word} {op : Opcode}
    (h : read (some w) second = truncated op) : second = none := by
  unfold read at h
  cases hdecode : Opcode.decode? w with
  | none => simp [hdecode] at h
  | some op' =>
    cases second with
    | none => rfl
    | some operand => cases hoperand : op'.hasOperand <;> simp [hdecode, hoperand] at h

/-- An item stands for as many words as it is wide. -/
theorem length_words_read (w : Word) (rest : List Word) :
    (read (some w) rest[0]?).words.length = (read (some w) rest[0]?).width := by
  have hwidth := width_read_le w rest
  rw [words_read_cons, List.length_take, Nat.min_eq_left hwidth]

/-- The words of the first item and the words that the walk goes on with are all there are. -/
theorem words_read_append (w : Word) (rest : List Word) :
    (read (some w) rest[0]?).words ++ rest.drop ((read (some w) rest[0]?).width - 1) =
      w :: rest := by
  have hpos := (read (some w) rest[0]?).width_pos
  obtain ⟨k, hk⟩ : ∃ k, (read (some w) rest[0]?).width = k + 1 :=
    ⟨(read (some w) rest[0]?).width - 1, by omega⟩
  rw [words_read_cons, hk]
  exact List.take_append_drop (k + 1) (w :: rest)

/-! ## The words of the text -/

/-- The text of an item is its tokens with a blank between them. -/
theorem toList_text (item : Item) :
    item.text.toList = [' '].intercalate (item.tokens.map String.toList) := by
  cases item <;>
    simp [text, tokens, String.toList_append, List.intercalate_cons_cons]

/-- The characters that the words of items are written with. -/
def isSpelling (c : Char) : Bool := c.isDigit || c.isUpper || c == '-' || c == '?'

/-- The characters of tokens lie between the blanks and the small letters, and leave out the marks
of a line. -/
theorem toNat_of_isSpelling {c : Char} (h : isSpelling c = true) :
    33 ≤ c.toNat ∧ c.toNat ≤ 90 ∧ c.toNat ≠ ':'.toNat ∧ c.toNat ≠ ';'.toNat := by
  simp only [isSpelling, Bool.or_eq_true, beq_iff_eq] at h
  rcases h with ((hdigit | hupper) | rfl) | rfl
  · obtain ⟨hlo, hhi⟩ := Text.toNat_of_isDigit hdigit
    refine ⟨by omega, by omega, ?_, ?_⟩
    · show c.toNat ≠ 58
      omega
    · show c.toNat ≠ 59
      omega
  · have hrange : 65 ≤ c.toNat ∧ c.toNat ≤ 90 := of_decide_eq_true hupper
    refine ⟨by omega, by omega, ?_, ?_⟩
    · show c.toNat ≠ 58
      omega
    · show c.toNat ≠ 59
      omega
  · decide
  · decide

/-- No character of a token is a blank. -/
theorem isBlank_of_isSpelling {c : Char} (h : isSpelling c = true) : Text.isBlank c = false := by
  obtain ⟨hlo, hhi, -, -⟩ := toNat_of_isSpelling h
  simp only [Text.isBlank, Bool.or_eq_false_iff, Bool.and_eq_false_iff, decide_eq_false_iff_not,
    beq_eq_false_iff_ne]
  omega

/-- A word as items are written with. -/
def Spelled (s : List Char) : Prop := s ≠ [] ∧ ∀ c ∈ s, isSpelling c = true

/-- A row of such characters is a token. -/
theorem Spelled.isToken {s : List Char} (h : Spelled s) : Text.IsToken s :=
  ⟨h.1, fun c hc => isBlank_of_isSpelling (h.2 c hc)⟩

/-- Whether a text is spelled in such characters can be tested. -/
theorem spelled_of_all {s : List Char} (h : (!s.isEmpty && s.all isSpelling) = true) :
    Spelled s := by
  obtain ⟨hne, hall⟩ := Bool.and_eq_true_iff.1 h
  refine ⟨?_, List.all_eq_true.1 hall⟩
  rintro rfl
  cases hne

/-- A mnemonic is spelled in such characters. -/
theorem spelled_mnemonic (op : Opcode) : Spelled op.mnemonic.toList := by
  refine spelled_of_all ?_
  cases op <;> decide

/-- A decimal number is spelled in such characters. -/
theorem spelled_decimal (w : Word) : Spelled w.decimal.toList := by
  have hdigits : ∀ n : Nat, ∀ c ∈ n.repr.toList, isSpelling c = true := by
    intro n c hc
    simp [isSpelling, Text.isDigit_of_mem_repr hc]
  obtain ⟨n, hn | hn⟩ := Text.decimal_eq w
  · rw [hn]
    exact ⟨Text.repr_ne_nil n, hdigits n⟩
  · rw [hn]
    refine ⟨List.cons_ne_nil _ _, ?_⟩
    intro c hc
    rcases List.mem_cons.1 hc with rfl | hc
    · decide
    · exact hdigits n c hc

/-- Every token of an item is spelled in such characters. -/
theorem spelled_tokens (item : Item) : ∀ token ∈ item.tokens, Spelled token.toList := by
  have hmissing : Spelled "???".toList := spelled_of_all (by decide)
  have hdatum : Spelled "DAT".toList := spelled_of_all (by decide)
  intro token htoken
  cases item <;>
    simp only [tokens, List.mem_cons, List.not_mem_nil, or_false] at htoken
  case plain op =>
    rw [htoken]
    exact spelled_mnemonic op
  case withOperand op operand =>
    rcases htoken with rfl | rfl
    · exact spelled_mnemonic op
    · exact spelled_decimal operand
  case truncated op =>
    rcases htoken with rfl | rfl
    · exact spelled_mnemonic op
    · exact hmissing
  case data w =>
    rcases htoken with rfl | rfl
    · exact hdatum
    · exact spelled_decimal w
  case nothing =>
    rw [htoken]
    exact hmissing

/-- The tokens of an item are tokens of its text. -/
theorem isToken_tokens (item : Item) :
    ∀ token ∈ item.tokens.map String.toList, Text.IsToken token := by
  intro token htoken
  obtain ⟨word, hword, rfl⟩ := List.mem_map.1 htoken
  exact (item.spelled_tokens word hword).isToken

/-- Behind the colon of a label the text of an item has its own words. -/
theorem words_text (item : Item) :
    Text.words (' ' :: item.text.toList) = item.tokens.map String.toList := by
  rw [Text.words_cons_blank (by decide), toList_text, Text.words_intercalate item.isToken_tokens]

/-- Blanks apart, the text of an item has only characters of tokens in it. -/
theorem not_mem_text {item : Item} {c : Char} (hblank : c ≠ ' ') (h : isSpelling c = false) :
    c ∉ item.text.toList := by
  intro hmem
  rw [toList_text] at hmem
  rcases Text.mem_of_mem_intercalate hmem with hspace | ⟨token, htoken, hc⟩
  · exact hblank hspace
  · obtain ⟨word, hword, rfl⟩ := List.mem_map.1 htoken
    rw [(item.spelled_tokens word hword).2 c hc] at h
    cases h

/-- The text of an item is not empty. -/
theorem text_ne_nil (item : Item) : item.text.toList ≠ [] := by
  intro hnil
  have hwords := item.words_text
  rw [hnil] at hwords
  cases item <;> cases hwords

/-- The text of an item does not end with a blank. -/
theorem isBlank_last_text (item : Item) :
    ∀ c ∈ item.text.toList.getLast?, Text.isBlank c = false := by
  rw [toList_text]
  exact Text.isBlank_last_intercalate item.isToken_tokens

/-! ## Reading the text -/

/-- A mnemonic is its own capital form. -/
theorem capitals_mnemonic (op : Opcode) :
    String.ofList (Text.capitals op.mnemonic.toList) = op.mnemonic := by
  cases op <;> decide

/-- The text of an item is read as its statement. -/
theorem parse_text {item : Item} (h : item.WellFormed) :
    Statement.parse (' ' :: item.text.toList) = item.statement := by
  have hwords := item.words_text
  cases item with
  | plain op =>
    rw [Statement.parse_of_one_word hwords, capitals_mnemonic, Statement.ofParts_plain h]
    rfl
  | withOperand op operand =>
    rw [Statement.parse_of_two_words hwords, capitals_mnemonic, Statement.ofParts_withOperand h,
      Operand.parse_of_readWord? (Text.readWord?_decimal operand)]
    rfl
  | truncated op =>
    have hmissing : Operand.parse "???".toList = .error (.badOperand "???") := rfl
    rw [Statement.parse_of_two_words hwords, capitals_mnemonic, Statement.ofParts_withOperand h,
      hmissing]
    rfl
  | data w =>
    have hdatum : String.ofList (Text.capitals "DAT".toList) = "DAT" := by decide
    rw [Statement.parse_of_two_words hwords, hdatum, Statement.ofParts, if_pos (.inl rfl)]
    simp only [Operand.parse_of_readWord? (Text.readWord?_decimal w), statement]
  | nothing => cases h

end Item

end TernaryMachine
