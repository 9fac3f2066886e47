import TernaryMachine.Assembly.Line
import TernaryMachine.Proofs.Text.Digits

/-!
# Lines that were written on purpose

What the reader of assembly lines makes of a line that is put together in the usual way: a label,
a colon, a statement, blanks, a comment.  `Line.split_of_label` gives back label and statement, and
the lemmas on `Operand.parse` and `Statement.parse` read a mnemonic with a number behind it.
-/

set_option autoImplicit false

namespace TernaryMachine

namespace Line

/-- The code of a line ends at its first semicolon. -/
theorem code_of_comment {front : List Char} (h : ';' ∉ front) (comment : List Char) :
    code (front ++ ';' :: comment) = Text.trim front := by
  have hfront : ∀ c ∈ front, (c != ';') = true := by
    intro c hc
    rw [bne_iff_ne]
    rintro rfl
    exact h hc
  rw [code, List.takeWhile_append_of_pos hfront]
  simp

/-- The blanks before the comment are no part of the statement. -/
theorem split_of_label {label : String} {body blanks comment : List Char}
    (hlabel : Text.IsToken label.toList) (hcapitals : Text.capitals label.toList = label.toList)
    (hcolon : ':' ∉ label.toList) (hsemicolon : ';' ∉ label.toList ++ ':' :: body ++ blanks)
    (hlast : ∀ c ∈ body.getLast?, Text.isBlank c = false)
    (hblanks : ∀ c ∈ blanks, Text.isBlank c = true) :
    split (label.toList ++ ':' :: body ++ blanks ++ ';' :: comment) = .ok (some label, body) := by
  have hcode : code (label.toList ++ ':' :: body ++ blanks ++ ';' :: comment) =
      label.toList ++ ':' :: body := by
    rw [code_of_comment hsemicolon]
    refine Text.trim_append_blanks hblanks ?_ ?_
    · intro c hc
      cases hhead : label.toList.head? with
      | none => exact absurd (List.head?_eq_none_iff.1 hhead) hlabel.1
      | some d =>
        rw [List.head?_append, hhead] at hc
        cases hc
        exact hlabel.2 _ (List.mem_of_head? hhead)
    · intro c hc
      rw [List.getLast?_append, List.getLast?_cons] at hc
      cases hend : body.getLast? with
      | none =>
        rw [hend] at hc
        cases hc
        decide
      | some d =>
        rw [hend] at hc
        cases hc
        exact hlast _ hend
  have hbefore : ∀ c ∈ label.toList, (c != ':') = true := by
    intro c hc
    rw [bne_iff_ne]
    rintro rfl
    exact hcolon hc
  have htake : (label.toList ++ ':' :: body).takeWhile (· != ':') = label.toList := by
    rw [List.takeWhile_append_of_pos hbefore]
    simp
  have hdrop : (label.toList ++ ':' :: body).dropWhile (· != ':') = ':' :: body := by
    rw [List.dropWhile_append_of_pos hbefore]
    simp
  have hcontains : (label.toList ++ ':' :: body).contains ':' = true := by simp
  have hempty : label.toList.isEmpty = false := List.isEmpty_eq_false_iff.2 hlabel.1
  have hany : label.toList.any Text.isBlank = false := by
    rw [List.any_eq_false]
    intro c hc
    rw [hlabel.2 c hc]
    exact Bool.false_ne_true
  simp only [split, hcode, hcontains, htake, hdrop, hlabel.trim, hcapitals, hempty, hany,
    String.ofList_toList]
  rfl

end Line

/-! ## Operands and statements -/

/-- A decimal number is read as a literal. -/
theorem Operand.parse_of_readWord? {text : List Char} {w : Word}
    (h : Text.readWord? text = some w) : Operand.parse text = .ok (.literal w) := by
  unfold Operand.parse
  split
  · next row =>
    -- No decimal has a letter behind its first digit.
    cases h
  · next row => cases h
  · rw [h]

namespace Statement

/-- A single word is a statement without an operand. -/
theorem parse_of_one_word {body mnemonic : List Char} (h : Text.words body = [mnemonic]) :
    parse body = ofParts (String.ofList (Text.capitals mnemonic)) none := by
  simp only [parse, h]
  rfl

/-- Two words are a statement and its operand. -/
theorem parse_of_two_words {body mnemonic operand : List Char}
    (h : Text.words body = [mnemonic, operand]) :
    parse body = ofParts (String.ofList (Text.capitals mnemonic)) (some operand) := by
  simp only [parse, h]
  rfl

/-- No mnemonic names data. -/
theorem mnemonic_ne_datum (op : Opcode) : ¬ (op.mnemonic = "DAT" ∨ op.mnemonic = "DATA") := by
  cases op <;> decide

/-- The mnemonic of an opcode without an operand, alone, is read as the opcode. -/
theorem ofParts_plain {op : Opcode} (h : op.hasOperand = false) :
    ofParts op.mnemonic none = .ok (.plain op) := by
  simp only [ofParts, if_neg (mnemonic_ne_datum op), Opcode.ofMnemonic?_mnemonic, h]

/-- The mnemonic of an opcode with an operand is read with whatever its operand is read as. -/
theorem ofParts_withOperand {op : Opcode} (h : op.hasOperand = true) (text : List Char) :
    ofParts op.mnemonic (some text) =
      match Operand.parse text with
      | .error cause => .error (.malformed cause)
      | .ok value => .ok (.withOperand op value) := by
  cases hparse : Operand.parse text <;>
    simp only [ofParts, if_neg (mnemonic_ne_datum op), Opcode.ofMnemonic?_mnemonic, h, hparse]

end Statement

end TernaryMachine
