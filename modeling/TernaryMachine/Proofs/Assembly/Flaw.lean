import TernaryMachine.Assembly.Assemble
import TernaryMachine.Proofs.Assembly.Grammar

/-!
# What is wrong with assembly text

The other half of the grammar: what is wrong with an operand, a statement or a line that spells none
(`Operand.Flawed`, `Statement.Flawed`, `Line.Flawed`).  A flaw names one fault only, so of several
the rules say which comes first: on a line the label before the statement, in a statement a third
word before the name, and the name before the operand.

What is wrong with a line does not depend on other lines, but for one thing: its label may be taken.

Each kind is refused just as the rules say: `Operand.parse_eq_error_iff`,
`Statement.parse_eq_error_iff` and `Line.flawed_iff`.
-/

set_option autoImplicit false

namespace TernaryMachine

/-- What is wrong with a word of text that spells no operand. -/
inductive Operand.Flawed : List Char → Malformed → Prop where
  | literal {mark : Char} {row : List Char} {e : NumeralError} (hmark : mark = 't' ∨ mark = 'T')
      (hrow : Numeral.parse (String.ofList row) = .error e) :
      Flawed ('0' :: mark :: row) (.badLiteral e)
  | operand {text : List Char}
      (hmark : ∀ mark row, mark = 't' ∨ mark = 'T' → text ≠ '0' :: mark :: row)
      (hnone : ∀ operand : Operand, ¬ operand.Spells text) :
      Flawed text (.badOperand (String.ofList text))

/-- A word of text asks for data. -/
def Statement.NamesDatum (name : List Char) : Prop :=
  String.ofList (Text.capitals name) = "DAT" ∨ String.ofList (Text.capitals name) = "DATA"

/-- What is wrong with words of text that spell no statement. -/
inductive Statement.Flawed : List (List Char) → StatementError → Prop where
  | surplus {name text surplus : List Char} {more : List (List Char)} :
      Flawed (name :: text :: surplus :: more) (.malformed (.unexpected (String.ofList surplus)))
  | datumMissing {name : List Char} (hname : NamesDatum name) :
      Flawed [name] (.malformed .datumMissing)
  | datum {name text : List Char} {cause : Malformed} (hname : NamesDatum name)
      (htext : Operand.Flawed text cause) : Flawed [name, text] (.malformed cause)
  | unknown {name : List Char} {operands : List (List Char)} (hfew : operands.length ≤ 1)
      (hdatum : ¬ NamesDatum name)
      (hnone : ∀ op : Opcode, ¬ op.Named (String.ofList (Text.capitals name))) :
      Flawed (name :: operands) (.unknownMnemonic (String.ofList (Text.capitals name)))
  | operandMissing {name : List Char} {op : Opcode}
      (hname : op.Named (String.ofList (Text.capitals name))) (hoperand : op.hasOperand = true) :
      Flawed [name] (.malformed (.operandMissing op))
  | operandSurplus {name text : List Char} {op : Opcode}
      (hname : op.Named (String.ofList (Text.capitals name))) (hoperand : op.hasOperand = false) :
      Flawed [name, text] (.malformed (.operandSurplus op (String.ofList text)))
  | operand {name text : List Char} {op : Opcode} {cause : Malformed}
      (hname : op.Named (String.ofList (Text.capitals name))) (hoperand : op.hasOperand = true)
      (htext : Operand.Flawed text cause) : Flawed [name, text] (.malformed cause)

/-- What is wrong with a line. -/
inductive Flaw where
  /-- Its label or its statement cannot be read. -/
  | unread (cause : StatementError)
  /-- Its label is taken. -/
  | taken (label : String)
  deriving DecidableEq, Repr

/-- A flaw of the line with a number. -/
def Flaw.atLine (number : Nat) : Flaw → AssemblyError
  | unread cause => cause.atLine number
  | taken label => .duplicateLabel number label

/-- What is wrong with a line, when some labels are taken. -/
inductive Line.Flawed (taken : List String) : List Char → Flaw → Prop where
  | label {line code front body : List Char} {comment : Option (List Char)}
      (hcomment : Text.Divides ';' line code comment)
      (hcolon : Text.Divides ':' code front (some body))
      (hname : ∀ name, Text.words front ≠ [name]) :
      Flawed taken line
        (.unread (.malformed (.badLabel (String.ofList (Text.capitals (Text.trim front))))))
  | taken {line code front body name : List Char} {comment : Option (List Char)}
      (hcomment : Text.Divides ';' line code comment)
      (hcolon : Text.Divides ':' code front (some body)) (hname : Text.words front = [name])
      (htaken : String.ofList (Text.capitals name) ∈ taken) :
      Flawed taken line (.taken (String.ofList (Text.capitals name)))
  | bare {line code : List Char} {comment : Option (List Char)} {cause : StatementError}
      (hcomment : Text.Divides ';' line code comment) (hcolon : ':' ∉ code)
      (hbody : Statement.Flawed (Text.words code) cause) : Flawed taken line (.unread cause)
  | labelled {line code front body name : List Char} {comment : Option (List Char)}
      {cause : StatementError} (hcomment : Text.Divides ';' line code comment)
      (hcolon : Text.Divides ':' code front (some body)) (hname : Text.words front = [name])
      (hfree : String.ofList (Text.capitals name) ∉ taken)
      (hbody : Statement.Flawed (Text.words body) cause) : Flawed taken line (.unread cause)

/-! ## Operands and statements -/

/-- An operand is refused just for what is wrong with it. -/
theorem Operand.parse_eq_error_iff {text : List Char} {cause : Malformed} :
    parse text = .error cause ↔ Flawed text cause := by
  constructor
  · intro h
    by_cases hmark : ∃ mark row, (mark = 't' ∨ mark = 'T') ∧ text = '0' :: mark :: row
    · obtain ⟨mark, row, hmark, rfl⟩ := hmark
      rw [parse_marked hmark] at h
      split at h
      · cases h
      · next e hrow =>
        cases h
        exact .literal hmark hrow
    · have hunmarked : ∀ mark row, mark = 't' ∨ mark = 'T' → text ≠ '0' :: mark :: row :=
        fun mark row hm htext => hmark ⟨mark, row, hm, htext⟩
      have hnone : ∀ operand : Operand, ¬ operand.Spells text := fun operand hspells => by
        rw [parse_eq_ok_iff.2 hspells] at h
        cases h
      rw [parse_unmarked hunmarked] at h
      split at h
      · cases h
      · split at h
        · cases h
        · cases h
          exact .operand hunmarked hnone
  · rintro (⟨hmark, hrow⟩ | ⟨hmark, hnone⟩)
    · rw [parse_marked hmark, hrow]
    · simp only [← parse_eq_ok_iff] at hnone
      rw [parse_unmarked hmark] at hnone ⊢
      split
      · next w hread =>
        rw [hread] at hnone
        exact absurd rfl (hnone (.literal w))
      · next hread =>
        rw [hread] at hnone
        split
        · next hlabel =>
          rw [if_pos hlabel] at hnone
          exact absurd rfl (hnone _)
        · rfl

namespace Statement

/-- The reader of a statement in parts refuses it only for a flaw that the grammar names. -/
theorem flawed_of_ofParts {name : List Char} {text : Option (List Char)} {cause : StatementError}
    (h : ofParts (String.ofList (Text.capitals name)) text = .error cause) :
    Flawed (name :: text.toList) cause := by
  unfold ofParts at h
  split at h
  · next hname =>
    cases text with
    | none =>
      cases h
      exact .datumMissing hname
    | some text =>
      cases hparse : Operand.parse text with
      | error e =>
        simp only [hparse, Except.error.injEq] at h
        rw [← h]
        exact .datum hname (Operand.parse_eq_error_iff.1 hparse)
      | ok operand => simp [hparse] at h
  · next hdatum =>
    cases hop : Opcode.ofMnemonic? (String.ofList (Text.capitals name)) with
    | none =>
      simp only [hop, Except.error.injEq] at h
      rw [← h]
      refine .unknown ?_ hdatum fun op hname => ?_
      · cases text <;> simp
      · rw [ofMnemonic?_capitals_iff.2 hname] at hop
        cases hop
    | some op =>
      have hname := ofMnemonic?_capitals_iff.1 hop
      cases hoperand : op.hasOperand with
      | false =>
        cases text with
        | none => simp [hop, hoperand] at h
        | some text =>
          simp only [hop, hoperand, Except.error.injEq] at h
          rw [← h]
          exact .operandSurplus hname hoperand
      | true =>
        cases text with
        | none =>
          simp only [hop, hoperand, Except.error.injEq] at h
          rw [← h]
          exact .operandMissing hname hoperand
        | some text =>
          cases hparse : Operand.parse text with
          | error e =>
            simp only [hop, hoperand, hparse, Except.error.injEq] at h
            rw [← h]
            exact .operand hname hoperand (Operand.parse_eq_error_iff.1 hparse)
          | ok operand => simp [hop, hoperand, hparse] at h

/-- A first word that names neither data nor an opcode is an unknown mnemonic, whatever follows it.
-/
theorem ofParts_unknown {name : List Char} (hdatum : ¬ NamesDatum name)
    (hnone : ∀ op : Opcode, ¬ op.Named (String.ofList (Text.capitals name)))
    (text : Option (List Char)) :
    ofParts (String.ofList (Text.capitals name)) text =
      .error (.unknownMnemonic (String.ofList (Text.capitals name))) := by
  have hop : Opcode.ofMnemonic? (String.ofList (Text.capitals name)) = none :=
    Option.eq_none_iff_forall_ne_some.2 fun op h => hnone op (ofMnemonic?_capitals_iff.1 h)
  simp only [ofParts, hop]
  exact if_neg hdatum

/-- A statement with a flaw is refused for this flaw. -/
theorem parse_of_flawed {body : List Char} {words : List (List Char)} {cause : StatementError}
    (hwords : Text.words body = words) (h : Flawed words cause) : parse body = .error cause := by
  cases h with
  | surplus => simp only [parse, hwords]
  | datumMissing hname =>
    rw [parse_of_one_word hwords]
    exact if_pos hname
  | datum hname htext =>
    rw [parse_of_two_words hwords, ofParts, if_pos (show _ ∨ _ from hname)]
    simp only [Operand.parse_eq_error_iff.2 htext]
  | @unknown name operands hfew hdatum hnone =>
    rcases operands with _ | ⟨text, _ | ⟨surplus, more⟩⟩
    · rw [parse_of_one_word hwords, ofParts_unknown hdatum hnone]
    · rw [parse_of_two_words hwords, ofParts_unknown hdatum hnone]
    · rw [List.length_cons, List.length_cons] at hfew
      omega
  | operandMissing hname hoperand =>
    rw [parse_of_one_word hwords, ofParts, if_neg hname.ne_datum]
    simp only [ofMnemonic?_capitals_iff.2 hname, hoperand]
  | operandSurplus hname hoperand =>
    rw [parse_of_two_words hwords, ofParts, if_neg hname.ne_datum]
    simp only [ofMnemonic?_capitals_iff.2 hname, hoperand]
  | operand hname hoperand htext =>
    rw [parse_of_two_words hwords, ofParts, if_neg hname.ne_datum]
    simp only [ofMnemonic?_capitals_iff.2 hname, hoperand, Operand.parse_eq_error_iff.2 htext]

/-- A statement is refused just for what is wrong with its words. -/
theorem parse_eq_error_iff {body : List Char} {cause : StatementError} :
    parse body = .error cause ↔ Flawed (Text.words body) cause := by
  refine ⟨fun h => ?_, parse_of_flawed rfl⟩
  rcases hwords : Text.words body with _ | ⟨name, _ | ⟨text, _ | ⟨surplus, more⟩⟩⟩
  · simp [parse, hwords] at h
  · rw [parse_of_one_word hwords] at h
    exact flawed_of_ofParts h
  · rw [parse_of_two_words hwords] at h
    exact flawed_of_ofParts h
  · simp only [parse, hwords, Except.error.injEq] at h
    rw [← h]
    exact .surplus

end Statement

/-! ## Lines -/

namespace Line

/-- The label of a line, whatever else is wrong with the line. -/
def label? (line : List Char) : Option String := (split line).toOption.bind Prod.fst

/-- One word in front of the first colon of a line is the line's label, in its capital form. -/
theorem split_of_words {line front body : List Char} {comment : Option (List Char)}
    (hcomment : Text.Divides ';' line (front ++ ':' :: body) comment) (hcolon : ':' ∉ front)
    {name : List Char} (hname : Text.words front = [name]) :
    split line = .ok (some (String.ofList (Text.capitals name)), Text.trimEnd body) := by
  obtain ⟨rfl, htoken⟩ := Text.words_eq_singleton_iff.1 hname
  rw [split_of_colon hcomment hcolon, isToken_iff_capitals.1 htoken]
  rfl

/-- Anything but one word in front of the first colon of a line is a bad label. -/
theorem split_of_no_word {line front body : List Char} {comment : Option (List Char)}
    (hcomment : Text.Divides ';' line (front ++ ':' :: body) comment) (hcolon : ':' ∉ front)
    (hname : ∀ name, Text.words front ≠ [name]) :
    split line = .error (.badLabel (String.ofList (Text.capitals (Text.trim front)))) := by
  have hrefused : ((Text.capitals (Text.trim front)).isEmpty ||
      (Text.capitals (Text.trim front)).any Text.isBlank) = true := by
    by_contra hfree
    have htoken := isToken_iff_capitals.2 (Bool.not_eq_true _ ▸ hfree)
    exact hname _ (Text.words_eq_singleton_iff.2 ⟨rfl, htoken⟩)
  rw [split_of_colon hcomment hcolon, if_pos hrefused]

/-- A line has a flaw just when it cannot be split, its label is taken, or its body cannot be
read; the first of these counts. -/
theorem flawed_iff {taken : List String} {line : List Char} {flaw : Flaw} :
    Flawed taken line flaw ↔
      (∃ cause, split line = .error cause ∧ flaw = .unread (.malformed cause)) ∨
        ∃ label body, split line = .ok (label, body) ∧
          ((∃ name ∈ label, name ∈ taken ∧ flaw = .taken name) ∨
            (∀ name ∈ label, name ∉ taken) ∧
              ∃ cause, Statement.parse body = .error cause ∧ flaw = .unread cause) := by
  constructor
  · intro h
    cases h with
    | label hcomment hcolon hname =>
      cases hcolon with
      | marked hfront => exact .inl ⟨_, split_of_no_word hcomment hfront hname, rfl⟩
    | taken hcomment hcolon hname htaken =>
      cases hcolon with
      | marked hfront =>
        exact .inr ⟨_, _, split_of_words hcomment hfront hname, .inl ⟨_, rfl, htaken, rfl⟩⟩
    | @bare code _ cause hcomment hcolon hbody =>
      have hparse : Statement.parse (Text.trim code) = .error cause := by
        rwa [Statement.parse_eq_error_iff, Text.words_trim]
      exact .inr ⟨_, _, split_of_bare hcomment hcolon,
        .inr ⟨fun _ hname => (nomatch hname), cause, hparse, rfl⟩⟩
    | @labelled _ _ body name _ cause hcomment hcolon hname hfree hbody =>
      cases hcolon with
      | marked hfront =>
        have hparse : Statement.parse (Text.trimEnd body) = .error cause := by
          rwa [Statement.parse_eq_error_iff, Text.words_trimEnd]
        refine .inr ⟨_, _, split_of_words hcomment hfront hname, .inr ⟨?_, cause, hparse, rfl⟩⟩
        rintro _ ⟨⟩
        exact hfree
  · intro h
    -- The line is divided first: whether it has a colon, and one word before it, leaves one rule.
    obtain ⟨code, comment, hcomment⟩ := Text.exists_divides ';' line
    obtain ⟨front, rest, hcolon⟩ := Text.exists_divides ':' code
    cases hcolon with
    | whole hnone =>
      rw [split_of_bare hcomment hnone] at h
      rcases h with ⟨_, hsplit, -⟩ | ⟨label, body, hsplit, h⟩
      · cases hsplit
      · cases hsplit
        rcases h with ⟨_, hname, -⟩ | ⟨-, cause, hparse, rfl⟩
        · cases hname
        · rw [Statement.parse_eq_error_iff, Text.words_trim] at hparse
          exact .bare hcomment hnone hparse
    | @marked _ rest hfront =>
      by_cases hword : ∃ name, Text.words front = [name]
      · obtain ⟨name, hname⟩ := hword
        rw [split_of_words hcomment hfront hname] at h
        rcases h with ⟨_, hsplit, -⟩ | ⟨label, body, hsplit, h⟩
        · cases hsplit
        · cases hsplit
          rcases h with ⟨_, ⟨⟩, htaken, rfl⟩ | ⟨hfree, cause, hparse, rfl⟩
          · exact .taken hcomment (.marked hfront) hname htaken
          · rw [Statement.parse_eq_error_iff, Text.words_trimEnd] at hparse
            exact .labelled hcomment (.marked hfront) hname (hfree _ rfl) hparse
      · rw [split_of_no_word hcomment hfront (not_exists.1 hword)] at h
        rcases h with ⟨_, hsplit, rfl⟩ | ⟨label, body, hsplit, -⟩
        · cases hsplit
          exact .label hcomment (.marked hfront) (not_exists.1 hword)
        · cases hsplit

/-- Neither the comment of a line nor the blanks at its ends matter. -/
theorem split_congr {line line' : List Char} (h : code line = code line') :
    split line = split line' := by
  simp only [split, h]

/-- Whether a line has a flaw is up to its code. -/
theorem Flawed.congr {taken : List String} {line line' : List Char} {flaw : Flaw}
    (hcode : code line = code line') (h : Flawed taken line flaw) : Flawed taken line' flaw := by
  rw [flawed_iff, ← split_congr hcode]
  exact flawed_iff.1 h

/-- A line has one flaw at most. -/
theorem Flawed.unique {taken : List String} {line : List Char} {flaw other : Flaw}
    (h : Flawed taken line flaw) (hother : Flawed taken line other) : flaw = other := by
  rw [flawed_iff] at h hother
  cases hsplit : split line with
  | error cause =>
    simp only [hsplit, Except.error.injEq, exists_eq_left', reduceCtorEq, false_and, exists_false,
      or_false] at h hother
    rw [h, hother]
  | ok parts =>
    obtain ⟨label, body⟩ := parts
    simp only [hsplit, reduceCtorEq, false_and, exists_false, false_or, Except.ok.injEq,
      Prod.mk.injEq] at h hother
    obtain ⟨_, _, ⟨rfl, rfl⟩, h⟩ := h
    obtain ⟨_, _, ⟨rfl, rfl⟩, hother⟩ := hother
    rcases h with ⟨name, hname, htaken, rfl⟩ | ⟨hfree, cause, hparse, rfl⟩ <;>
      rcases hother with ⟨name', hname', htaken', rfl⟩ | ⟨hfree', cause', hparse', rfl⟩
    · rw [Option.mem_unique hname hname']
    · exact absurd htaken (hfree' name hname)
    · exact absurd htaken' (hfree name' hname')
    · rw [hparse] at hparse'
      rw [Except.error.inj hparse']

end Line

end TernaryMachine
