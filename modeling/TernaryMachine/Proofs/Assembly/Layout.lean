import TernaryMachine.Proofs.Assembly.Flaw
import TernaryMachine.Proofs.Assembly.Reassembly

/-!
# Comments and blank lines

How an assembly text is laid out makes no difference to what it is assembled to.  Only the code of a
line counts (`assemble_congr`), so a comment behind it changes nothing (`assemble_comment`).  A line
without code can be put in anywhere; only the line numbers behind it move on (`assemble_idle`).

The second is an induction on the lines in front of the new one (`draft_insert`).  Behind it the
first pass runs over the same lines with other numbers (`draft_pushed`), and both inductions take
their step in the same way (`draft_cons_renumbered`).
-/

set_option autoImplicit false

namespace TernaryMachine

/-- The lines of a text as an editor counts them: a line feed ends a line, so nothing stands behind
the last one. -/
def Text.rows (s : List Char) : List (List Char) :=
  if (Text.lines s).getLast? = some [] then (Text.lines s).dropLast else Text.lines s

/-- A line with nothing on it but blanks and a comment. -/
def Line.Idle (line : List Char) : Prop :=
  ∀ c ∈ line.takeWhile (· != ';'), Text.isBlank c = true

instance (line : List Char) : Decidable (Line.Idle line) :=
  decidable_of_iff ((line.takeWhile (· != ';')).all Text.isBlank = true) List.all_eq_true

/-- The kinds of assembly errors. -/
inductive AssemblyErrorKind where
  | malformed
  | unknownMnemonic
  | undefinedLabel
  | duplicateLabel
  deriving DecidableEq, Repr

namespace AssemblyError

/-- The kind of an error, without the line and what is said about it. -/
def kind : AssemblyError → AssemblyErrorKind
  | malformed _ _ => .malformed
  | unknownMnemonic _ _ => .unknownMnemonic
  | undefinedLabel _ _ => .undefinedLabel
  | duplicateLabel _ _ => .duplicateLabel

/-- The same error on another line. -/
def renumber (place : Nat → Nat) : AssemblyError → AssemblyError
  | malformed line cause => malformed (place line) cause
  | unknownMnemonic line name => unknownMnemonic (place line) name
  | undefinedLabel line label => undefinedLabel (place line) label
  | duplicateLabel line label => duplicateLabel (place line) label

/-- Numbering lines anew leaves the kind of an error. -/
@[simp]
theorem kind_renumber (place : Nat → Nat) (e : AssemblyError) :
    (e.renumber place).kind = e.kind := by
  cases e <;> rfl

/-- Numbering lines anew moves the line of an error. -/
@[simp]
theorem line_renumber (place : Nat → Nat) (e : AssemblyError) :
    (e.renumber place).line = place e.line := by
  cases e <;> rfl

end AssemblyError

/-! ## Code -/

namespace Line

/-- An idle line has no code. -/
theorem code_eq_nil_of_idle {line : List Char} (h : Idle line) : code line = [] := by
  have hstart : Text.trimStart (line.takeWhile (· != ';')) = [] := List.dropWhile_eq_nil_iff.2 h
  rw [code, Text.trim, hstart]
  rfl

/-- A comment takes the place of what blanks and comment there were. -/
theorem code_comment {line blanks : List Char} (h : ∀ c ∈ blanks, Text.isBlank c = true)
    (comment : List Char) : code (line ++ ';' :: comment) = code (line ++ blanks) := by
  by_cases hmark : ';' ∈ line
  · obtain ⟨front, back, rfl, hfront⟩ := List.eq_append_cons_of_mem hmark
    rw [List.append_assoc, List.append_assoc, List.cons_append, List.cons_append,
      code_of_comment hfront, code_of_comment hfront]
  · have hblanks : ';' ∉ line ++ blanks := by
      intro hmem
      rcases List.mem_append.1 hmem with hline | hblank
      · exact hmark hline
      · exact absurd (h _ hblank) (by decide)
    rw [code_of_comment hmark, code_of_divides (.whole hblanks), Text.trim_append_of_blanks h]

end Line

namespace Assembly

/-- Two results of assembling come to the same: they are the same words, or errors of one kind, the
second on the line that the place of the first stands for. -/
inductive Alike (place : Nat → Nat) :
    Except AssemblyError (List Word) → Except AssemblyError (List Word) → Prop where
  | words (words : List Word) : Alike place (.ok words) (.ok words)
  | errors {e e' : AssemblyError} (hkind : e'.kind = e.kind) (hline : e'.line = place e.line) :
      Alike place (.error e) (.error e')

/-- A change of the error that keeps its kind and moves its line leaves a result alike. -/
theorem alike_mapError {place : Nat → Nat} {change : AssemblyError → AssemblyError}
    (hkind : ∀ e, (change e).kind = e.kind) (hline : ∀ e, (change e).line = place e.line)
    (result : Except AssemblyError (List Word)) : Alike place result (result.mapError change) := by
  cases result with
  | ok words => exact .words words
  | error e => exact .errors (hkind e) (hline e)

/-- A line is read by its code alone. -/
theorem readLine_congr {line line' : List Char} (h : Line.code line = Line.code line')
    (symbols : Symbols) (number address : Nat) :
    readLine symbols number address line = readLine symbols number address line' := by
  rw [readLine, readLine, Line.split_congr h]

/-- A first line can be exchanged for one with the same code. -/
theorem draft_cons_congr {line line' : List Char} {rest rest' : List (List Char)}
    (hline : Line.code line = Line.code line')
    (hrest : ∀ (symbols : Symbols) (number address : Nat),
      draft symbols number address rest = draft symbols number address rest')
    (symbols : Symbols) (number address : Nat) :
    draft symbols number address (line :: rest) =
      draft symbols number address (line' :: rest') := by
  rw [draft, draft, readLine_congr hline]
  cases readLine symbols number address line' with
  | error e => rfl
  | ok read => simp only [hrest]

/-- The first pass sees nothing of a line but its code. -/
theorem draft_congr {lines lines' : List (List Char)}
    (h : lines.map Line.code = lines'.map Line.code) (symbols : Symbols) (number address : Nat) :
    draft symbols number address lines = draft symbols number address lines' := by
  induction lines generalizing lines' symbols number address with
  | nil =>
    obtain rfl := List.map_eq_nil_iff.1 h.symm
    rfl
  | cons line lines ih =>
    obtain ⟨line', rest, rfl, hline, hrest⟩ := List.map_eq_cons_iff.1 h.symm
    exact draft_cons_congr hline.symm (ih hrest.symm) symbols number address

/-- An empty line at the end adds nothing to the draft. -/
theorem draft_concat_nil (lines : List (List Char)) (symbols : Symbols) (number address : Nat) :
    draft symbols number address (lines ++ [[]]) = draft symbols number address lines := by
  induction lines generalizing symbols number address with
  | nil => exact draft_of_no_code rfl symbols number address []
  | cons line lines ih => exact draft_cons_congr rfl ih symbols number address

/-- Assembling goes over the rows of a text. -/
theorem assemble_eq (source : String) :
    assemble source =
      match draft [] 1 0 (Text.rows source.toList) with
      | .error e => .error e
      | .ok (symbols, slots) => resolve symbols slots := by
  have hrows : draft [] 1 0 (Text.lines source.toList) =
      draft [] 1 0 (Text.rows source.toList) := by
    unfold Text.rows
    split
    · next hlast =>
      obtain ⟨front, hfront⟩ := List.getLast?_eq_some_iff.1 hlast
      rw [hfront, List.dropLast_concat, draft_concat_nil]
    · rfl
  cases hdraft : draft [] 1 0 (Text.rows source.toList) <;>
    simp only [assemble, hrows, hdraft]

/-- Sources whose lines have the same code are assembled alike. -/
theorem assemble_congr {source changed : String}
    (h : (Text.rows changed.toList).map Line.code = (Text.rows source.toList).map Line.code) :
    assemble changed = assemble source := by
  rw [assemble_eq, assemble_eq, draft_congr h]

/-! ## Comments -/

/-- Text behind a semicolon at the end of a line changes nothing. -/
theorem assemble_comment {source changed : String} {front back : List (List Char)}
    {line blanks comment : List Char}
    (hsource : Text.rows source.toList = front ++ (line ++ blanks) :: back)
    (hblanks : ∀ c ∈ blanks, Text.isBlank c = true)
    (hchanged : Text.rows changed.toList = front ++ (line ++ ';' :: comment) :: back) :
    assemble changed = assemble source := by
  refine assemble_congr ?_
  rw [hsource, hchanged, List.map_append, List.map_append, List.map_cons, List.map_cons,
    Line.code_comment hblanks]

/-! ## Lines without code -/

/-- Where a line stands when one more is put in behind so many. -/
def pushed (k line : Nat) : Nat := if line ≤ k then line else line + 1

/-- The same slot on another line. -/
def Slot.renumber (place : Nat → Nat) : Slot → Slot
  | word w => word w
  | reference label line => reference label (place line)

/-- What the first pass comes to on other lines. -/
def renumbered (place : Nat → Nat) :
    Except AssemblyError (Symbols × List Slot) → Except AssemblyError (Symbols × List Slot)
  | .error e => .error (e.renumber place)
  | .ok (symbols, slots) => .ok (symbols, slots.map (Slot.renumber place))

/-- The slots of a statement move with the line that it stands on. -/
theorem ofStatement_renumber (place : Nat → Nat) (number : Nat) (statement : Statement) :
    Slot.ofStatement (place number) statement =
      (Slot.ofStatement number statement).map (Slot.renumber place) := by
  cases statement with
  | nothing => rfl
  | datum operand => cases operand <;> rfl
  | plain op => rfl
  | withOperand op operand => cases operand <;> rfl

/-- The refusal of a label moves with the line that it stands on. -/
theorem define_renumber (place : Nat → Nat) (symbols : Symbols) (number address : Nat)
    (label : Option String) :
    define symbols (place number) address label =
      (define symbols number address label).mapError (AssemblyError.renumber place) := by
  cases label with
  | none => rfl
  | some name => cases hlookup : symbols.lookup name <;> simp only [define, hlookup] <;> rfl

/-- What a line is read as moves with the line's number. -/
theorem readLine_renumber (place : Nat → Nat) (symbols : Symbols) (number address : Nat)
    (line : List Char) :
    readLine symbols (place number) address line =
      renumbered place (readLine symbols number address line) := by
  unfold readLine
  cases Line.split line with
  | error cause => rfl
  | ok parts =>
    obtain ⟨label, body⟩ := parts
    simp only [define_renumber]
    cases define symbols number address label with
    | error e => rfl
    | ok symbols' =>
      cases Statement.parse body with
      | error e => cases e <;> rfl
      | ok statement =>
        simp only [Except.mapError, ofStatement_renumber]
        rfl

/-- One line more in front: it goes to its new place, and so does what the first pass makes of the
lines behind it. -/
theorem draft_cons_renumbered {place : Nat → Nat} {number number' : Nat} {line : List Char}
    {rest rest' : List (List Char)} (hnumber : place number = number')
    (hrest : ∀ (symbols : Symbols) (address : Nat), draft symbols (number' + 1) address rest' =
      renumbered place (draft symbols (number + 1) address rest))
    (symbols : Symbols) (address : Nat) :
    draft symbols number' address (line :: rest') =
      renumbered place (draft symbols number address (line :: rest)) := by
  rw [draft, draft, ← hnumber, readLine_renumber, hnumber]
  cases readLine symbols number address line with
  | error e => rfl
  | ok read =>
    obtain ⟨symbols', slots⟩ := read
    simp only [renumbered, List.length_map, hrest]
    cases draft symbols' (number + 1) (address + slots.length) rest with
    | error e => rfl
    | ok last =>
      simp only [Except.map, List.map_append]

/-- Behind the new line all numbers are one higher. -/
theorem draft_pushed {k : Nat} (lines : List (List Char)) {number : Nat} (h : k < number)
    (symbols : Symbols) (address : Nat) :
    draft symbols (number + 1) address lines =
      renumbered (pushed k) (draft symbols number address lines) := by
  induction lines generalizing symbols number address with
  | nil => rfl
  | cons line lines ih =>
    have hnumber : pushed k number = number + 1 := if_neg (Nat.not_le.2 h)
    exact draft_cons_renumbered hnumber (ih (Nat.lt_succ_of_lt h)) symbols address

/-- An idle line among others moves the lines behind it on by one and changes nothing else. -/
theorem draft_insert {line : List Char} (hline : Line.Idle line) {k : Nat}
    (front back : List (List Char)) {number : Nat} (hk : number + front.length = k + 1)
    (symbols : Symbols) (address : Nat) :
    draft symbols number address (front ++ line :: back) =
      renumbered (pushed k) (draft symbols number address (front ++ back)) := by
  induction front generalizing symbols number address with
  | nil =>
    rw [List.nil_append, List.nil_append, draft_of_no_code (Line.code_eq_nil_of_idle hline)]
    have hbehind : k < number := by
      rw [List.length_nil] at hk
      omega
    exact draft_pushed back hbehind symbols address
  | cons first front ih =>
    rw [List.length_cons] at hk
    have hnumber : pushed k number = number := if_pos (by omega)
    exact draft_cons_renumbered hnumber (ih (by omega)) symbols address

/-- The error of an unresolved reference moves with the line that it stands on. -/
theorem resolve_renumber (place : Nat → Nat) (symbols : Symbols) (slots : List Slot) :
    resolve symbols (slots.map (Slot.renumber place)) =
      (resolve symbols slots).mapError (AssemblyError.renumber place) := by
  induction slots with
  | nil => rfl
  | cons slot slots ih =>
    have hslot : (slot.renumber place).resolve symbols =
        (slot.resolve symbols).mapError (AssemblyError.renumber place) := by
      cases slot with
      | word w => rfl
      | reference label line =>
        cases hlookup : symbols.lookup label <;>
          simp only [Slot.renumber, Slot.resolve, hlookup] <;> rfl
    rw [List.map_cons, resolve, resolve, hslot, ih]
    cases slot.resolve symbols with
    | error e => rfl
    | ok w => cases resolve symbols slots <;> rfl

/-- A line without code only moves the errors behind it on. -/
theorem assemble_idle {source changed : String} {front back : List (List Char)} {line : List Char}
    (hsource : Text.rows source.toList = front ++ back) (hline : Line.Idle line)
    (hchanged : Text.rows changed.toList = front ++ line :: back) :
    assemble changed =
      (assemble source).mapError (AssemblyError.renumber (pushed front.length)) := by
  have hdraft := draft_insert hline front back (Nat.add_comm 1 front.length) [] 0
  rw [assemble_eq, assemble_eq, hchanged, hsource, hdraft]
  cases draft [] 1 0 (front ++ back) with
  | error e => rfl
  | ok draft => exact resolve_renumber (pushed front.length) draft.1 draft.2

end Assembly

end TernaryMachine
