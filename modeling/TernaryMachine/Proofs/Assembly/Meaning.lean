import Mathlib.Algebra.Ring.Nat
import Mathlib.Data.List.Forall2
import TernaryMachine.Assembly.Assemble
import TernaryMachine.Proofs.Assembly.Grammar

/-!
# The meaning of assembly text

What a text stands for can be said without passes, drafts and tables.  Each line is a clause: a
label, if it has one, and a statement.  The address of a label is the number of words that the
clauses in front of its own emit (`addressOf`), so it is known before any word is, and a text means
the words of its clauses in a row (`emitted`).

The two passes agree with that.  `draft_eq_ok_iff` says what the first pass leaves of a row of
lines, `lookup_symbolsFrom` that the table it collects holds the addresses, and `resolve_eq_ok_iff`
what the second pass makes of the slots.
-/

set_option autoImplicit false

namespace TernaryMachine

/-- The label that an operand names. -/
def Operand.name? : Operand → Option String
  | literal _ => none
  | label name => some name

/-- The operand of a statement, whether of an instruction or of data. -/
def Statement.operand? : Statement → Option Operand
  | nothing => none
  | datum operand => some operand
  | plain _ => none
  | withOperand _ operand => some operand

/-- The word of an operand, given the addresses of the labels. -/
def Operand.word (address : String → Nat) : Operand → Word
  | literal w => w
  | label name => Int64.ofNat (address name)

/-- The words of a statement, given the addresses of the labels. -/
def Statement.emit (address : String → Nat) : Statement → List Word
  | nothing => []
  | datum operand => [operand.word address]
  | plain op => [op.encode]
  | withOperand op operand => [op.encode, operand.word address]

namespace Assembly

/-- What a line stands for. -/
structure Clause where
  /-- The label that the line defines. -/
  label : Option String
  /-- What it asks for besides. -/
  statement : Statement

/-- The labels that clauses define, in order. -/
def defined (clauses : List Clause) : List String := clauses.filterMap Clause.label

/-- The labels that clauses use, in order. -/
def used (clauses : List Clause) : List String :=
  clauses.filterMap fun clause => clause.statement.operand?.bind Operand.name?

/-- The clauses before the one that defines a label. -/
def before (clauses : List Clause) (name : String) : List Clause :=
  clauses.takeWhile fun clause => clause.label != some name

/-- The address of a label: the widths of the clauses before its own, added up. -/
def addressOf (clauses : List Clause) (name : String) : Nat :=
  ((before clauses name).map fun clause => clause.statement.width).sum

/-- The words of clauses, one after the other. -/
def emitted (clauses : List Clause) : List Word :=
  clauses.flatMap fun clause => clause.statement.emit (addressOf clauses)

/-- The clauses that lines stand for, one for each line. -/
def Spell (lines : List (List Char)) (clauses : List Clause) : Prop :=
  List.Forall₂ (fun line clause => Line.Spells line clause.label clause.statement) lines clauses

/-! ## The first pass -/

/-- The entry of a clause at an address in the table of labels. -/
def Clause.entry (clause : Clause) (address : Nat) : Symbols :=
  (clause.label.map fun name => (name, address)).toList

/-- The table of labels of clauses from an address on, in the order of the clauses. -/
def symbolsFrom (address : Nat) : List Clause → Symbols
  | [] => []
  | clause :: rest =>
    clause.entry address ++ symbolsFrom (address + clause.statement.width) rest

/-- The slots of clauses from a line on. -/
def slotsFrom (number : Nat) : List Clause → List Slot
  | [] => []
  | clause :: rest => Slot.ofStatement number clause.statement ++ slotsFrom (number + 1) rest

/-- No label is defined twice, or is in the table already. -/
def Fresh (symbols : Symbols) (clauses : List Clause) : Prop :=
  (defined clauses).Nodup ∧ ∀ name ∈ defined clauses, symbols.lookup name = none

/-- A label is entered just when it is new, and in front of the others; without a label nothing is
entered. -/
theorem define_eq_ok_iff {symbols symbols' : Symbols} {number address : Nat}
    {label : Option String} :
    define symbols number address label = .ok symbols' ↔
      (∀ name ∈ label, symbols.lookup name = none) ∧
        (label.map fun name => (name, address)).toList ++ symbols = symbols' := by
  cases label with
  | none => simp [define]
  | some name =>
    cases hlookup : symbols.lookup name with
    | none => simp only [define, hlookup, Except.ok.injEq, Option.mem_def, Option.some.injEq,
        forall_eq', true_and, Option.map_some, Option.toList_some, List.singleton_append]
    | some found => simp only [define, hlookup, reduceCtorEq, Option.mem_def, Option.some.injEq,
        forall_eq', false_and]

/-- A line is read just when it spells a clause whose label is new, and what it leaves is the
clause's entry and slots. -/
theorem readLine_eq_ok_iff {symbols symbols' : Symbols} {number address : Nat} {line : List Char}
    {slots : List Slot} :
    readLine symbols number address line = .ok (symbols', slots) ↔
      ∃ clause : Clause, Line.Spells line clause.label clause.statement ∧
        (∀ name ∈ clause.label, symbols.lookup name = none) ∧
        clause.entry address ++ symbols = symbols' ∧
        Slot.ofStatement number clause.statement = slots := by
  constructor
  · intro h
    unfold readLine at h
    split at h
    · cases h
    · next label body hsplit =>
      split at h
      · cases h
      · next symbols'' hdefine =>
        split at h
        · cases h
        · next statement hparse =>
          cases h
          obtain ⟨hfresh, hsymbols⟩ := define_eq_ok_iff.1 hdefine
          have hline := Line.spells_iff.2 ⟨body, hsplit, hparse⟩
          exact ⟨⟨label, statement⟩, hline, hfresh, hsymbols, rfl⟩
  · rintro ⟨clause, hline, hfresh, hsymbols, hslots⟩
    obtain ⟨body, hsplit, hparse⟩ := Line.spells_iff.1 hline
    have hdefine : define symbols number address clause.label = .ok symbols' :=
      define_eq_ok_iff.2 ⟨hfresh, hsymbols⟩
    simp only [readLine, hsplit, hdefine, hparse, hslots]

/-- The first pass goes over a line and then, as many words further, over the rest. -/
theorem draft_cons_eq_ok_iff {symbols symbols' : Symbols} {number address : Nat} {line : List Char}
    {rest : List (List Char)} {slots : List Slot} :
    draft symbols number address (line :: rest) = .ok (symbols', slots) ↔
      ∃ middle front back, readLine symbols number address line = .ok (middle, front) ∧
        draft middle (number + 1) (address + front.length) rest = .ok (symbols', back) ∧
        front ++ back = slots := by
  cases hline : readLine symbols number address line with
  | error e => simp [draft, hline]
  | ok read =>
    obtain ⟨middle, front⟩ := read
    cases hrest : draft middle (number + 1) (address + front.length) rest with
    | error e => simp [draft, hline, hrest, Except.map]
    | ok last => simp [draft, hline, hrest, Except.map, Prod.ext_iff]

/-- A name is new behind an entry just when it is not the entry's and was new before. -/
theorem lookup_cons_eq_none_iff {symbols : Symbols} {name label : String} {address : Nat} :
    ((label, address) :: symbols).lookup name = none ↔
      name ≠ label ∧ symbols.lookup name = none := by
  rw [List.lookup_cons]
  cases hsame : name == label with
  | true => simp [beq_iff_eq.1 hsame]
  | false => simp only [beq_eq_false_iff_ne.1 hsame, Ne, not_false_eq_true, true_and]

/-- Whether the labels are new may be found out from the front. -/
theorem fresh_cons_iff (address : Nat) {symbols : Symbols} {clause : Clause}
    {rest : List Clause} :
    Fresh symbols (clause :: rest) ↔
      (∀ name ∈ clause.label, symbols.lookup name = none) ∧
        Fresh (clause.entry address ++ symbols) rest := by
  obtain ⟨label, statement⟩ := clause
  cases label with
  | none => simp [Fresh, defined, Clause.entry]
  | some first =>
    have hdefined : defined (⟨some first, statement⟩ :: rest) = first :: defined rest := rfl
    simp only [Fresh, hdefined, Clause.entry, Option.map_some, Option.toList_some,
      List.singleton_append, List.nodup_cons, List.forall_mem_cons, lookup_cons_eq_none_iff,
      Option.mem_def, Option.some.injEq, forall_eq']
    constructor
    · rintro ⟨⟨hfirst, hnodup⟩, hnew, hrest⟩
      refine ⟨hnew, hnodup, fun name hname => ⟨?_, hrest name hname⟩⟩
      rintro rfl
      exact hfirst hname
    · rintro ⟨hnew, hnodup, hrest⟩
      exact ⟨⟨fun hfirst => (hrest first hfirst).1 rfl, hnodup⟩, hnew,
        fun name hname => (hrest name hname).2⟩

/-- A clause makes at most one entry, which is its own reverse. -/
theorem reverse_entry (clause : Clause) (address : Nat) :
    (clause.entry address).reverse = clause.entry address := by
  unfold Clause.entry
  cases clause.label <;> rfl

/-- The first pass succeeds just when all lines are well formed and no label is defined twice, and
it leaves the table and the slots of their clauses. -/
theorem draft_eq_ok_iff {symbols symbols' : Symbols} {number address : Nat}
    {lines : List (List Char)} {slots : List Slot} :
    draft symbols number address lines = .ok (symbols', slots) ↔
      ∃ clauses, Spell lines clauses ∧ Fresh symbols clauses ∧
        (symbolsFrom address clauses).reverse ++ symbols = symbols' ∧
        slotsFrom number clauses = slots := by
  induction lines generalizing symbols number address slots with
  | nil =>
    constructor
    · intro h
      cases h
      exact ⟨[], .nil, ⟨List.nodup_nil, List.forall_mem_nil _⟩, rfl, rfl⟩
    · rintro ⟨clauses, hspell, -, hsymbols, hslots⟩
      cases hspell
      rw [← hsymbols, ← hslots]
      rfl
  | cons line lines ih =>
    rw [draft_cons_eq_ok_iff]
    constructor
    · rintro ⟨middle, front, back, hline, hrest, rfl⟩
      obtain ⟨clause, hspells, hnew, rfl, rfl⟩ := readLine_eq_ok_iff.1 hline
      obtain ⟨clauses, hspell, hfresh, rfl, rfl⟩ := ih.1 hrest
      have hall := (fresh_cons_iff address).2 ⟨hnew, hfresh⟩
      refine ⟨clause :: clauses, .cons hspells hspell, hall, ?_, rfl⟩
      rw [symbolsFrom, List.reverse_append, reverse_entry, List.append_assoc, length_ofStatement]
    · rintro ⟨clauses, hspell, hfresh, hsymbols, hslots⟩
      cases hspell with
      | @cons _ clause _ rest hspells hspell =>
        obtain ⟨hnew, hfresh⟩ := (fresh_cons_iff address).1 hfresh
        rw [symbolsFrom, List.reverse_append, reverse_entry, List.append_assoc] at hsymbols
        refine ⟨_, _, slotsFrom (number + 1) rest,
          readLine_eq_ok_iff.2 ⟨clause, hspells, hnew, rfl, rfl⟩, ?_, hslots⟩
        rw [length_ofStatement]
        exact ih.2 ⟨rest, hspell, hfresh, hsymbols, rfl⟩

/-! ## The table of labels -/

/-- The names in the symbols of clauses are those that the clauses define. -/
theorem map_fst_symbolsFrom (address : Nat) (clauses : List Clause) :
    (symbolsFrom address clauses).map Prod.fst = defined clauses := by
  induction clauses generalizing address with
  | nil => rfl
  | cons clause rest ih =>
    have hrest := ih (address + clause.statement.width)
    obtain ⟨label, statement⟩ := clause
    cases label with
    | none => exact hrest
    | some name => exact congrArg (name :: ·) hrest

/-- A clause with another label moves an address on by the clause's width. -/
theorem addressOf_cons_of_ne {clause : Clause} {name : String} (h : clause.label ≠ some name)
    (rest : List Clause) :
    addressOf (clause :: rest) name = clause.statement.width + addressOf rest name := by
  have hkeep : (clause.label != some name) = true := bne_iff_ne.2 h
  simp only [addressOf, before, List.takeWhile_cons, hkeep, if_true, List.map_cons, List.sum_cons]

/-- A label of the first clause has the address zero. -/
theorem addressOf_cons_self {clause : Clause} {name : String} (h : clause.label = some name)
    (rest : List Clause) : addressOf (clause :: rest) name = 0 := by
  have hstop : (clause.label != some name) = false := by simp [h]
  simp only [addressOf, before, List.takeWhile_cons, hstop, Bool.false_eq_true, if_false,
    List.map_nil, List.sum_nil]

/-- The table has the addresses. -/
theorem eq_addressOf_of_mem {clauses : List Clause} {name : String} {address a : Nat}
    (hnodup : (defined clauses).Nodup) (h : (name, a) ∈ symbolsFrom address clauses) :
    a = address + addressOf clauses name := by
  induction clauses generalizing address with
  | nil => cases h
  | cons clause rest ih =>
    have hkeys := map_fst_symbolsFrom (address + clause.statement.width) rest
    rw [symbolsFrom, List.mem_append] at h
    cases hlabel : clause.label with
    | none =>
      have hrest : (name, a) ∈ symbolsFrom (address + clause.statement.width) rest := by
        simpa [Clause.entry, hlabel] using h
      have hsame : defined (clause :: rest) = defined rest := List.filterMap_cons_none hlabel
      rw [addressOf_cons_of_ne (by simp [hlabel]), ih (hsame ▸ hnodup) hrest, Nat.add_assoc]
    | some first =>
      have hdefined : defined (clause :: rest) = first :: defined rest :=
        List.filterMap_cons_some hlabel
      rw [hdefined, List.nodup_cons] at hnodup
      rcases h with hfirst | hrest
      · have hentry : name = first ∧ a = address := by
          simpa [Clause.entry, hlabel] using hfirst
        have hself : clause.label = some name := hlabel.trans (congrArg some hentry.1.symm)
        rw [addressOf_cons_self hself, hentry.2, Nat.add_zero]
      · have hmem : name ∈ defined rest := hkeys ▸ List.mem_map_of_mem hrest
        have hne : clause.label ≠ some name := by
          rw [hlabel]
          rintro ⟨⟩
          exact hnodup.1 hmem
        rw [addressOf_cons_of_ne hne, ih hnodup.2 hrest, Nat.add_assoc]

/-- Where no label is defined twice, the symbols hold the addresses of the labels. -/
theorem addressOf_of_lookup {clauses : List Clause} {name : String} {a : Nat}
    (hnodup : (defined clauses).Nodup)
    (h : (symbolsFrom 0 clauses).reverse.lookup name = some a) : addressOf clauses name = a := by
  obtain ⟨front, back, hsplit, -⟩ := List.lookup_eq_some_iff.1 h
  have hmem : (name, a) ∈ (symbolsFrom 0 clauses).reverse := by simp [hsplit]
  have haddress := eq_addressOf_of_mem hnodup (List.mem_reverse.1 hmem)
  rw [haddress, Nat.zero_add]

/-- The symbols hold just the names that the clauses define. -/
theorem isSome_lookup_iff {clauses : List Clause} {name : String} :
    ((symbolsFrom 0 clauses).reverse.lookup name).isSome = true ↔ name ∈ defined clauses := by
  rw [List.lookup_isSome_iff, ← map_fst_symbolsFrom 0 clauses]
  constructor
  · rintro ⟨entry, hentry, hname⟩
    rw [beq_iff_eq.1 hname]
    exact List.mem_map_of_mem (List.mem_reverse.1 hentry)
  · intro h
    obtain ⟨entry, hentry, rfl⟩ := List.mem_map.1 h
    exact ⟨entry, List.mem_reverse.2 hentry, beq_self_eq_true _⟩

/-! ## The second pass -/

/-- The label that a slot waits for. -/
def Slot.name? : Slot → Option String
  | word _ => none
  | reference name _ => some name

/-- The word of a slot, given the addresses of the labels. -/
def Slot.value (address : String → Nat) : Slot → Word
  | word w => w
  | reference name _ => Int64.ofNat (address name)

/-- Slots are resolved one by one. -/
theorem resolve_cons_eq_ok_iff {symbols : Symbols} {slot : Slot} {rest : List Slot}
    {words : List Word} :
    resolve symbols (slot :: rest) = .ok words ↔
      ∃ w more, slot.resolve symbols = .ok w ∧ resolve symbols rest = .ok more ∧
        w :: more = words := by
  cases hslot : slot.resolve symbols with
  | error e => simp [resolve, hslot]
  | ok w => cases hrest : resolve symbols rest <;> simp [resolve, hslot, hrest, Except.map]

/-- A slot is resolved just when the symbols hold the name in it, and then to the address of the
name. -/
theorem resolve_slot_eq_ok_iff {symbols : Symbols} {address : String → Nat}
    (haddress : ∀ name a, symbols.lookup name = some a → address name = a) {slot : Slot}
    {w : Word} :
    slot.resolve symbols = .ok w ↔
      (∀ name ∈ slot.name?, (symbols.lookup name).isSome = true) ∧ slot.value address = w := by
  cases slot with
  | word v => simp [Slot.resolve, Slot.name?, Slot.value]
  | reference name line =>
    cases hlookup : symbols.lookup name with
    | none => simp only [Slot.resolve, hlookup, Slot.name?, reduceCtorEq, Option.mem_def,
        Option.some.injEq, forall_eq', Option.isSome_none, Bool.false_eq_true, false_and]
    | some a => simp only [Slot.resolve, hlookup, Slot.name?, Slot.value, haddress name a hlookup,
        Except.ok.injEq, Option.mem_def, Option.some.injEq, forall_eq', Option.isSome_some,
        true_and]

/-- The second pass succeeds just when the table has every label that a slot waits for. -/
theorem resolve_eq_ok_iff {symbols : Symbols} {address : String → Nat}
    (haddress : ∀ name a, symbols.lookup name = some a → address name = a) {slots : List Slot}
    {words : List Word} :
    resolve symbols slots = .ok words ↔
      (∀ slot ∈ slots, ∀ name ∈ slot.name?, (symbols.lookup name).isSome = true) ∧
        slots.map (Slot.value address) = words := by
  induction slots generalizing words with
  | nil => simp [resolve]
  | cons slot rest ih =>
    rw [resolve_cons_eq_ok_iff, List.forall_mem_cons, List.map_cons]
    constructor
    · rintro ⟨w, more, hslot, hrest, rfl⟩
      obtain ⟨hname, rfl⟩ := (resolve_slot_eq_ok_iff haddress).1 hslot
      obtain ⟨hmore, rfl⟩ := ih.1 hrest
      exact ⟨⟨hname, hmore⟩, rfl⟩
    · rintro ⟨⟨hname, hmore⟩, rfl⟩
      exact ⟨_, _, (resolve_slot_eq_ok_iff haddress).2 ⟨hname, rfl⟩, ih.2 ⟨hmore, rfl⟩, rfl⟩

/-- The name in the slots of a statement is its operand's. -/
theorem filterMap_ofStatement (number : Nat) (statement : Statement) :
    (Slot.ofStatement number statement).filterMap Slot.name? =
      (statement.operand?.bind Operand.name?).toList := by
  cases statement with
  | nothing => rfl
  | datum operand => cases operand <;> rfl
  | plain op => rfl
  | withOperand op operand => cases operand <;> rfl

/-- The slots of a statement have the words that it emits as their values. -/
theorem map_value_ofStatement (address : String → Nat) (number : Nat) (statement : Statement) :
    (Slot.ofStatement number statement).map (Slot.value address) = statement.emit address := by
  cases statement with
  | nothing => rfl
  | datum operand => cases operand <;> rfl
  | plain op => rfl
  | withOperand op operand => cases operand <;> rfl

/-- The names in the slots of clauses are those that the clauses use. -/
theorem filterMap_slotsFrom (number : Nat) (clauses : List Clause) :
    (slotsFrom number clauses).filterMap Slot.name? = used clauses := by
  induction clauses generalizing number with
  | nil => rfl
  | cons clause rest ih =>
    rw [slotsFrom, List.filterMap_append, filterMap_ofStatement, ih, used, used,
      List.filterMap_cons]
    cases clause.statement.operand?.bind Operand.name? <;> rfl

/-- The slots of clauses have the words that the clauses emit as their values. -/
theorem map_value_slotsFrom (address : String → Nat) (number : Nat) (clauses : List Clause) :
    (slotsFrom number clauses).map (Slot.value address) =
      clauses.flatMap fun clause => clause.statement.emit address := by
  induction clauses generalizing number with
  | nil => rfl
  | cons clause rest ih =>
    rw [slotsFrom, List.map_append, map_value_ofStatement, ih, List.flatMap_cons]

/-- What assembling makes of lines whose clauses are known. -/
theorem resolve_slotsFrom_eq_ok_iff {clauses : List Clause} (hnodup : (defined clauses).Nodup)
    {words : List Word} :
    resolve (symbolsFrom 0 clauses).reverse (slotsFrom 1 clauses) = .ok words ↔
      (∀ name ∈ used clauses, name ∈ defined clauses) ∧ emitted clauses = words := by
  rw [resolve_eq_ok_iff fun name a => addressOf_of_lookup hnodup, map_value_slotsFrom,
    ← filterMap_slotsFrom 1, List.forall_mem_filterMap]
  simp only [isSome_lookup_iff, emitted, Option.mem_def]

/-- The first pass gets through just when the lines spell clauses that define no label twice. -/
theorem draft_lines_eq_ok_iff {lines : List (List Char)} {symbols : Symbols} {slots : List Slot} :
    draft [] 1 0 lines = .ok (symbols, slots) ↔
      ∃ clauses, Spell lines clauses ∧ (defined clauses).Nodup ∧
        (symbolsFrom 0 clauses).reverse = symbols ∧ slotsFrom 1 clauses = slots := by
  have hfresh : ∀ clauses, Fresh [] clauses ↔ (defined clauses).Nodup := fun clauses =>
    ⟨fun h => h.1, fun h => ⟨h, fun _ _ => rfl⟩⟩
  simp only [draft_eq_ok_iff, hfresh, List.append_nil]

/-- A statement emits as many words as it is wide. -/
theorem length_emit (address : String → Nat) (statement : Statement) :
    (statement.emit address).length = statement.width := by
  cases statement <;> rfl

/-- A label has the number of words emitted before it as its address. -/
theorem addressOf_eq_length (clauses : List Clause) (name : String) :
    addressOf clauses name =
      ((before clauses name).flatMap fun clause =>
        clause.statement.emit (addressOf clauses)).length := by
  simp only [List.length_flatMap, length_emit]
  rfl

/-- **A text is assembled to what it means.**  Assembling succeeds just when every line is well
formed on its own, no label is defined twice, and every label that an operand names is defined
somewhere.  The words are those of the lines in a row, where a label stands for the number of words
that the lines in front of its own emit. -/
theorem assemble_eq_ok_iff (source : String) (words : List Word) :
    assemble source = .ok words ↔
      ∃ clauses, Spell (Text.lines source.toList) clauses ∧ (defined clauses).Nodup ∧
        (∀ name ∈ used clauses, name ∈ defined clauses) ∧ emitted clauses = words ∧
        ∀ name, addressOf clauses name =
          ((before clauses name).flatMap fun clause =>
            clause.statement.emit (addressOf clauses)).length := by
  constructor
  · intro h
    unfold assemble at h
    split at h
    · cases h
    · next symbols slots hdraft =>
      obtain ⟨clauses, hspell, hnodup, rfl, rfl⟩ := draft_lines_eq_ok_iff.1 hdraft
      obtain ⟨hused, hwords⟩ := (resolve_slotsFrom_eq_ok_iff hnodup).1 h
      exact ⟨clauses, hspell, hnodup, hused, hwords, addressOf_eq_length clauses⟩
  · rintro ⟨clauses, hspell, hnodup, hused, hwords, -⟩
    have hdraft : draft [] 1 0 (Text.lines source.toList) =
        .ok ((symbolsFrom 0 clauses).reverse, slotsFrom 1 clauses) :=
      draft_lines_eq_ok_iff.2 ⟨clauses, hspell, hnodup, rfl, rfl⟩
    simp only [assemble, hdraft]
    exact (resolve_slotsFrom_eq_ok_iff hnodup).2 ⟨hused, hwords⟩

/-- Labels are used before and behind the lines that define them. -/
example : (assemble "jmp Last ; forward\nfirst: dat 0t+0\n LAST:\n dat first").toOption =
    some [3, 3, 3, 2] := by
  decide +kernel

end Assembly

end TernaryMachine
