import TernaryMachine.Assembly.Assemble

/-!
# Assembling by patching

An assembler can also write its words down as it reads, with a zero in the place of every label it
does not know yet, and patch these places in the end.  It keeps the words written so far and a list
of places to patch (`Output`).  `assemble_eq_assemblePatched` says that this is assembling with
slots: the words written are the slots with a zero for each reference, the list has a place for each
reference (`pushLines_eq`), and patching them one after the other resolves all slots
(`patch_pendingFrom`).
-/

set_option autoImplicit false

namespace TernaryMachine.Assembly

/-- A place among the words that waits for a label, with the line that asks for it. -/
structure Pending where
  index : Nat
  label : String
  line : Nat
  deriving DecidableEq, Repr

/-- What has been written, and what is to be patched. -/
structure Output where
  words : List Word
  pending : List Pending

namespace Output

/-- The output with the operand of a line behind it. -/
def pushOperand (out : Output) (number : Nat) : Operand → Output
  | .literal w => { out with words := out.words ++ [w] }
  | .label name =>
    ⟨out.words ++ [0], out.pending ++ [⟨out.words.length, name, number⟩]⟩

/-- The output with the statement of a line behind it. -/
def pushStatement (out : Output) (number : Nat) : Statement → Output
  | .nothing => out
  | .datum value => out.pushOperand number value
  | .plain op => { out with words := out.words ++ [op.encode] }
  | .withOperand op value =>
    { out with words := out.words ++ [op.encode] }.pushOperand number value

/-- The symbols and the output after a line; the line stands where the output ends. -/
def pushLine (symbols : Symbols) (out : Output) (number : Nat) (line : List Char) :
    Except AssemblyError (Symbols × Output) :=
  match Line.split line with
  | .error cause => .error (.malformed number cause)
  | .ok (label, body) =>
    match define symbols number out.words.length label with
    | .error e => .error e
    | .ok symbols =>
      match Statement.parse body with
      | .error e => .error (e.atLine number)
      | .ok statement => .ok (symbols, out.pushStatement number statement)

/-- The symbols and the output after lines. -/
def pushLines (symbols : Symbols) (out : Output) (number : Nat) :
    List (List Char) → Except AssemblyError (Symbols × Output)
  | [] => .ok (symbols, out)
  | first :: rest =>
    match pushLine symbols out number first with
    | .error e => .error e
    | .ok (symbols, out) => pushLines symbols out (number + 1) rest

/-- Words with the places patched that wait for a label. -/
def patch (symbols : Symbols) (words : List Word) :
    List Pending → Except AssemblyError (List Word)
  | [] => .ok words
  | place :: rest =>
    match symbols.lookup place.label with
    | some address => patch symbols (words.set place.index (Int64.ofNat address)) rest
    | none => .error (.undefinedLabel place.line place.label)

/-- The words that an assembly text stands for, by patching. -/
def assemblePatched (source : String) : Except AssemblyError (List Word) :=
  match pushLines [] ⟨[], []⟩ 1 (Text.lines source.toList) with
  | .error e => .error e
  | .ok (symbols, out) => patch symbols out.words out.pending

/-! ## Slots and places -/

/-- What is written for a slot at first. -/
def placeholder : Slot → Word
  | .word w => w
  | .reference _ _ => 0

/-- The places of the references among slots, the first of which has the given index. -/
def pendingFrom (start : Nat) : List Slot → List Pending
  | [] => []
  | .word _ :: rest => pendingFrom (start + 1) rest
  | .reference label line :: rest => ⟨start, label, line⟩ :: pendingFrom (start + 1) rest

/-- The output with slots behind it. -/
def pushSlots (out : Output) (more : List Slot) : Output :=
  ⟨out.words ++ more.map placeholder, out.pending ++ pendingFrom out.words.length more⟩

/-- The places of the references in a row of slots and in what follows it. -/
theorem pendingFrom_append (start : Nat) (front back : List Slot) :
    pendingFrom start (front ++ back) =
      pendingFrom start front ++ pendingFrom (start + front.length) back := by
  induction front generalizing start with
  | nil => rfl
  | cons slot rest ih =>
    have hstart : start + (slot :: rest).length = start + 1 + rest.length := by
      rw [List.length_cons]
      omega
    rw [List.cons_append, hstart]
    cases slot <;> simp only [pendingFrom, ih, List.cons_append]

/-- Slots are written one row behind the other. -/
theorem pushSlots_append (out : Output) (front back : List Slot) :
    out.pushSlots (front ++ back) = (out.pushSlots front).pushSlots back := by
  simp [pushSlots, pendingFrom_append]

/-- No slots leave the output as it is. -/
theorem pushSlots_nil (out : Output) : out.pushSlots [] = out := by
  simp [pushSlots, pendingFrom]

/-- Each slot is written as one word. -/
theorem length_pushSlots (out : Output) (more : List Slot) :
    (out.pushSlots more).words.length = out.words.length + more.length := by
  simp [pushSlots]

/-- An operand writes its slot. -/
theorem pushOperand_eq (out : Output) (number : Nat) (value : Operand) :
    out.pushOperand number value = out.pushSlots [Slot.ofOperand number value] := by
  cases value <;> simp [pushOperand, pushSlots, Slot.ofOperand, placeholder, pendingFrom]

/-- A statement writes the slots that it adds. -/
theorem pushStatement_eq (out : Output) (number : Nat) (given : Statement) :
    out.pushStatement number given = out.pushSlots (Slot.ofStatement number given) := by
  cases given with
  | nothing => exact out.pushSlots_nil.symm
  | datum value => exact out.pushOperand_eq number value
  | plain op => simp [pushStatement, pushSlots, Slot.ofStatement, placeholder, pendingFrom]
  | withOperand op value =>
    rw [pushStatement, pushOperand_eq]
    simp [pushSlots, Slot.ofStatement, placeholder, pendingFrom]

/-- A line writes the slots that it adds. -/
theorem pushLine_eq (symbols : Symbols) (out : Output) (number : Nat) (text : List Char) :
    pushLine symbols out number text =
      (readLine symbols number out.words.length text).map fun (symbols, more) =>
        (symbols, out.pushSlots more) := by
  unfold pushLine readLine
  cases Line.split text with
  | error cause => rfl
  | ok parts =>
    obtain ⟨label, body⟩ := parts
    simp only
    cases define symbols number out.words.length label with
    | error e => rfl
    | ok symbols =>
      simp only
      cases Statement.parse body with
      | error e => rfl
      | ok given =>
        simp only [pushStatement_eq]
        rfl

/-- Reading lines writes the slots of their draft. -/
theorem pushLines_eq (symbols : Symbols) (out : Output) (number : Nat) (lines : List (List Char)) :
    pushLines symbols out number lines =
      (draft symbols number out.words.length lines).map fun (symbols, more) =>
        (symbols, out.pushSlots more) := by
  induction lines generalizing symbols out number with
  | nil =>
    show Except.ok (symbols, out) = .ok (symbols, out.pushSlots [])
    rw [pushSlots_nil]
  | cons first rest ih =>
    rw [pushLines, draft, pushLine_eq]
    cases hline : readLine symbols number out.words.length first with
    | error e => rfl
    | ok answer =>
      obtain ⟨symbols, added⟩ := answer
      simp only [Except.map, ih, length_pushSlots]
      cases draft symbols (number + 1) (out.words.length + added.length) rest with
      | error e => rfl
      | ok answer =>
        obtain ⟨symbols, more⟩ := answer
        simp only [pushSlots_append]

/-- Patching the places of references resolves the slots. -/
theorem patch_pendingFrom (symbols : Symbols) (front : List Word) (more : List Slot) :
    patch symbols (front ++ more.map placeholder) (pendingFrom front.length more) =
      (resolve symbols more).map (front ++ ·) := by
  induction more generalizing front with
  | nil => rfl
  | cons slot rest ih =>
    have hrest : ∀ w : Word,
        patch symbols (front ++ w :: rest.map placeholder) (pendingFrom (front.length + 1) rest) =
          ((resolve symbols rest).map (w :: ·)).map (front ++ ·) := by
      intro w
      have hnext := ih (front ++ [w])
      rw [List.length_append, List.length_singleton, List.append_assoc,
        List.singleton_append] at hnext
      rw [hnext]
      cases resolve symbols rest <;> simp [Except.map]
    cases slot with
    | word w => exact hrest w
    | reference label number =>
      rw [pendingFrom, patch, resolve, Slot.resolve]
      cases symbols.lookup label with
      | none => rfl
      | some address =>
        have hset : (front ++ (0 : Word) :: rest.map placeholder).set front.length
            (Int64.ofNat address) = front ++ Int64.ofNat address :: rest.map placeholder := by
          simp
        simp only [List.map_cons, placeholder, hset]
        exact hrest (Int64.ofNat address)

end Output

/-- **Assembling is patching.**  Words with a zero for every label, and the places of these patched
in the end, are the words that the text stands for; where one way refuses a text, so does the other,
for the same reason. -/
theorem assemble_eq_assemblePatched (source : String) :
    assemble source = Output.assemblePatched source := by
  have hlines : Output.pushLines [] ⟨[], []⟩ 1 (Text.lines source.toList) =
      (draft [] 1 0 (Text.lines source.toList)).map fun (symbols, more) =>
        (symbols, Output.pushSlots ⟨[], []⟩ more) :=
    Output.pushLines_eq [] ⟨[], []⟩ 1 _
  rw [assemble, Output.assemblePatched, hlines]
  cases draft [] 1 0 (Text.lines source.toList) with
  | error e => rfl
  | ok answer =>
    obtain ⟨symbols, more⟩ := answer
    have hpatch := Output.patch_pendingFrom symbols [] more
    have hself : (resolve symbols more).map ([] ++ ·) = resolve symbols more := by
      cases resolve symbols more <;> rfl
    exact hself.symm.trans hpatch.symm

end TernaryMachine.Assembly
