import Mathlib.Data.List.Induction
import TernaryMachine.Proofs.Assembly.Flaw
import TernaryMachine.Proofs.Assembly.Meaning

/-!
# Where assembling fails

The error of a text that cannot be assembled is found in the text itself.  A line has a flaw, or has
none, whatever stands behind it (`Flaws`); the error is the flaw of the first line that has one, and
only when no line has, it is the first reference to a label that no line defines (`FirstUndefined`).

The first pass goes on to the first flaw.  That is an induction on the lines from the front
(`draft_spec`): as long as there was no flaw, the table holds just the labels of the lines so far
(`isSome_lookup_draft`), so the next line is refused for its flaw and for nothing else
(`readLine_eq_error_iff`).
-/

set_option autoImplicit false

namespace TernaryMachine.Assembly

/-- The labels of lines, in order. -/
def labels (lines : List (List Char)) : List String := lines.filterMap Line.label?

/-- The line behind so many others has a flaw; the labels of those are taken. -/
def Flaws (lines : List (List Char)) (index : Nat) (flaw : Flaw) : Prop :=
  ∃ line, lines[index]? = some line ∧ Line.Flawed (labels (lines.take index)) line flaw

/-- No line has a flaw. -/
def Sound (lines : List (List Char)) : Prop := ∀ index flaw, ¬ Flaws lines index flaw

/-- The first line that has a flaw, and its only one. -/
structure FirstFlaw (lines : List (List Char)) (index : Nat) (flaw : Flaw) : Prop where
  flaws : Flaws lines index flaw
  only : ∀ other, Flaws lines index other → other = flaw
  lowest : ∀ i < index, ∀ other, ¬ Flaws lines i other

/-- The labels that clauses from a line on use as operands, in order, with the numbers of their
lines. -/
def referencesFrom (number : Nat) : List Clause → List (Nat × String)
  | [] => []
  | clause :: rest =>
    ((clause.statement.operand?.bind Operand.name?).map fun name => (number, name)).toList ++
      referencesFrom (number + 1) rest

/-- The first reference to a label that no line defines. -/
def FirstUndefined (lines : List (List Char)) (number : Nat) (name : String) : Prop :=
  ∃ clauses earlier later, Spell lines clauses ∧
    referencesFrom 1 clauses = earlier ++ (number, name) :: later ∧
    (∀ reference ∈ earlier, reference.2 ∈ defined clauses) ∧ name ∉ defined clauses

/-! ## Flaws of lines -/

/-- A flaw is in one of the lines. -/
theorem Flaws.lt {lines : List (List Char)} {index : Nat} {flaw : Flaw}
    (h : Flaws lines index flaw) : index < lines.length := by
  obtain ⟨line, hline, -⟩ := h
  exact (List.getElem?_eq_some_iff.1 hline).1

/-- A line has at most one flaw. -/
theorem Flaws.unique {lines : List (List Char)} {index : Nat} {flaw other : Flaw}
    (h : Flaws lines index flaw) (hother : Flaws lines index other) : other = flaw := by
  obtain ⟨line, hline, hflawed⟩ := h
  obtain ⟨line', hline', hflawed'⟩ := hother
  obtain rfl := Option.some.inj (hline.symm.trans hline')
  exact hflawed'.unique hflawed

/-- One more line leaves the flaws of the others and has its own beside the labels in front of it.
-/
theorem flaws_concat_iff {lines : List (List Char)} {line : List Char} {index : Nat} {flaw : Flaw} :
    Flaws (lines ++ [line]) index flaw ↔
      Flaws lines index flaw ∨ index = lines.length ∧ Line.Flawed (labels lines) line flaw := by
  rcases Nat.lt_trichotomy index lines.length with hlt | rfl | hgt
  · have hne : index ≠ lines.length := Nat.ne_of_lt hlt
    simp only [Flaws, List.getElem?_append_left hlt, List.take_append_of_le_length hlt.le, hne,
      false_and, or_false]
  · have hnone : ¬ Flaws lines lines.length flaw := fun h => Nat.lt_irrefl _ h.lt
    simp [Flaws] at hnone ⊢
  · have hne : index ≠ lines.length := Nat.ne_of_gt hgt
    have hnone : ¬ Flaws lines index flaw := fun h => Nat.lt_asymm h.lt hgt
    have hnone' : ¬ Flaws (lines ++ [line]) index flaw := fun h => by
      have hlt := h.lt
      rw [List.length_append, List.length_singleton] at hlt
      omega
    simp only [hnone, hnone', hne, false_and, or_false]

/-- The first flaw stays the first with one more line behind. -/
theorem FirstFlaw.concat {lines : List (List Char)} {index : Nat} {flaw : Flaw}
    (h : FirstFlaw lines index flaw) (line : List Char) :
    FirstFlaw (lines ++ [line]) index flaw := by
  have hflaws : Flaws (lines ++ [line]) index flaw := flaws_concat_iff.2 (.inl h.flaws)
  refine ⟨hflaws, fun other => hflaws.unique, fun i hi other hother => ?_⟩
  rcases flaws_concat_iff.1 hother with hother | ⟨rfl, -⟩
  · exact h.lowest i hi other hother
  · exact Nat.lt_asymm hi h.flaws.lt

/-- Behind sound lines, a flaw in one more line is the first. -/
theorem Sound.firstFlaw_concat {lines : List (List Char)} {line : List Char} {flaw : Flaw}
    (h : Sound lines) (hline : Line.Flawed (labels lines) line flaw) :
    FirstFlaw (lines ++ [line]) lines.length flaw := by
  have hflaws : Flaws (lines ++ [line]) lines.length flaw := flaws_concat_iff.2 (.inr ⟨rfl, hline⟩)
  refine ⟨hflaws, fun other => hflaws.unique, fun i hi other hother => ?_⟩
  rcases flaws_concat_iff.1 hother with hother | ⟨rfl, -⟩
  · exact h i other hother
  · exact Nat.lt_irrefl _ hi

/-- Sound lines with one more that has no flaw are sound. -/
theorem Sound.concat {lines : List (List Char)} {line : List Char} (h : Sound lines)
    (hline : ∀ flaw, ¬ Line.Flawed (labels lines) line flaw) : Sound (lines ++ [line]) := by
  intro index flaw hflaws
  rcases flaws_concat_iff.1 hflaws with hflaws | ⟨-, hflawed⟩
  · exact h index flaw hflaws
  · exact hline flaw hflawed

/-- If a line has a flaw, there is a first one. -/
theorem Flaws.exists_firstFlaw {lines : List (List Char)} {index : Nat} {flaw : Flaw}
    (h : Flaws lines index flaw) : ∃ first ≤ index, ∃ other, FirstFlaw lines first other := by
  induction index using Nat.strong_induction_on generalizing flaw with
  | h index ih =>
    by_cases hlower : ∃ i < index, ∃ other, Flaws lines i other
    · obtain ⟨i, hi, other, hother⟩ := hlower
      obtain ⟨first, hfirst, hflaw⟩ := ih i hi hother
      exact ⟨first, by omega, hflaw⟩
    · refine ⟨index, le_rfl, flaw, h, fun other => h.unique, fun i hi other hother => ?_⟩
      exact hlower ⟨i, hi, other, hother⟩

/-- The labels of lines are up to their code. -/
theorem labels_congr {lines lines' : List (List Char)}
    (h : lines.map Line.code = lines'.map Line.code) : labels lines = labels lines' := by
  induction lines generalizing lines' with
  | nil =>
    obtain rfl := List.map_eq_nil_iff.1 h.symm
    rfl
  | cons line lines ih =>
    obtain ⟨line', rest, rfl, hline, hrest⟩ := List.map_eq_cons_iff.1 h.symm
    have hlabel : Line.label? line = Line.label? line' := by
      rw [Line.label?, Line.label?, Line.split_congr hline]
    have hlabels := ih hrest.symm
    simp only [labels, List.filterMap_cons, hlabel] at hlabels ⊢
    rw [hlabels]

/-- The flaws in front of a line do not depend on what comes behind, nor on comments. -/
theorem Flaws.congr {lines lines' : List (List Char)} {k index : Nat} {flaw : Flaw}
    (hcode : (lines.take k).map Line.code = (lines'.take k).map Line.code) (hk : index < k)
    (h : Flaws lines index flaw) : Flaws lines' index flaw := by
  obtain ⟨line, hline, hflawed⟩ := h
  have htake : (lines.take index).map Line.code = (lines'.take index).map Line.code := by
    have hshort := congrArg (List.take index) hcode
    rwa [← List.map_take, ← List.map_take, List.take_take, List.take_take,
      Nat.min_eq_left hk.le] at hshort
  have hget : lines'[index]?.map Line.code = some (Line.code line) := by
    have hplace := congrArg (·[index]?) hcode
    simpa [List.getElem?_take_of_lt hk, hline, eq_comm] using hplace
  obtain ⟨line', hline', hsame⟩ := Option.map_eq_some_iff.1 hget
  exact ⟨line', hline', labels_congr htake ▸ hflawed.congr hsame.symm⟩

/-- The first flaw is up to the code of the lines as far as it. -/
theorem FirstFlaw.congr {lines lines' : List (List Char)} {k index : Nat} {flaw : Flaw}
    (hcode : (lines.take k).map Line.code = (lines'.take k).map Line.code) (hk : index < k)
    (h : FirstFlaw lines index flaw) : FirstFlaw lines' index flaw :=
  ⟨h.flaws.congr hcode hk, fun other hother => h.only other (hother.congr hcode.symm hk),
    fun i hi other hother => h.lowest i hi other (hother.congr hcode.symm (hi.trans hk))⟩

/-! ## The first pass -/

/-- Lines that spell clauses have the labels that the clauses define. -/
theorem labels_of_spell {lines : List (List Char)} {clauses : List Clause}
    (h : Spell lines clauses) : labels lines = defined clauses := by
  induction h with
  | nil => rfl
  | @cons line clause lines clauses hline _ ih =>
    obtain ⟨body, hsplit, -⟩ := Line.spells_iff.1 hline
    have hlabel : Line.label? line = clause.label := by
      rw [Line.label?, hsplit]
      rfl
    simp only [labels, defined, List.filterMap_cons, hlabel] at ih ⊢
    rw [ih]

/-- The table that the first pass leaves holds just the labels of the lines. -/
theorem isSome_lookup_draft {lines : List (List Char)} {symbols : Symbols} {slots : List Slot}
    (h : draft [] 1 0 lines = .ok (symbols, slots)) (name : String) :
    (symbols.lookup name).isSome = true ↔ name ∈ labels lines := by
  obtain ⟨clauses, hspell, -, rfl, -⟩ := draft_lines_eq_ok_iff.1 h
  rw [isSome_lookup_iff, labels_of_spell hspell]

/-- A label is refused just when it is defined already, and for no other reason. -/
theorem define_eq_error_iff {symbols : Symbols} {number address : Nat} {label : Option String}
    {e : AssemblyError} :
    define symbols number address label = .error e ↔
      ∃ name ∈ label, (symbols.lookup name).isSome = true ∧ .duplicateLabel number name = e := by
  cases label with
  | none => simp [define]
  | some name =>
    cases hlookup : symbols.lookup name with
    | none => simp only [define, hlookup, reduceCtorEq, Option.mem_def, Option.some.injEq,
        exists_eq_left', Option.isSome_none, Bool.false_eq_true, false_and]
    | some found => simp only [define, hlookup, Except.error.injEq, Option.mem_def,
        Option.some.injEq, exists_eq_left', Option.isSome_some, true_and]

/-- A line is refused for its flaw, when the table holds just the labels that are taken. -/
theorem readLine_eq_error_iff {symbols : Symbols} {number address : Nat} {line : List Char}
    {taken : List String}
    (htaken : ∀ name, (symbols.lookup name).isSome = true ↔ name ∈ taken) {e : AssemblyError} :
    readLine symbols number address line = .error e ↔
      ∃ flaw, Line.Flawed taken line flaw ∧ flaw.atLine number = e := by
  have hfree : ∀ name, symbols.lookup name = none ↔ name ∉ taken := fun name => by
    rw [← htaken, Bool.not_eq_true, Option.isSome_eq_false_iff, Option.isNone_iff_eq_none]
  constructor
  · intro h
    unfold readLine at h
    split at h
    · next cause hsplit =>
      cases h
      exact ⟨_, Line.flawed_iff.2 (.inl ⟨cause, hsplit, rfl⟩), rfl⟩
    · next label body hsplit =>
      split at h
      · next e' hdefine =>
        cases h
        obtain ⟨name, hname, hfound, rfl⟩ := define_eq_error_iff.1 hdefine
        exact ⟨_, Line.flawed_iff.2
          (.inr ⟨label, body, hsplit, .inl ⟨name, hname, (htaken name).1 hfound, rfl⟩⟩), rfl⟩
      · next hdefine =>
        have hnew : ∀ name ∈ label, name ∉ taken := fun name hname =>
          (hfree name).1 ((define_eq_ok_iff.1 hdefine).1 name hname)
        split at h
        · next cause hparse =>
          cases h
          exact ⟨_, Line.flawed_iff.2
            (.inr ⟨label, body, hsplit, .inr ⟨hnew, cause, hparse, rfl⟩⟩), rfl⟩
        · cases h
  · rintro ⟨flaw, hflawed, rfl⟩
    rcases Line.flawed_iff.1 hflawed with ⟨cause, hsplit, rfl⟩ | ⟨label, body, hsplit, hbody⟩
    · simp only [readLine, hsplit]
      rfl
    · rcases hbody with ⟨name, hname, hfound, rfl⟩ | ⟨hnew, cause, hparse, rfl⟩
      · have hdefine : define symbols number address label = .error (.duplicateLabel number name) :=
          define_eq_error_iff.2 ⟨name, hname, (htaken name).2 hfound, rfl⟩
        simp only [readLine, hsplit, hdefine]
        rfl
      · obtain ⟨symbols', hdefine⟩ :
            ∃ symbols', define symbols number address label = .ok symbols' :=
          ⟨_, define_eq_ok_iff.2 ⟨fun name hname => (hfree name).2 (hnew name hname), rfl⟩⟩
        simp only [readLine, hsplit, hdefine, hparse]
        rfl

/-- The first pass over one line more. -/
theorem draft_concat (symbols : Symbols) (number address : Nat) (lines : List (List Char))
    (line : List Char) :
    draft symbols number address (lines ++ [line]) =
      match draft symbols number address lines with
      | .error e => .error e
      | .ok (symbols, slots) =>
        (readLine symbols (number + lines.length) (address + slots.length) line).map
          fun (symbols, more) => (symbols, slots ++ more) := by
  induction lines generalizing symbols number address with
  | nil =>
    cases hline : readLine symbols number address line <;> simp [draft, hline, Except.map]
  | cons first lines ih =>
    rw [List.cons_append]
    cases hfirst : readLine symbols number address first with
    | error e => simp only [draft, hfirst]
    | ok read =>
      obtain ⟨middle, front⟩ := read
      simp only [draft, hfirst, ih]
      cases hrest : draft middle (number + 1) (address + front.length) lines with
      | error e => rfl
      | ok rest =>
        obtain ⟨symbols', slots⟩ := rest
        have hnumber : number + 1 + lines.length = number + (first :: lines).length := by
          rw [List.length_cons]
          omega
        have haddress : address + front.length + slots.length =
            address + (front ++ slots).length := by
          rw [List.length_append]
          omega
        simp only [Except.map, hnumber, haddress]
        cases readLine symbols' (number + (first :: lines).length)
          (address + (front ++ slots).length) line with
        | error e => rfl
        | ok last => simp only [List.append_assoc]

/-- The first pass fails with the first flaw, and it does not fail when there is none. -/
theorem draft_spec (lines : List (List Char)) :
    (Sound lines ∧ ∃ symbols slots, draft [] 1 0 lines = .ok (symbols, slots)) ∨
      ∃ index flaw, FirstFlaw lines index flaw ∧
        draft [] 1 0 lines = .error (flaw.atLine (index + 1)) := by
  induction lines using List.reverseRecOn with
  | nil => exact .inl ⟨fun _ _ h => absurd h.lt (Nat.not_lt_zero _), [], [], rfl⟩
  | append_singleton lines line ih =>
    -- Without a flaw so far the table holds the labels of the lines, and only the new line counts.
    rw [draft_concat]
    rcases ih with ⟨hsound, symbols, slots, hdraft⟩ | ⟨index, flaw, hfirst, hdraft⟩
    · have htaken := isSome_lookup_draft hdraft
      rw [hdraft]
      cases hline : readLine symbols (1 + lines.length) (0 + slots.length) line with
      | error e =>
        obtain ⟨flaw, hflawed, rfl⟩ := (readLine_eq_error_iff htaken).1 hline
        refine .inr ⟨lines.length, flaw, hsound.firstFlaw_concat hflawed, ?_⟩
        simp only [hline, Nat.add_comm lines.length 1]
        rfl
      | ok last =>
        obtain ⟨symbols', more⟩ := last
        refine .inl ⟨hsound.concat fun flaw hflawed => ?_, ?_⟩
        · rw [(readLine_eq_error_iff htaken).2 ⟨flaw, hflawed, rfl⟩] at hline
          cases hline
        · refine ⟨symbols', slots ++ more, ?_⟩
          simp only [hline]
          rfl
    · exact .inr ⟨index, flaw, hfirst.concat line, by rw [hdraft]⟩

/-! ## The second pass -/

/-- The reference that a slot waits for: the line that it stands on, and a label. -/
def Slot.reference? : Slot → Option (Nat × String)
  | word _ => none
  | reference name line => some (line, name)

/-- The references in the slots of a statement are its operand's name, if it has one, on its line.
-/
theorem filterMap_reference_ofStatement (number : Nat) (statement : Statement) :
    (Slot.ofStatement number statement).filterMap Slot.reference? =
      ((statement.operand?.bind Operand.name?).map fun name => (number, name)).toList := by
  cases statement with
  | nothing => rfl
  | datum operand => cases operand <;> rfl
  | plain op => rfl
  | withOperand op operand => cases operand <;> rfl

/-- The references in the slots of clauses are theirs, line by line. -/
theorem filterMap_reference_slotsFrom (number : Nat) (clauses : List Clause) :
    (slotsFrom number clauses).filterMap Slot.reference? = referencesFrom number clauses := by
  induction clauses generalizing number with
  | nil => rfl
  | cons clause rest ih =>
    rw [slotsFrom, List.filterMap_append, filterMap_reference_ofStatement, ih, referencesFrom]

/-- The second pass fails at the first reference that the table does not have. -/
theorem resolve_eq_error_iff {symbols : Symbols} {slots : List Slot} {e : AssemblyError} :
    resolve symbols slots = .error e ↔
      ∃ number name, (slots.filterMap Slot.reference?).find?
          (fun reference => (symbols.lookup reference.2).isNone) = some (number, name) ∧
        e = .undefinedLabel number name := by
  induction slots with
  | nil => simp [resolve]
  | cons slot rest ih =>
    cases slot with
    | word w =>
      have hrest : resolve symbols (.word w :: rest) = .error e ↔
          resolve symbols rest = .error e := by
        simp only [resolve, Slot.resolve]
        cases resolve symbols rest <;> simp [Except.map]
      rw [hrest, ih, List.filterMap_cons]
      rfl
    | reference name line =>
      cases hlookup : symbols.lookup name with
      | none =>
        have hfails : resolve symbols (.reference name line :: rest) =
            .error (.undefinedLabel line name) := by
          simp only [resolve, Slot.resolve, hlookup]
        rw [hfails, List.filterMap_cons]
        simp [Slot.reference?, hlookup, eq_comm]
      | some address =>
        have hrest : resolve symbols (.reference name line :: rest) = .error e ↔
            resolve symbols rest = .error e := by
          simp only [resolve, Slot.resolve, hlookup]
          cases resolve symbols rest <;> simp [Except.map]
        rw [hrest, ih, List.filterMap_cons]
        simp [Slot.reference?, hlookup]

/-! ## Both passes -/

/-- The first pass stops at the first flaw and reports it on its line. -/
theorem draft_of_firstFlaw {lines : List (List Char)} {index : Nat} {flaw : Flaw}
    (h : FirstFlaw lines index flaw) :
    draft [] 1 0 lines = .error (flaw.atLine (index + 1)) := by
  rcases draft_spec lines with ⟨hsound, -⟩ | ⟨index', flaw', h', hdraft⟩
  · exact absurd h.flaws (hsound index flaw)
  · obtain rfl : index = index' := Nat.le_antisymm
      (Nat.le_of_not_lt fun hlt => h.lowest index' hlt flaw' h'.flaws)
      (Nat.le_of_not_lt fun hlt => h'.lowest index hlt flaw h.flaws)
    rw [hdraft, h.only flaw' h'.flaws]

/-- When no line has a flaw, the first pass comes to its end, whichever way the lines are read. -/
theorem Sound.draft {lines : List (List Char)} (h : Sound lines) {clauses : List Clause}
    (hspell : Spell lines clauses) :
    draft [] 1 0 lines = .ok ((symbolsFrom 0 clauses).reverse, slotsFrom 1 clauses) := by
  rcases draft_spec lines with ⟨-, symbols, slots, hdraft⟩ | ⟨index, flaw, hfirst, -⟩
  · obtain ⟨clauses', hspell', hnodup, -, -⟩ := draft_lines_eq_ok_iff.1 hdraft
    rw [← labels_of_spell hspell', labels_of_spell hspell] at hnodup
    exact draft_lines_eq_ok_iff.2 ⟨clauses, hspell, hnodup, rfl, rfl⟩
  · exact absurd hfirst.flaws (h index flaw)

/-- The first reference that cannot be looked up is the first to a name that no clause defines. -/
theorem find?_references_eq_some_iff {clauses : List Clause} {number : Nat} {name : String} :
    (referencesFrom 1 clauses).find?
        (fun reference => ((symbolsFrom 0 clauses).reverse.lookup reference.2).isNone) =
          some (number, name) ↔
      ∃ earlier later, referencesFrom 1 clauses = earlier ++ (number, name) :: later ∧
        (∀ reference ∈ earlier, reference.2 ∈ defined clauses) ∧ name ∉ defined clauses := by
  have hnone : ∀ label, ((symbolsFrom 0 clauses).reverse.lookup label).isNone = true ↔
      label ∉ defined clauses := fun label => by
    rw [← isSome_lookup_iff, Option.isNone_iff_eq_none, Bool.not_eq_true,
      Option.isSome_eq_false_iff, Option.isNone_iff_eq_none]
  rw [List.find?_eq_some_iff_append]
  simp only [hnone, Bool.not_eq_true', Bool.eq_false_iff, ne_eq, not_not]
  exact ⟨fun ⟨hname, earlier, later, hsplit, hearlier⟩ => ⟨earlier, later, hsplit, hearlier, hname⟩,
    fun ⟨earlier, later, hsplit, hearlier, hname⟩ => ⟨hname, earlier, later, hsplit, hearlier⟩⟩

/-- Assembling fails with the first flaw of a line, or else, when no line has one, with the first
reference to a label that is not defined. -/
theorem assemble_eq_error_iff {source : String} {e : AssemblyError} :
    assemble source = .error e ↔
      (∃ index flaw, FirstFlaw (Text.lines source.toList) index flaw ∧
        e = flaw.atLine (index + 1)) ∨
      Sound (Text.lines source.toList) ∧ ∃ number name,
        FirstUndefined (Text.lines source.toList) number name ∧
          e = .undefinedLabel number name := by
  constructor
  · intro h
    rcases draft_spec (Text.lines source.toList) with
      ⟨hsound, symbols, slots, hdraft⟩ | ⟨index, flaw, hfirst, hdraft⟩
    · simp only [assemble, hdraft] at h
      obtain ⟨clauses, hspell, -, rfl, rfl⟩ := draft_lines_eq_ok_iff.1 hdraft
      obtain ⟨number, name, hfind, rfl⟩ := resolve_eq_error_iff.1 h
      rw [filterMap_reference_slotsFrom] at hfind
      obtain ⟨earlier, later, hsplit, hearlier, hname⟩ := find?_references_eq_some_iff.1 hfind
      exact .inr ⟨hsound, number, name,
        ⟨clauses, earlier, later, hspell, hsplit, hearlier, hname⟩, rfl⟩
    · simp only [assemble, hdraft, Except.error.injEq] at h
      exact .inl ⟨index, flaw, hfirst, h.symm⟩
  · rintro (⟨index, flaw, hfirst, rfl⟩ | ⟨hsound, number, name, hundefined, rfl⟩)
    · simp only [assemble, draft_of_firstFlaw hfirst]
    · obtain ⟨clauses, earlier, later, hspell, hsplit, hearlier, hname⟩ := hundefined
      simp only [assemble, hsound.draft hspell]
      refine resolve_eq_error_iff.2 ⟨number, name, ?_, rfl⟩
      rw [filterMap_reference_slotsFrom]
      exact find?_references_eq_some_iff.2 ⟨earlier, later, hsplit, hearlier, hname⟩

/-- A flaw of a line is never reported as an undefined label. -/
theorem Flaw.atLine_ne_undefinedLabel (flaw : Flaw) (line number : Nat) (name : String) :
    flaw.atLine line ≠ .undefinedLabel number name := by
  rcases flaw with (_ | _) | _ <;> rintro ⟨⟩

/-- **Errors are located.**  The flaw of the first line that has one comes before all other errors
of a text, and what stands behind that line does not matter.  A label that no line defines is
reported only when no line has a flaw, and then where it is used first. -/
theorem errors_are_located (source : String) :
    (∀ index flaw, Flaws (Text.lines source.toList) index flaw →
      ∃ first ≤ index, ∃ other, FirstFlaw (Text.lines source.toList) first other ∧
        assemble source = .error (other.atLine (first + 1))) ∧
    (∀ number name, assemble source = .error (.undefinedLabel number name) ↔
      Sound (Text.lines source.toList) ∧
        FirstUndefined (Text.lines source.toList) number name) ∧
    (∀ e, assemble source = .error e →
      (∃ index flaw, FirstFlaw (Text.lines source.toList) index flaw ∧
        e = flaw.atLine (index + 1)) ∨
      ∃ number name, e = .undefinedLabel number name) ∧
    ∀ k index flaw (changed : String), index < k → Flaws (Text.lines source.toList) index flaw →
      ((Text.lines source.toList).take k).map Line.code =
        ((Text.lines changed.toList).take k).map Line.code →
      assemble changed = assemble source := by
  have hfound : ∀ index flaw, Flaws (Text.lines source.toList) index flaw →
      ∃ first ≤ index, ∃ other, FirstFlaw (Text.lines source.toList) first other ∧
        assemble source = .error (other.atLine (first + 1)) := by
    intro index flaw h
    obtain ⟨first, hle, other, hfirst⟩ := h.exists_firstFlaw
    exact ⟨first, hle, other, hfirst, assemble_eq_error_iff.2 (.inl ⟨first, other, hfirst, rfl⟩)⟩
  refine ⟨hfound, fun number name => ⟨fun h => ?_, fun ⟨hsound, h⟩ => ?_⟩, fun e h => ?_,
    fun k index flaw changed hk hflaws hcode => ?_⟩
  · rcases assemble_eq_error_iff.1 h with ⟨index, flaw, -, he⟩ | ⟨hsound, _, _, hfirst, he⟩
    · exact absurd he.symm (Flaw.atLine_ne_undefinedLabel _ _ _ _)
    · cases he
      exact ⟨hsound, hfirst⟩
  · exact assemble_eq_error_iff.2 (.inr ⟨hsound, number, name, h, rfl⟩)
  · rcases assemble_eq_error_iff.1 h with hflaw | ⟨-, number, name, -, he⟩
    · exact .inl hflaw
    · exact .inr ⟨number, name, he⟩
  · obtain ⟨first, hle, other, hfirst, hassemble⟩ := hfound index flaw hflaws
    have hchanged := hfirst.congr hcode (Nat.lt_of_le_of_lt hle hk)
    rw [hassemble]
    exact assemble_eq_error_iff.2 (.inl ⟨first, other, hchanged, rfl⟩)

/-- A label is taken in small letters too, and behind that line the text may be anything. -/
theorem errors_are_located_label_taken :
    Flaws (Text.lines "a: inc\nA: dec\nmul".toList) 1 (.taken "A") ∧
      assemble "a: inc ; once\nA: dec\njmp b" = .error (.duplicateLabel 2 "A") := by
  have hflaws : Flaws (Text.lines "a: inc\nA: dec\nmul".toList) 1 (.taken "A") :=
    ⟨"A: dec".toList, by decide, Line.flawed_iff.2 (.inr ⟨some "A", " dec".toList,
      by decide +kernel, .inl ⟨"A", rfl, by decide +kernel, rfl⟩⟩)⟩
  have hsource : assemble "a: inc\nA: dec\nmul" = .error (.duplicateLabel 2 "A") := by
    decide +kernel
  obtain ⟨-, -, -, hsame⟩ := errors_are_located "a: inc\nA: dec\nmul"
  refine ⟨hflaws, ?_⟩
  rw [← hsource]
  exact hsame 2 1 (.taken "A") _ (by decide) hflaws (by decide +kernel)

end TernaryMachine.Assembly
