import TernaryMachine.Json.Reader
import TernaryMachine.Proofs.Json.Documented
import TernaryMachine.Proofs.Json.Skipping

/-!
# The library keeps its documentation

Reading a text gives what reading the members of its object gives (`Shape.read_spelled`): a value
is read from its text as it is from the value (`Kind.scan_spelled`), so a member is read up to the
mark behind it (`Shape.scanMember_spelled`), and all members one after the other
(`Shape.scanMembers_spelled`).  Only the errors differ, so the statements compare answers without
their errors.

With that, `library_documented` is left with the members alone.
-/

set_option autoImplicit false

namespace TernaryMachine.Json

/-! ## Answers without their errors -/

section

variable {ε δ α β : Type}

/-- A result is the answer `a` just when `a` is what it has as an option. -/
theorem eq_ok_iff_toOption {x : Except ε α} {a : α} : x = .ok a ↔ x.toOption = some a := by
  cases x <;> simp [Except.toOption]

/-- Results and options are mapped alike. -/
theorem toOption_map (x : Except ε α) (f : α → β) :
    (x.map f).toOption = x.toOption.map f := by
  cases x <;> rfl

/-- What an error says makes no difference to the answer. -/
theorem toOption_mapError (x : Except ε α) (f : ε → δ) : (x.mapError f).toOption = x.toOption := by
  cases x <;> rfl

/-- An error has no answer. -/
theorem toOption_of_error {x : Except ε α} (h : ∃ e, x = .error e) : x.toOption = none := by
  obtain ⟨e, rfl⟩ := h
  rfl

/-- What has no answer is an error. -/
theorem exists_error_of_toOption {x : Except ε α} (h : x.toOption = none) : ∃ e, x = .error e := by
  cases x with
  | error e => exact ⟨e, rfl⟩
  | ok a => cases h

end

/-! ## Values -/

namespace Kind

variable {α : Type} {gap t rest : List Char} {value : Json}

/-- The values that are numbers of 64 bits. -/
theorem number?_eq_some_iff {n : UInt64} : number? value = some n ↔ value = .nat n.toNat := by
  constructor
  · intro h
    unfold number? at h
    split at h
    · split_ifs at h with hlt
      obtain rfl := Option.some.inj h
      rw [UInt64.toNat_ofNat_of_lt' hlt]
      rfl
    · cases h
  · rintro rfl
    show (if n.toNat < UInt64.size then _ else _) = _
    rw [if_pos n.toNat_lt, UInt64.ofNat_toNat]

/-- The scanner reads a spelled value as an unsigned number just when it is one. -/
theorem scanUnsigned_spelled (hgap : IsGap gap) (h : Spells t value) (hrest : EndsNumber rest) :
    (scanUnsigned (gap ++ (t ++ rest))).toOption = (number? value).map (·, rest) := by
  cases hn : number? value with
  | some n =>
    obtain rfl := number?_eq_some_iff.1 hn
    cases h
    rw [show (Int.repr (n.toNat : Int)) = n.toNat.repr from rfl, scanUnsigned_repr hgap n hrest]
    rfl
  | none =>
    apply toOption_of_error
    refine scanUnsigned_refuses hgap h ?_ hrest
    intro n hvalue
    rw [number?_eq_some_iff.2 hvalue] at hn
    cases hn

/-- The scanner reads a spelled value as a truth value just when it is one. -/
theorem scanBool_spelled (hgap : IsGap gap) (h : Spells t value) :
    (scanBool (gap ++ (t ++ rest))).toOption = (ofJson bool value).toOption.map (·, rest) := by
  by_cases hb : ∃ b, value = .bool b
  · obtain ⟨b, rfl⟩ := hb
    rw [scanBool_of_spells hgap h rest]
    rfl
  · have hother : ∀ b, value ≠ .bool b := fun b hvalue => hb ⟨b, hvalue⟩
    have hrefused : (ofJson bool value).toOption = none := by
      cases value with
      | bool b => exact absurd rfl (hother b)
      | _ => rfl
    rw [hrefused]
    exact toOption_of_error (scanBool_refuses hgap h hother rest)

/-- A value is read from its text as it is from the JSON value that the text spells. -/
theorem scan_spelled (kind : Kind α) (hgap : IsGap gap) (h : Spells t value)
    (hrest : EndsNumber rest) :
    (kind.scan (gap ++ (t ++ rest))).toOption = (kind.ofJson value).toOption.map (·, rest) := by
  have hnumber := scanUnsigned_spelled hgap h hrest
  cases kind with
  | unsigned =>
    rw [scan, toOption_mapError, hnumber, ofJson]
    cases number? value <;> rfl
  | bool =>
    rw [scan, toOption_mapError, scanBool_spelled hgap h]
  | through make number =>
    rw [scan, ofJson]
    cases hn : number? value with
    | none =>
      rw [hn] at hnumber
      cases hscan : scanUnsigned (gap ++ (t ++ rest)) with
      | error e => rfl
      | ok answer =>
        rw [hscan] at hnumber
        cases hnumber
    | some n =>
      rw [hn] at hnumber
      rw [eq_ok_iff_toOption.2 hnumber]
      cases hmake : make n <;> simp only [hmake] <;> rfl

end Kind

/-- A spelled value is put in place just when it is of the member's kind. -/
theorem Member.scan_spelled {α : Type} (m : Member α) (a : α) {gap t rest : List Char}
    {value : Json} (hgap : IsGap gap) (h : Spells t value) (hrest : EndsNumber rest) :
    (m.scan a (gap ++ (t ++ rest))).toOption =
      (m.kind.ofJson value).toOption.map fun part => (m.put part a, rest) := by
  rw [Member.scan, toOption_map, m.kind.scan_spelled hgap h hrest, Option.map_map]
  rfl

/-! ## Members -/

/-- A colon is found behind a gap. -/
theorem scanColon_gap {gap : List Char} (hgap : IsGap gap) (rest : List Char) :
    scanColon (gap ++ ':' :: rest) = .ok rest := by
  have hskip : skipSpace (gap ++ ':' :: rest) = ':' :: rest := by
    rw [skipSpace_append hgap, skipSpace_cons (by decide)]
  rw [scanColon, hskip]
  rfl

namespace Shape

variable {α : Type} (shape : Shape α)

/-- A member is read up to the mark behind it, with the answer that its name and value have. -/
theorem scanMember_spelled {t : List Char} {member : String × Json} (h : SpellsMember t member)
    {mark : Char} (hmark : mark = ',' ∨ mark = '\x7d') (rest : List Char) :
    ∃ s left, skipSpace (t ++ mark :: rest) = '"' :: s ∧ skipSpace left = mark :: rest ∧
      ∀ a given, (shape.scanMember a given s).toOption =
        (shape.addMember (a, given) member).toOption.map (·, left) := by
  obtain ⟨name, value⟩ := member
  obtain ⟨letters, gap, front, text, back, hname, hgap, hfront, htext, hback, hskip⟩ :=
    exists_member h (mark :: rest)
  have hends : EndsNumber (back ++ mark :: rest) :=
    endsNumber_append hback (endsNumber_mark (hmark.imp_right .inr) rest)
  have hleft : skipSpace (back ++ mark :: rest) = mark :: rest := by
    rw [skipSpace_append hback]
    apply skipSpace_cons
    rcases hmark with rfl | rfl <;> decide
  refine ⟨_, _, hskip, hleft, ?_⟩
  intro a given
  have hscan := scanText_of_spells hname
  simp only [scanMember, hscan, String.ofList_toList, scanColon_gap hgap, addMember]
  cases hm : shape.member? name with
  | none =>
    simp only [Except.bind, skipValue_spelled hfront htext hends]
    rfl
  | some m =>
    by_cases hgiven : name ∈ given
    · simp only [if_pos hgiven]
      rfl
    · simp only [if_neg hgiven, toOption_map, m.scan_spelled a hfront htext hends,
        Option.map_map]
      rfl

section

variable {a : α} {given : List String} {member : String × Json} {s left : List Char}

/-- If a member is refused, so are the members that it is the first of. -/
theorem scanMembers_of_refused {e : ReadError}
    (hanswer : (shape.scanMember a given s).toOption =
      (shape.addMember (a, given) member).toOption.map (·, left))
    (hadd : shape.addMember (a, given) member = .error e) (bound : Nat) :
    (shape.scanMembers a given bound s).toOption = none := by
  rw [hadd] at hanswer
  obtain ⟨e', he'⟩ := exists_error_of_toOption hanswer
  cases bound with
  | zero => rfl
  | succ bound =>
    rw [scanMembers, he']
    rfl

/-- A member that the record takes is scanned to the same record. -/
theorem scanMember_of_added {state : α × List String}
    (hanswer : (shape.scanMember a given s).toOption =
      (shape.addMember (a, given) member).toOption.map (·, left))
    (hadd : shape.addMember (a, given) member = .ok state) :
    shape.scanMember a given s = .ok (state, left) := by
  rw [hadd] at hanswer
  exact eq_ok_iff_toOption.2 hanswer

end

/-- Members are read one after the other up to the closing brace. -/
theorem scanMembers_spelled {members : List (String × Json)} {t : List Char}
    (h : SpellsMembers t members) (rest : List Char) :
    ∃ s, skipSpace (t ++ '\x7d' :: rest) = '"' :: s ∧ ∀ a given bound,
      members.length ≤ bound → (shape.scanMembers a given bound s).toOption =
        (members.foldlM shape.addMember (a, given)).toOption.map fun state =>
          (state.1, rest) := by
  induction members generalizing t with
  | nil => cases h
  | cons member more ih =>
    obtain ⟨first, hfirst, ⟨rfl, rfl⟩ | ⟨tail, htail, rfl⟩⟩ := spellsMembers_cons h
    · obtain ⟨s, left, hskip, hleft, hscan⟩ := shape.scanMember_spelled hfirst (.inr rfl) rest
      refine ⟨s, hskip, ?_⟩
      intro a given bound hbound
      obtain ⟨bound, rfl⟩ := Nat.exists_eq_succ_of_ne_zero (Nat.ne_zero_of_lt hbound)
      rw [List.foldlM_cons]
      cases hadd : shape.addMember (a, given) member with
      | error e => exact shape.scanMembers_of_refused (hscan a given) hadd _
      | ok state =>
        simp only [scanMembers, shape.scanMember_of_added (hscan a given) hadd, hleft]
        rfl
    · obtain ⟨s', hskip', hrest⟩ := ih htail
      obtain ⟨s, left, hskip, hleft, hscan⟩ :=
        shape.scanMember_spelled hfirst (.inl rfl) (tail ++ '\x7d' :: rest)
      refine ⟨s, by rwa [List.append_assoc], ?_⟩
      intro a given bound hbound
      obtain ⟨bound, rfl⟩ := Nat.exists_eq_succ_of_ne_zero (Nat.ne_zero_of_lt hbound)
      rw [List.foldlM_cons]
      cases hadd : shape.addMember (a, given) member with
      | error e => exact shape.scanMembers_of_refused (hscan a given) hadd _
      | ok state =>
        simp only [scanMembers, shape.scanMember_of_added (hscan a given) hadd, hleft, hskip']
        exact hrest state.1 state.2 bound (Nat.le_of_succ_le_succ hbound)

/-! ## Objects -/

/-- An object is read as the record of its members, in whatever way it is spelled. -/
theorem read_spelled {members : List (String × Json)} {text : String}
    (h : SpellsElement text.toList (.object members)) :
    (shape.read text).toOption = (shape.ofMembers members).toOption := by
  obtain ⟨front, inner, back, hfront, hback, hinner, htext⟩ := exists_object h
  have hbrace : skipSpace text.toList = '\x7b' :: (inner ++ '\x7d' :: back) := by
    rw [htext, skipSpace_append hfront, skipSpace_cons (by decide)]
  have hobject : (shape.scanObject (inner ++ '\x7d' :: back)).toOption =
      (members.foldlM shape.addMember (shape.start, [])).toOption.map fun state =>
        (state.1, back) := by
    rcases hinner with ⟨rfl, hgap⟩ | hinner
    · rw [scanObject, skipSpace_append hgap, skipSpace_cons (by decide)]
      rfl
    · obtain ⟨s, hskip, hscan⟩ := shape.scanMembers_spelled hinner back
      have hlength := length_le_of_spellsMembers hinner
      rw [scanObject, hskip]
      apply hscan
      rw [List.length_append]
      omega
  rw [ofMembers, toOption_map]
  cases hmembers : members.foldlM shape.addMember (shape.start, []) with
  | error e =>
    rw [hmembers] at hobject
    obtain ⟨e', he'⟩ := exists_error_of_toOption hobject
    simp only [read, hbrace, he']
    rfl
  | ok state =>
    rw [hmembers] at hobject
    have hscan := eq_ok_iff_toOption.2 hobject
    simp only [read, hbrace, hscan, Except.mapError, skipSpace_gap hback, List.isEmpty_nil]
    rfl

/-! ## One member more -/

/-- A member is added if its name is none of the shape's, or is new and has a value that is
accepted. -/
theorem addMember_eq_ok_iff {state next : α × List String} {name : String} {value : Json} :
    shape.addMember state (name, value) = .ok next ↔
      (shape.member? name = none ∧ next = state) ∨
      ∃ m part, shape.member? name = some m ∧ name ∉ state.2 ∧ m.kind.ofJson value = .ok part ∧
        next = (m.put part state.1, name :: state.2) := by
  unfold addMember
  cases hm : shape.member? name with
  | none => simp [eq_comm]
  | some m =>
    by_cases hgiven : name ∈ state.2
    · simp [hgiven]
    · cases hpart : m.kind.ofJson value with
      | error e => simp [hgiven, hpart, Except.map]
      | ok part => simp [hgiven, hpart, Except.map, eq_comm]

/-- A member is given once it has been added. -/
theorem mem_given_of_addMember {state next : α × List String} {member : String × Json}
    (h : shape.addMember state member = .ok next) {name : String} {m : Member α}
    (hm : shape.member? name = some m) : name ∈ next.2 ↔ name ∈ state.2 ∨ name = member.1 := by
  obtain ⟨hnone, rfl⟩ | ⟨m', part, -, -, -, rfl⟩ := shape.addMember_eq_ok_iff.1 h
  · have hne : name ≠ member.1 := by
      rintro rfl
      rw [hnone] at hm
      cases hm
    simp [hne]
  · rw [List.mem_cons, or_comm]

/-- The members that have been given are those that were added, on top of those given before. -/
theorem mem_given_of_foldlM {members : List (String × Json)} {state last : α × List String}
    (h : members.foldlM shape.addMember state = .ok last) {name : String} {m : Member α}
    (hm : shape.member? name = some m) :
    name ∈ last.2 ↔ name ∈ state.2 ∨ name ∈ members.map Prod.fst := by
  induction members generalizing state with
  | nil =>
    obtain rfl := Except.ok.inj h
    simp
  | cons member more ih =>
    rw [List.foldlM_cons] at h
    cases hadd : shape.addMember state member with
    | error e =>
      rw [hadd] at h
      cases h
    | ok next =>
      rw [hadd] at h
      rw [ih h, shape.mem_given_of_addMember hadd hm, List.map_cons, List.mem_cons, or_assoc]

/-- Members are read with one more at their end if they are read without it and it can be added. -/
theorem ofMembers_concat_iff {members : List (String × Json)} {member : String × Json} {a : α} :
    shape.ofMembers (members ++ [member]) = .ok a ↔ ∃ state next,
      members.foldlM shape.addMember (shape.start, []) = .ok state ∧
      shape.addMember state member = .ok next ∧ next.1 = a := by
  unfold ofMembers
  rw [List.foldlM_append]
  cases members.foldlM shape.addMember (shape.start, []) with
  | error e => simp [bind, Except.bind, Except.map]
  | ok state =>
    cases hadd : shape.addMember state member with
    | error e => simp [bind, Except.bind, Except.map, hadd]
    | ok next => simp [bind, Except.bind, pure, Except.pure, Except.map, hadd, Prod.ext_iff]

/-- A record is what is left when all members have been taken one after the other. -/
theorem ofMembers_eq_ok_iff {members : List (String × Json)} {a : α} :
    shape.ofMembers members = .ok a ↔
      ∃ state, members.foldlM shape.addMember (shape.start, []) = .ok state ∧ state.1 = a := by
  unfold ofMembers
  cases members.foldlM shape.addMember (shape.start, []) <;> simp [Except.map]

/-- A new member puts its value in. -/
theorem ofMembers_known {members : List (String × Json)} {name : String} {value : Json}
    {m : Member α} {a : α} (hm : shape.member? name = some m)
    (hnew : name ∉ members.map Prod.fst) :
    shape.ofMembers (members ++ [(name, value)]) = .ok a ↔ ∃ front part,
      shape.ofMembers members = .ok front ∧ m.kind.ofJson value = .ok part ∧
        m.put part front = a := by
  rw [ofMembers_concat_iff]
  constructor
  · rintro ⟨state, next, hstate, hadd, rfl⟩
    obtain ⟨hnone, -⟩ | ⟨m', part, hm', -, hpart, rfl⟩ := shape.addMember_eq_ok_iff.1 hadd
    · rw [hm] at hnone
      cases hnone
    · obtain rfl := Option.some.inj (hm.symm.trans hm')
      exact ⟨state.1, part, shape.ofMembers_eq_ok_iff.2 ⟨state, hstate, rfl⟩, hpart, rfl⟩
  · rintro ⟨front, part, hfront, hpart, rfl⟩
    obtain ⟨state, hstate, rfl⟩ := shape.ofMembers_eq_ok_iff.1 hfront
    have hgiven : name ∉ state.2 := by
      rw [shape.mem_given_of_foldlM hstate hm]
      simpa using hnew
    exact ⟨state, _, hstate, shape.addMember_eq_ok_iff.2 (.inr ⟨m, part, hm, hgiven, hpart, rfl⟩),
      rfl⟩

/-- A member is refused that has been given. -/
theorem ofMembers_repeated {members : List (String × Json)} {name : String} {value : Json}
    {m : Member α} (a : α) (hm : shape.member? name = some m)
    (hold : name ∈ members.map Prod.fst) :
    shape.ofMembers (members ++ [(name, value)]) ≠ .ok a := by
  intro ha
  obtain ⟨state, next, hstate, hadd, -⟩ := shape.ofMembers_concat_iff.1 ha
  have hgiven : name ∈ state.2 := (shape.mem_given_of_foldlM hstate hm).2 (.inr hold)
  obtain ⟨hnone, -⟩ | ⟨_, _, _, hnew, -⟩ := shape.addMember_eq_ok_iff.1 hadd
  · rw [hm] at hnone
    cases hnone
  · exact hnew hgiven

/-- A name that is none of the shape's changes nothing. -/
theorem ofMembers_unknown {members : List (String × Json)} {name : String} {value : Json} {a : α}
    (hm : shape.member? name = none) :
    shape.ofMembers (members ++ [(name, value)]) = .ok a ↔ shape.ofMembers members = .ok a := by
  have hadd : ∀ state, shape.addMember state (name, value) = .ok state := fun state =>
    shape.addMember_eq_ok_iff.2 (.inl ⟨hm, rfl⟩)
  rw [ofMembers_concat_iff, ofMembers_eq_ok_iff]
  constructor
  · rintro ⟨state, next, hstate, hnext, rfl⟩
    obtain rfl := Except.ok.inj ((hadd state).symm.trans hnext)
    exact ⟨state, hstate, rfl⟩
  · rintro ⟨state, hstate, rfl⟩
    exact ⟨state, state, hstate, hadd state, rfl⟩

end Shape

/-! ## The library -/

/-- Just the unsigned numbers are of the unsigned kind. -/
theorem Kind.ofJson_unsigned_eq_ok_iff {value : Json} {n : UInt64} :
    Kind.ofJson .unsigned value = .ok n ↔ value = .nat n.toNat := by
  rw [← Kind.number?_eq_some_iff, Kind.ofJson]
  cases Kind.number? value <;> simp

/-- Just the truth values are of the truth kind. -/
theorem Kind.ofJson_bool_eq_ok_iff {value : Json} {b : Bool} :
    Kind.ofJson .bool value = .ok b ↔ value = .bool b := by
  cases value <;> simp [Kind.ofJson]

/-- What is made from a number is of its kind when the number is, and can be made into it. -/
theorem Kind.ofJson_through_eq_ok_iff {α : Type} {make : UInt64 → Except String α}
    {number : α → UInt64} {value : Json} {a : α} :
    Kind.ofJson (.through make number) value = .ok a ↔
      ∃ n, Kind.ofJson .unsigned value = .ok n ∧ make n = .ok a := by
  rw [Kind.ofJson, Kind.ofJson]
  cases Kind.number? value with
  | none => simp
  | some n => cases hmake : make n <;> simp [hmake, Except.mapError]

/-- **The library that the program is run with keeps its documentation.** -/
theorem library_documented : library.Documented where
  toJson_unsigned _ := rfl
  toJson_bool _ := rfl
  toJson_through _ _ _ := rfl
  ofJson_unsigned := Kind.ofJson_unsigned_eq_ok_iff
  ofJson_bool := Kind.ofJson_bool_eq_ok_iff
  ofJson_through {_ make number _ _} := @Kind.ofJson_through_eq_ok_iff _ make number _ _
  ofMembers_nil := rfl
  ofMembers_known hm hnew := Shape.ofMembers_known _ hm hnew
  ofMembers_repeated a hm hold := Shape.ofMembers_repeated _ a hm hold
  ofMembers_unknown hm := Shape.ofMembers_unknown _ hm
  write_spells shape a := by
    refine ⟨_, rfl, ?_⟩
    have hspells := SpellsElement.mk isGap_nil (spells_pretty (shape.toJson a)) isGap_nil
    rwa [List.nil_append, List.append_nil] at hspells
  read_spelled := by
    intro α shape members text a h
    have hanswers := Shape.read_spelled shape h
    show shape.read text = .ok a ↔ shape.ofMembers members = .ok a
    rw [eq_ok_iff_toOption, hanswers, eq_ok_iff_toOption]

end TernaryMachine.Json
