import TernaryMachine.Proofs.Assembly.ProgramText
import TernaryMachine.Proofs.Numeral.Exact

/-!
# Program texts one behind the other

A program text with a blank and another text behind it is read as the words of both.  If the first
text cannot be read, the second does not matter; if only the second cannot be read, its error counts
on from the words of the first (`parseTokens_add`).

What makes a text unreadable is its first bad token (`parse_eq_error_iff`), and a token is bad for
one of two reasons: it holds a character that is no glyph, or it is a row of digits whose sum is no
word (`parseToken_eq_error_iff`).  The check that comes before the digits are read would let blanks
pass, but a token has none.
-/

set_option autoImplicit false

namespace TernaryMachine

namespace Text

/-- The word at hand, when it ends, is a token. -/
theorem isToken_reverse {run : List Char} (hne : run ≠ []) (h : ∀ c ∈ run, isBlank c = false) :
    IsToken run.reverse :=
  ⟨by simpa using hne, fun c hc => h c (List.mem_reverse.1 hc)⟩

/-- Every word of a text is a token; a word may already have begun. -/
theorem isToken_of_mem_wordsFrom {run s token : List Char}
    (hrun : ∀ c ∈ run, isBlank c = false) (h : token ∈ wordsFrom run s) : IsToken token := by
  induction s generalizing run with
  | nil =>
    cases run with
    | nil => cases h
    | cons first rest =>
      obtain rfl : token = (first :: rest).reverse := List.mem_singleton.1 h
      exact isToken_reverse (List.cons_ne_nil _ _) hrun
  | cons c s ih =>
    by_cases hc : isBlank c = true
    · cases run with
      | nil =>
        simp only [wordsFrom, hc, if_true, List.isEmpty_nil] at h
        exact ih hrun h
      | cons first rest =>
        simp only [wordsFrom, hc, if_true, List.isEmpty_cons, Bool.false_eq_true, if_false,
          List.mem_cons] at h
        rcases h with rfl | hmore
        · exact isToken_reverse (List.cons_ne_nil _ _) hrun
        · exact ih (List.forall_mem_nil _) hmore
    · have hfree : isBlank c = false := Bool.not_eq_true _ ▸ hc
      simp only [wordsFrom, hfree, Bool.false_eq_true, if_false] at h
      exact ih (List.forall_mem_cons.2 ⟨hfree, hrun⟩) h

/-- The words of a text are tokens. -/
theorem isToken_of_mem_words {s token : List Char} (h : token ∈ words s) : IsToken token :=
  isToken_of_mem_wordsFrom (List.forall_mem_nil _) h

end Text

namespace ProgramError

/-- The bad token. -/
def token : ProgramError → String
  | invalidToken _ token => token
  | numeral _ token _ => token

/-- The error with so many more tokens in front of the bad one. -/
def behind (count : Nat) : ProgramError → ProgramError
  | invalidToken index token => .invalidToken (count + index) token
  | numeral index token source => .numeral (count + index) token source

end ProgramError

namespace Program

/-- What is wrong with a token that has so many others in front of it. -/
inductive Refused (index : Nat) (token : List Char) : ProgramError → Prop where
  | foreign {c : Char} (hc : c ∈ token) (hglyph : ¬ Numeral.IsGlyph c) :
      Refused index token (.invalidToken index (String.ofList token))
  | large (hglyphs : ∀ c ∈ token, Numeral.IsGlyph c) (hnone : ∀ w, ¬ Denotes token w) :
      Refused index token
        (.numeral index (String.ofList token) (.overflow (String.ofList token)))

/-! ## One token -/

/-- In a token only glyphs pass the check, as it has no blanks. -/
theorem isDigitText_iff {token : List Char} (h : Text.IsToken token) :
    Numeral.isDigitText token = true ↔ ∀ c ∈ token, Numeral.IsGlyph c := by
  rw [Numeral.isDigitText, List.all_eq_true]
  refine forall₂_congr fun c hc => ?_
  rw [h.2 c hc, Bool.false_or, Numeral.isGlyph_iff, Option.isSome_iff_exists]

/-- A token of glyphs is the numeral of a word or too large, and nothing else. -/
theorem parseToken_of_glyphs {token : List Char} (htoken : Text.IsToken token)
    (h : ∀ c ∈ token, Numeral.IsGlyph c) (index : Nat) :
    (∃ w, parseToken index token = .ok w) ∨
      parseToken index token =
        .error (.numeral index (String.ofList token) (.overflow (String.ofList token))) := by
  obtain ⟨row, hrow, -⟩ := Numeral.exists_row h
  rw [← String.toList_ofList (l := token)] at hrow
  have hread := Numeral.parse_of_row hrow
  rw [parseToken, if_pos ((isDigitText_iff htoken).2 h), hread]
  cases Word.ofInt? (Numeral.value row) with
  | some w => exact .inl ⟨w, rfl⟩
  | none => exact .inr rfl

/-- A token is refused just for what is wrong with it. -/
theorem parseToken_eq_error_iff {index : Nat} {token : List Char} (htoken : Text.IsToken token)
    {e : ProgramError} : parseToken index token = .error e ↔ Refused index token e := by
  by_cases hglyphs : ∀ c ∈ token, Numeral.IsGlyph c
  · constructor
    · intro h
      rcases parseToken_of_glyphs htoken hglyphs index with ⟨w, hok⟩ | herror
      · rw [hok] at h
        cases h
      · rw [herror] at h
        cases h
        refine .large hglyphs fun w hw => ?_
        rw [parseToken_eq_ok_iff.2 hw] at herror
        cases herror
    · rintro (⟨hc, hglyph⟩ | ⟨-, hnone⟩)
      · exact absurd (hglyphs _ hc) hglyph
      · rcases parseToken_of_glyphs htoken hglyphs index with ⟨w, hok⟩ | herror
        · exact absurd (parseToken_eq_ok_iff.1 hok) (hnone w)
        · exact herror
  · have hrefused : parseToken index token =
        .error (.invalidToken index (String.ofList token)) := by
      rw [parseToken, if_neg fun hall => hglyphs ((isDigitText_iff htoken).1 hall)]
    rw [hrefused]
    constructor
    · intro h
      cases h
      simp only [not_forall] at hglyphs
      obtain ⟨c, hc, hglyph⟩ := hglyphs
      exact .foreign hc hglyph
    · rintro (_ | ⟨hall, -⟩)
      · rfl
      · exact absurd hall hglyphs

/-- A token further on is read alike, with its index in the error moved on. -/
theorem parseToken_add (count index : Nat) (token : List Char) :
    parseToken (count + index) token =
      (parseToken index token).mapError (ProgramError.behind count) := by
  simp only [parseToken]
  split
  · cases Numeral.parse (String.ofList token) <;> rfl
  · rfl

/-! ## Rows of tokens -/

/-- A row of tokens is refused for the first one that is; those in front of it can be read. -/
theorem parseTokens_eq_error_iff {index : Nat} {tokens : List (List Char)} {e : ProgramError} :
    parseTokens index tokens = .error e ↔
      ∃ front token rest, tokens = front ++ token :: rest ∧
        (∀ earlier ∈ front, ∃ w, Denotes earlier w) ∧
        parseToken (index + front.length) token = .error e := by
  induction tokens generalizing index with
  | nil => simp [parseTokens]
  | cons first tokens ih =>
    cases hfirst : parseToken index first with
    | error cause =>
      simp only [parseTokens, hfirst, Except.error.injEq]
      constructor
      · rintro rfl
        exact ⟨[], first, tokens, rfl, List.forall_mem_nil _, hfirst⟩
      · rintro ⟨front, token, rest, hsplit, hfront, htoken⟩
        cases front with
        | nil =>
          obtain ⟨rfl, -⟩ := List.cons.inj hsplit
          exact Except.error.inj (hfirst.symm.trans htoken)
        | cons earlier front =>
          obtain ⟨rfl, -⟩ := List.cons.inj hsplit
          obtain ⟨w, hw⟩ := hfront first List.mem_cons_self
          rw [parseToken_eq_ok_iff.2 hw] at hfirst
          cases hfirst
    | ok w =>
      have hrest : parseTokens index (first :: tokens) = .error e ↔
          parseTokens (index + 1) tokens = .error e := by
        simp only [parseTokens, hfirst]
        cases parseTokens (index + 1) tokens <;> simp [Except.map]
      have hdenotes : ∃ w, Denotes first w := ⟨w, parseToken_eq_ok_iff.1 hfirst⟩
      rw [hrest, ih]
      constructor
      · rintro ⟨front, token, rest, rfl, hfront, htoken⟩
        refine ⟨first :: front, token, rest, rfl, List.forall_mem_cons.2 ⟨hdenotes, hfront⟩, ?_⟩
        rwa [List.length_cons, Nat.add_comm front.length 1, ← Nat.add_assoc]
      · rintro ⟨front, token, rest, hsplit, hfront, htoken⟩
        cases front with
        | nil =>
          obtain ⟨rfl, -⟩ := List.cons.inj hsplit
          cases hfirst.symm.trans htoken
        | cons earlier front =>
          obtain ⟨-, hsplit⟩ := List.cons.inj hsplit
          refine ⟨front, token, rest, hsplit, (List.forall_mem_cons.1 hfront).2, ?_⟩
          rwa [List.length_cons, Nat.add_comm front.length 1, ← Nat.add_assoc] at htoken

/-- With more tokens in front, errors count on. -/
theorem parseTokens_add (count index : Nat) (tokens : List (List Char)) :
    parseTokens (count + index) tokens =
      (parseTokens index tokens).mapError (ProgramError.behind count) := by
  induction tokens generalizing index with
  | nil => rfl
  | cons token rest ih =>
    simp only [parseTokens, parseToken_add, Nat.add_assoc, ih]
    cases parseToken index token with
    | error e => rfl
    | ok w => cases parseTokens (index + 1) rest <;> rfl

/-! ## Texts -/

/-- A text is refused for its first bad token. -/
theorem parse_eq_error_iff {text : String} {e : ProgramError} :
    parse text = .error e ↔
      ∃ front token rest, Text.words text.toList = front ++ token :: rest ∧
        (∀ earlier ∈ front, ∃ w, Denotes earlier w) ∧ Refused front.length token e := by
  rw [parse, parseTokens_eq_error_iff]
  refine exists_congr fun front => exists_congr fun token => exists_congr fun rest =>
    and_congr_right fun hsplit => and_congr_right fun _ => ?_
  have htoken : Text.IsToken token :=
    Text.isToken_of_mem_words (s := text.toList) (by simp [hsplit])
  rw [Nat.zero_add, parseToken_eq_error_iff htoken]

/-- Two texts with a blank between them are read one after the other. -/
theorem parse_append_blank (a b : String) {blank : Char} (h : Text.isBlank blank = true) :
    parse (a ++ String.singleton blank ++ b) =
      match parse a with
      | .error e => .error e
      | .ok x => ((parse b).mapError (ProgramError.behind x.length)).map (x ++ ·) := by
  have hwords : Text.words (a ++ String.singleton blank ++ b).toList =
      Text.words a.toList ++ Text.words b.toList := by
    rw [String.toList_append, String.toList_append, String.toList_singleton, List.append_assoc,
      List.singleton_append, Text.words_append_blank h]
  rw [parse, hwords, parseTokens_append, ← parse]
  cases hread : parse a with
  | error e => rfl
  | ok x =>
    have hlength : (Text.words a.toList).length = x.length :=
      (parseTokens_eq_ok_iff.1 hread).length_eq
    simp only [hlength, Nat.zero_add]
    rw [← Nat.add_zero x.length, parseTokens_add]
    rfl

/-- **Program texts are read one behind the other, up to the first bad token.**  With a blank
between them, two texts are read as the words of both; an error in the first is the error of the
whole, and an error in the second is, too, when its index is raised by the number of words of the
first.  A text has an error just when it has a token that is no numeral of a word.  The error names
the first such token with its index: as invalid if it holds a character that is no glyph, and
otherwise as a numeral that is too large. -/
theorem parse_joins :
    (∀ (a b : String) (blank : Char), Text.isBlank blank = true →
      (∀ x y, parse a = .ok x → parse b = .ok y →
        parse (a ++ String.singleton blank ++ b) = .ok (x ++ y)) ∧
      (∀ e, parse a = .error e → parse (a ++ String.singleton blank ++ b) = .error e) ∧
      (∀ x e, parse a = .ok x → parse b = .error e →
        parse (a ++ String.singleton blank ++ b) = .error (e.behind x.length))) ∧
    (∀ (text : String) (e : ProgramError), parse text = .error e ↔
      ∃ front token rest, Text.words text.toList = front ++ token :: rest ∧
        (∀ earlier ∈ front, ∃ w, Denotes earlier w) ∧ Refused front.length token e) ∧
    ∀ (text : String) (e : ProgramError), parse text = .error e →
      ((∃ index token, e = .invalidToken index token) ↔
        ∃ c ∈ e.token.toList, ¬ Numeral.IsGlyph c) ∧
      ∀ index token source, e = .numeral index token source → source = .overflow token := by
  refine ⟨?_, fun text e => parse_eq_error_iff, ?_⟩
  · intro a b blank hblank
    have hjoined := parse_append_blank a b hblank
    refine ⟨?_, ?_, ?_⟩
    · intro x y ha hb
      rw [hjoined, ha, hb]
      rfl
    · intro e ha
      rw [hjoined, ha]
    · intro x e ha hb
      rw [hjoined, ha, hb]
      rfl
  · intro text e herror
    obtain ⟨front, token, rest, -, -, hrefused⟩ := parse_eq_error_iff.1 herror
    cases hrefused with
    | foreign hc hglyph =>
      refine ⟨⟨fun _ => ⟨_, ?_, hglyph⟩, fun _ => ⟨_, _, rfl⟩⟩, ?_⟩
      · rw [ProgramError.token, String.toList_ofList]
        exact hc
      · rintro index token source ⟨⟩
    | large hglyphs _ =>
      refine ⟨⟨?_, ?_⟩, ?_⟩
      · rintro ⟨index, token, ⟨⟩⟩
      · rintro ⟨c, hc, hglyph⟩
        rw [ProgramError.token, String.toList_ofList] at hc
        exact absurd (hglyphs c hc) hglyph
      · rintro index token source ⟨⟩
        rfl

/-- An ideographic blank between two words and a word that is too large; behind that token a foreign
character is not looked at. -/
theorem parse_joins_large :
    let large := String.ofList (List.replicate 42 '+')
    let e : ProgramError := .numeral 3 large (.overflow large)
    parse "+- 0\u30001" = .ok [2, 0, 1] ∧
    parse ("+- 0 1" ++ String.singleton '\u3000' ++ (large ++ "\t2")) = .error e ∧
    ¬ (∃ index token, e = .invalidToken index token) := by
  intro large e
  obtain ⟨hjoins, -, hreasons⟩ := parse_joins
  obtain ⟨hboth, -, -⟩ := hjoins "+- 0" "1" '\u3000' (by decide)
  have hwords := hboth [2, 0] [1] (by decide +kernel) (by decide +kernel)
  obtain ⟨-, -, hsecond⟩ := hjoins "+- 0 1" (large ++ "\t2") '\u3000' (by decide)
  have herror := hsecond [2, 0, 1] (.numeral 0 large (.overflow large)) (by decide +kernel)
    (by decide +kernel)
  have hplus : ∀ c ∈ large.toList, Numeral.IsGlyph c := by
    intro c hc
    rw [String.toList_ofList] at hc
    rw [List.eq_of_mem_replicate hc]
    rfl
  obtain ⟨hreason, -⟩ := hreasons _ e herror
  refine ⟨hwords, herror, fun hinvalid => ?_⟩
  obtain ⟨c, hc, hglyph⟩ := hreason.1 hinvalid
  exact hglyph (hplus c hc)

end Program

end TernaryMachine
