import Mathlib.Data.List.Forall2
import TernaryMachine.Command.Run
import TernaryMachine.Proofs.Machine.Operation
import TernaryMachine.Proofs.Numeral.Canonical
import TernaryMachine.Proofs.Text.Words

/-!
# Program text reads back

A token is looked at twice, once to see whether it consists of digits and once to read them, and
the first look refuses nothing that the second would read (`isDigitText_of_parse`).  So a text is a
program just when each of its tokens is a numeral (`parse_eq_ok_iff`), and the text that a row of
words is written as is read as those words, whatever blanks stand around it.
-/

set_option autoImplicit false

namespace TernaryMachine

namespace Numeral

/-- A token that is read as a numeral passes the look for digits. -/
theorem isDigitText_of_parse {token : List Char} {w : Word}
    (h : parse (String.ofList token) = .ok w) : isDigitText token = true := by
  obtain ⟨row, hrow, -⟩ := parse_eq_ok_iff.1 h
  rw [String.toList_ofList] at hrow
  apply List.all_eq_true.2
  intro c hc
  have hglyph : Trit.ofChar? c ∈ row.map some := hrow ▸ List.mem_map_of_mem hc
  obtain ⟨t, -, ht⟩ := List.mem_map.1 hglyph
  rw [← ht, Option.isSome_some, Bool.or_true]

/-- The numeral of a word is a token. -/
theorem isToken_render (w : Word) : Text.IsToken (render w).toList := by
  constructor
  · intro hempty
    have hzero : parse (render w) = .ok 0 := by
      rw [String.toList_eq_nil_iff.1 hempty]
      decide
    rw [parse_render] at hzero
    cases hzero
    revert hempty
    decide
  · intro c hc
    rcases glyph_of_mem_render hc with rfl | rfl | rfl <;> decide

end Numeral

namespace Program

/-- A token is a numeral that spells a word. -/
def Denotes (token : List Char) (w : Word) : Prop := Numeral.parse (String.ofList token) = .ok w

/-- A token is read as a word just when it denotes it. -/
theorem parseToken_eq_ok_iff {index : Nat} {token : List Char} {w : Word} :
    parseToken index token = .ok w ↔ Denotes token w := by
  unfold Denotes
  constructor
  · intro h
    unfold parseToken at h
    cases hread : Numeral.parse (String.ofList token) with
    | ok read =>
      simp only [Numeral.isDigitText_of_parse hread, if_true, hread, Except.ok.injEq] at h
      rw [h]
    | error e =>
      simp only [hread] at h
      split at h <;> cases h
  · intro h
    unfold parseToken
    rw [if_pos (Numeral.isDigitText_of_parse h), h]

/-- Tokens are read as words just when they denote them one by one. -/
theorem parseTokens_eq_ok_iff {index : Nat} {tokens : List (List Char)} {words : List Word} :
    parseTokens index tokens = .ok words ↔ List.Forall₂ Denotes tokens words := by
  induction tokens generalizing index words with
  | nil =>
    rw [List.forall₂_nil_left_iff, parseTokens, Except.ok.injEq, eq_comm]
  | cons token rest ih =>
    unfold parseTokens
    constructor
    · intro h
      cases htoken : parseToken index token with
      | error e => simp [htoken] at h
      | ok w =>
        cases hrest : parseTokens (index + 1) rest with
        | error e => simp [htoken, hrest, Except.map] at h
        | ok more =>
          simp only [htoken, hrest, Except.map, Except.ok.injEq] at h
          rw [← h]
          exact .cons (parseToken_eq_ok_iff.1 htoken) (ih.1 hrest)
    · intro h
      cases h with
      | @cons _ w _ more htoken hrest =>
        have hfirst : parseToken index token = .ok w := parseToken_eq_ok_iff.2 htoken
        have hmore : parseTokens (index + 1) rest = .ok more := ih.2 hrest
        simp only [hfirst, hmore, Except.map]

/-- A text is a program just when its tokens denote words, which are then the program. -/
theorem parse_eq_ok_iff {text : String} {words : List Word} :
    parse text = .ok words ↔ List.Forall₂ Denotes (Text.words text.toList) words :=
  parseTokens_eq_ok_iff

/-- The tokens of a program text are the numerals of the words. -/
theorem words_render (words : List Word) :
    Text.words (render words).toList = words.map fun w => (Numeral.render w).toList := by
  have htokens : ∀ token ∈ words.map fun w => (Numeral.render w).toList, Text.IsToken token := by
    intro token htoken
    obtain ⟨w, -, rfl⟩ := List.mem_map.1 htoken
    exact Numeral.isToken_render w
  have htext : (render words).toList =
      [' '].intercalate (words.map fun w => (Numeral.render w).toList) := by
    rw [render, String.toList_intercalate, List.map_map]
    rfl
  rw [htext, Text.words_intercalate htokens]

/-- The text of a row of words, with blanks around it or without, is read as these words. -/
theorem parse_render_between (words : List Word) {front behind : String}
    (hfront : ∀ c ∈ front.toList, Text.isBlank c = true)
    (hbehind : ∀ c ∈ behind.toList, Text.isBlank c = true) :
    parse (front ++ render words ++ behind) = .ok words := by
  rw [parse_eq_ok_iff, String.toList_append, String.toList_append, Text.words_append_blanks hbehind,
    Text.words_blanks_append hfront, words_render, List.forall₂_map_left_iff, List.forall₂_same]
  intro w _
  rw [Denotes, String.ofList_toList]
  exact Numeral.parse_render w

end Program

/-! ## The file of an assembled program -/

namespace Command

/-- Where the program text of a source file is written to. -/
def programPath (source : String) (output : Option String) : String :=
  output.getD (FileName.withExtension source "tern")

/-- Once a source file is read and assembled, how the command ends is up to the folder that the text
is written to. -/
theorem runIn_assembleFile {folder : Folder} {source text : String} {words : List Word}
    (output : Option String) (hread : folder.read source = .ok text)
    (hassemble : Assembly.assemble text = .ok words) :
    let last := (assembleFile source output).runIn folder
    (last.code, last.folder) =
      match folder.write (programPath source output) (Program.render words ++ "\n") with
      | .ok after => (0, after)
      | .error _ => (1, folder) := by
  unfold programPath
  simp only [assembleFile, readProgram, Script.readOr, Script.valueOr, Script.line, Script.runIn,
    Bind.bind, Script.bind, Script.continueFrom, hread, hassemble, Bool.true_or, if_true]
  cases folder.write (output.getD (FileName.withExtension source "tern"))
      (Program.render words ++ "\n") with
  | ok after => rfl
  | error e => rfl

/-- In the folder at hand, the file that the command has written holds the text and a line feed. -/
theorem read_of_assembleFile {folder : Folder} {source text : String} {words : List Word}
    {output : Option String} {parts : PathParts} (hread : folder.read source = .ok text)
    (hassemble : Assembly.assemble text = .ok words)
    (hpath : folder.locate (programPath source output) = .ok (true, parts))
    (hdone : ((assembleFile source output).runIn folder).code = 0) :
    ((assembleFile source output).runIn folder).folder.read (programPath source output) =
      .ok (Program.render words ++ "\n") := by
  have hlast := runIn_assembleFile output hread hassemble
  generalize (assembleFile source output).runIn folder = last at hdone hlast
  cases hwrite : folder.write (programPath source output) (Program.render words ++ "\n") with
  | error e =>
    rw [hwrite] at hlast
    have hcode : last.code = 1 := congrArg Prod.fst hlast
    rw [hcode] at hdone
    cases hdone
  | ok after =>
    rw [hwrite] at hlast
    have hafter : last.folder = after := congrArg Prod.snd hlast
    rw [hafter]
    exact Folder.read_of_write hpath hwrite

end Command

/-- **Program text reads back.**  The text of a row of words, with any blanks around it, is read as
these words, so that loading the text does to every machine what loading the words does.  The file
that an assembled program is written to holds such a text. -/
theorem program_text_reads_back (words : List Word) {front behind : String}
    (hfront : ∀ c ∈ front.toList, Text.isBlank c = true)
    (hbehind : ∀ c ∈ behind.toList, Text.isBlank c = true) :
    Program.parse (front ++ Program.render words ++ behind) = .ok words ∧
    (∀ m : Machine, m.perform (.loadProgram (front ++ Program.render words ++ behind)) =
      m.perform (.loadWords words)) ∧
    ∀ (folder : Folder) (source text : String) (output : Option String) (parts : PathParts),
      folder.read source = .ok text → Assembly.assemble text = .ok words →
      let path := Command.programPath source output
      let last := (Command.assembleFile source output).runIn folder
      folder.locate path = .ok (true, parts) → last.code = 0 →
      last.folder.read path = .ok (Program.render words ++ "\n") ∧
        Program.parse (Program.render words ++ "\n") = .ok words := by
  have hparse := Program.parse_render_between words hfront hbehind
  refine ⟨hparse, ?_, ?_⟩
  · intro m
    simp only [Machine.perform, Machine.loadProgram, hparse]
  · intro folder source text output parts hread hassemble path last hpath hdone
    have hempty : ∀ c ∈ "".toList, Text.isBlank c = true := List.all_eq_true.1 (by decide)
    have hfeed : ∀ c ∈ "\n".toList, Text.isBlank c = true := List.all_eq_true.1 (by decide)
    have hline := Program.parse_render_between words hempty hfeed
    rw [String.empty_append] at hline
    exact ⟨Command.read_of_assembleFile hread hassemble hpath hdone, hline⟩

/-- A folder with a source file of two words, the least word among them. -/
def sourceFolder : Folder := ⟨[("a", "DAT -9223372036854775808\nHALT ; stop\n")]⟩

/-- The paths `a` and `b` are names of files in the folder at hand. -/
theorem PathParts.ofPath_of_letter {path : String} (h : path = "a" ∨ path = "b") :
    PathParts.ofPath path = ⟨true, [], path, false⟩ := by
  -- `String.splitOn` goes by well-founded recursion: the kernel needs it unfolded by hand.
  have hsplit : path.splitOn "/" = [path] := by
    rcases h with rfl | rfl
    all_goals
      rw [String.splitOn, if_neg (by decide), String.splitOnAux, if_neg (by decide),
        if_neg (by decide), String.splitOnAux, if_pos (by decide)]
      decide
  rw [PathParts.ofPath, hsplit]
  rcases h with rfl | rfl <;> decide +kernel

/-- The text of the words of a source file with the least word reads back, with blanks around it
and from the file that it is written to. -/
theorem program_text_reads_back_least :
    let words : List Word := [-9223372036854775808, 0]
    let last := (Command.assembleFile "a" (some "b")).runIn sourceFolder
    Program.parse ("\u3000\t" ++ Program.render words ++ "\r\n") = .ok words ∧
      last.folder.read "b" = .ok (Program.render words ++ "\n") ∧
      Program.parse (Program.render words ++ "\n") = .ok words := by
  intro words last
  have hfront : ∀ c ∈ "\u3000\t".toList, Text.isBlank c = true := List.all_eq_true.1 (by decide)
  have hbehind : ∀ c ∈ "\r\n".toList, Text.isBlank c = true := List.all_eq_true.1 (by decide)
  obtain ⟨hparse, -, hfile⟩ := program_text_reads_back words hfront hbehind
  have hsource : sourceFolder.locate "a" = .ok (true, ⟨true, [], "a", false⟩) := by
    unfold Folder.locate
    rw [PathParts.ofPath_of_letter (.inl rfl)]
    rfl
  have hread : sourceFolder.read "a" = .ok "DAT -9223372036854775808\nHALT ; stop\n" := by
    unfold Folder.read
    rw [hsource]
    rfl
  have hassemble : Assembly.assemble "DAT -9223372036854775808\nHALT ; stop\n" = .ok words := by
    decide +kernel
  have hpath : sourceFolder.locate "b" = .ok (true, ⟨true, [], "b", false⟩) := by
    unfold Folder.locate
    rw [PathParts.ofPath_of_letter (.inr rfl)]
    rfl
  have hdone : last.code = 0 := by
    have hlast := Command.runIn_assembleFile (some "b") hread hassemble
    refine (congrArg Prod.fst hlast).trans ?_
    unfold Folder.write
    rw [Command.programPath, Option.getD_some, hpath]
    rfl
  exact ⟨hparse, hfile sourceFolder "a" _ (some "b") _ hread hassemble hpath hdone⟩

end TernaryMachine
