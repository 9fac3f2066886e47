import TernaryMachine.Text.Blank

/-!
# Taking apart what was put together

Lines that are each ended by a line feed are the lines of the whole (`lines_flatMap`), and tokens
with blanks between them are its words (`words_intercalate`).  Both rest on one equation, at one
line feed and at one blank.

Trimming takes off what blanks stand around a text and no more (`trim_append_blanks`).
-/

set_option autoImplicit false

namespace TernaryMachine.Text

/-! ## Lines -/

/-- A line ends at its line feed. -/
theorem lines_append_feed {s : List Char} (hs : '\n' ∉ s) (rest : List Char) :
    lines (s ++ '\n' :: rest) = s :: lines rest := by
  induction s with
  | nil => simp [lines]
  | cons c s ih =>
    have hc : c ≠ '\n' := fun h => hs (h ▸ List.mem_cons_self)
    have hrest : '\n' ∉ s := fun h => hs (List.mem_cons_of_mem c h)
    simp [lines, hc, ih hrest]

/-- Behind the last line feed there is one more line, the empty one. -/
theorem lines_flatMap {rows : List (List Char)} (h : ∀ row ∈ rows, '\n' ∉ row) :
    lines (rows.flatMap (· ++ ['\n'])) = rows ++ [[]] := by
  induction rows with
  | nil => rfl
  | cons row rows ih =>
    have hrow : '\n' ∉ row := h row List.mem_cons_self
    have hrest := ih fun other hother => h other (List.mem_cons_of_mem row hother)
    rw [List.flatMap_cons, List.append_assoc, List.singleton_append, lines_append_feed hrow, hrest]
    rfl

/-! ## Words -/

/-- A blank ends the word at hand. -/
theorem wordsFrom_append_blank {c : Char} (hc : isBlank c = true) (run s t : List Char) :
    wordsFrom run (s ++ c :: t) = wordsFrom run s ++ words t := by
  induction s generalizing run with
  | nil => cases run <;> simp [wordsFrom, hc, words]
  | cons d s ih =>
    by_cases hd : isBlank d = true
    · cases run <;> simp [wordsFrom, hd, ih]
    · simp [wordsFrom, hd, ih]

/-- A blank keeps the words before it and the words behind it apart. -/
theorem words_append_blank {c : Char} (hc : isBlank c = true) (s t : List Char) :
    words (s ++ c :: t) = words s ++ words t :=
  wordsFrom_append_blank hc [] s t

/-- A blank in front makes no difference to the words. -/
theorem words_cons_blank {c : Char} (hc : isBlank c = true) (s : List Char) :
    words (c :: s) = words s :=
  words_append_blank hc [] s

/-- A text that is one word: it is not empty and holds no blank. -/
def IsToken (s : List Char) : Prop := s ≠ [] ∧ ∀ c ∈ s, isBlank c = false

/-- Whether a text is a token can be tested. -/
theorem isToken_of_all {s : List Char} (hne : s ≠ []) (h : s.all (fun c => !isBlank c) = true) :
    IsToken s :=
  ⟨hne, fun c hc => by simpa using List.all_eq_true.1 h c hc⟩

/-- Two tokens without a blank between them are one. -/
theorem IsToken.append {s t : List Char} (hs : IsToken s) (ht : IsToken t) : IsToken (s ++ t) :=
  ⟨List.append_ne_nil_of_left_ne_nil hs.1 t,
    fun c hc => (List.mem_append.1 hc).elim (hs.2 c) (ht.2 c)⟩

/-- There is no blank in a token. -/
theorem IsToken.not_mem_blank {s : List Char} (h : IsToken s) {c : Char} (hc : isBlank c = true) :
    c ∉ s := fun hmem => by
  rw [h.2 c hmem] at hc
  cases hc

/-- A token is a single word. -/
theorem IsToken.words {s : List Char} (h : IsToken s) : words s = [s] :=
  words_of_blank_free h.2 h.1

/-- Tokens with a blank between them are the words of the text. -/
theorem words_intercalate {tokens : List (List Char)} (h : ∀ token ∈ tokens, IsToken token) :
    words ([' '].intercalate tokens) = tokens := by
  induction tokens with
  | nil => rfl
  | cons token rest ih =>
    have htoken : IsToken token := h token List.mem_cons_self
    have hrest := ih fun other hother => h other (List.mem_cons_of_mem token hother)
    cases rest with
    | nil => simpa using htoken.words
    | cons next more =>
      have hblank : isBlank ' ' = true := by decide
      rw [List.intercalate_cons_cons, List.append_assoc, List.singleton_append,
        words_append_blank hblank, hrest, htoken.words]
      rfl

/-- A character of joined tokens is the separator or stands in one of them. -/
theorem mem_of_mem_intercalate {separator : Char} {tokens : List (List Char)} {c : Char}
    (h : c ∈ [separator].intercalate tokens) : c = separator ∨ ∃ token ∈ tokens, c ∈ token := by
  induction tokens with
  | nil => cases h
  | cons token rest ih =>
    cases rest with
    | nil => exact .inr ⟨token, List.mem_cons_self, by simpa using h⟩
    | cons next more =>
      rw [List.intercalate_cons_cons, List.append_assoc, List.mem_append] at h
      rcases h with htoken | hrest
      · exact .inr ⟨token, List.mem_cons_self, htoken⟩
      · rcases List.mem_cons.1 hrest with hseparator | hrest
        · exact .inl hseparator
        · rcases ih hrest with hseparator | ⟨other, hother, hc⟩
          · exact .inl hseparator
          · exact .inr ⟨other, List.mem_cons_of_mem token hother, hc⟩

/-- Tokens with blanks between them do not end in a blank. -/
theorem isBlank_last_intercalate {tokens : List (List Char)}
    (h : ∀ token ∈ tokens, IsToken token) :
    ∀ c ∈ ([' '].intercalate tokens).getLast?, isBlank c = false := by
  induction tokens with
  | nil =>
    intro c hc
    cases hc
  | cons token rest ih =>
    have htoken : IsToken token := h token List.mem_cons_self
    have hrest := ih fun other hother => h other (List.mem_cons_of_mem token hother)
    intro c hc
    cases rest with
    | nil =>
      rw [List.intercalate_singleton] at hc
      exact htoken.2 c (List.mem_of_getLast? hc)
    | cons next more =>
      have hne : [' '].intercalate (next :: more) ≠ [] := by
        intro hnil
        have hwords := words_intercalate fun other hother =>
          h other (List.mem_cons_of_mem token hother)
        rw [hnil] at hwords
        cases hwords
      rw [List.intercalate_cons_cons, List.append_assoc, List.getLast?_append,
        List.singleton_append, List.getLast?_cons_of_ne_nil hne] at hc
      cases hlast : ([' '].intercalate (next :: more)).getLast? with
      | none => exact absurd (List.getLast?_eq_none_iff.1 hlast) hne
      | some d =>
        rw [hlast] at hc
        cases hc
        exact hrest _ hlast

/-! ## Trimming -/

/-- Blanks at the end make no difference to a text without those. -/
theorem trimEnd_append_blanks {blanks : List Char} (h : ∀ c ∈ blanks, isBlank c = true)
    (s : List Char) : trimEnd (s ++ blanks) = trimEnd s := by
  have hreverse : ∀ c ∈ blanks.reverse, isBlank c = true := fun c hc =>
    h c (List.mem_reverse.1 hc)
  simp only [trimEnd, List.reverse_append, List.dropWhile_append_of_pos hreverse]

/-- Blanks behind a text are trimmed, whatever the text ends in itself. -/
theorem trim_append_of_blanks {blanks : List Char} (h : ∀ c ∈ blanks, isBlank c = true)
    (s : List Char) : trim (s ++ blanks) = trim s := by
  have hnone : trimStart blanks = [] := by
    have hblanks : trimStart (blanks ++ []) = trimStart [] := List.dropWhile_append_of_pos h
    rwa [List.append_nil] at hblanks
  have hboth : trimStart (s ++ blanks) =
      if (trimStart s).isEmpty then trimStart blanks else trimStart s ++ blanks :=
    List.dropWhile_append
  rw [trim, trim, hboth]
  split
  · next hs => rw [hnone, List.isEmpty_iff.1 hs]
  · exact trimEnd_append_blanks h _

/-- Trimming takes the blanks behind a text off, and leaves one that neither starts nor ends with a
blank. -/
theorem trim_append_blanks {s blanks : List Char} (h : ∀ c ∈ blanks, isBlank c = true)
    (hfirst : ∀ c ∈ s.head?, isBlank c = false) (hlast : ∀ c ∈ s.getLast?, isBlank c = false) :
    trim (s ++ blanks) = s :=
  (trim_append_of_blanks h s).trans (trim_eq_self hfirst hlast)

/-- There is nothing to trim off a token. -/
theorem IsToken.trim {s : List Char} (h : IsToken s) : trim s = s :=
  trim_eq_self (fun c hc => h.2 c (List.mem_of_head? hc))
    (fun c hc => h.2 c (List.mem_of_getLast? hc))

end TernaryMachine.Text
