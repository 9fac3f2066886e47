/-!
# Blanks

A blank is a character with the Unicode property `White_Space`.  Text is trimmed and cut into
words at blanks.  Text is handled as a list of characters; `trim_eq_self` says when trimming
changes nothing, and `words_of_blank_free` that a text without blanks is one word.
-/

set_option autoImplicit false

namespace TernaryMachine.Text

/-- Whether a character has the Unicode property `White_Space`. -/
def isBlank (c : Char) : Bool :=
  let n := c.toNat
  (0x09 ≤ n && n ≤ 0x0D) || n == 0x20 || n == 0x85 || n == 0xA0 || n == 0x1680 ||
    (0x2000 ≤ n && n ≤ 0x200A) || n == 0x2028 || n == 0x2029 || n == 0x202F || n == 0x205F ||
    n == 0x3000

/-- A text without the blanks at its start. -/
def trimStart (s : List Char) : List Char := s.dropWhile isBlank

/-- A text without the blanks at its end. -/
def trimEnd (s : List Char) : List Char := (s.reverse.dropWhile isBlank).reverse

/-- A text without the blanks at either end. -/
def trim (s : List Char) : List Char := trimEnd (trimStart s)

/-- The maximal runs of characters that are not blank, when `run` is the one being read. -/
def wordsFrom (run : List Char) : List Char → List (List Char)
  | [] => if run.isEmpty then [] else [run.reverse]
  | c :: rest =>
    if isBlank c then
      if run.isEmpty then wordsFrom [] rest else run.reverse :: wordsFrom [] rest
    else wordsFrom (c :: run) rest

/-- The maximal runs of characters that are not blank, in order. -/
def words (s : List Char) : List (List Char) := wordsFrom [] s

/-- The lines of a text, without their line feeds. -/
def lines : List Char → List (List Char)
  | [] => [[]]
  | c :: rest =>
    if c = '\n' then [] :: lines rest
    else match lines rest with
      | [] => [[c]]
      | line :: more => (c :: line) :: more

/-- Trimming leaves a start that is no blank. -/
theorem trimStart_of_head {c : Char} {s : List Char} (h : isBlank c = false) :
    trimStart (c :: s) = c :: s := by
  simp [trimStart, h]

/-- Trimming leaves an end that is no blank. -/
theorem trimEnd_append_of_last {c : Char} {s : List Char} (h : isBlank c = false) :
    trimEnd (s ++ [c]) = s ++ [c] := by
  simp [trimEnd, h]

/-- Without a blank, what is left of a text only makes the word at hand longer. -/
theorem wordsFrom_of_blank_free {run s : List Char} (h : ∀ c ∈ s, isBlank c = false) :
    wordsFrom run s = if run.isEmpty ∧ s.isEmpty then [] else [run.reverse ++ s] := by
  induction s generalizing run with
  | nil => cases run <;> simp [wordsFrom]
  | cons c s ih =>
    have hc : isBlank c = false := h c (by simp)
    have hs : ∀ d ∈ s, isBlank d = false := fun d hd => h d (by simp [hd])
    simp [wordsFrom, hc, ih hs]

/-- A text without blanks is one word, unless it is empty. -/
theorem words_of_blank_free {s : List Char} (h : ∀ c ∈ s, isBlank c = false) (hs : s ≠ []) :
    words s = [s] := by
  cases s with
  | nil => exact absurd rfl hs
  | cons c s => simp [words, wordsFrom_of_blank_free h]

/-- A text that neither starts nor ends with a blank is left as it is. -/
theorem trim_eq_self {s : List Char} (hs : ∀ c ∈ s.head?, isBlank c = false)
    (he : ∀ c ∈ s.getLast?, isBlank c = false) : trim s = s := by
  have hstart : trimStart s = s := by
    cases s with
    | nil => rfl
    | cons c s => exact trimStart_of_head (hs c (by simp))
  rw [trim, hstart]
  rcases List.eq_nil_or_concat s with rfl | ⟨front, last, rfl⟩
  · rfl
  · rw [List.concat_eq_append] at he ⊢
    exact trimEnd_append_of_last (he last (by simp))

end TernaryMachine.Text
