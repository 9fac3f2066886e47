import TernaryMachine.Proofs.Text.Split

/-!
# Words and the blanks around them

Blanks at either end of a text make no difference to its words (`words_trim`), and a text is a
single word just when that is what trimming leaves of it (`words_eq_singleton_iff`).

A character that is no blank stops the trimming: in front of it only the start is trimmed, behind it
only the end (`trim_append_mark`).
-/

set_option autoImplicit false

namespace TernaryMachine.Text

/-! ## Words -/

/-- Only blanks have no word in them, with none at hand. -/
theorem wordsFrom_eq_nil {run s : List Char} (h : wordsFrom run s = []) :
    run = [] ∧ ∀ c ∈ s, isBlank c = true := by
  induction s generalizing run with
  | nil => cases run <;> simp_all [wordsFrom]
  | cons c s ih =>
    by_cases hc : isBlank c = true
    · cases run with
      | nil =>
        have hrest := ih (by simpa [wordsFrom, hc] using h)
        exact ⟨rfl, List.forall_mem_cons.2 ⟨hc, hrest.2⟩⟩
      | cons d run => simp [wordsFrom, hc] at h
    · have hrun := ih (by simpa [wordsFrom, hc] using h)
      cases hrun.1

/-- There are no words in blanks. -/
theorem words_of_blanks {s : List Char} (h : ∀ c ∈ s, isBlank c = true) : words s = [] := by
  induction s with
  | nil => rfl
  | cons c s ih =>
    obtain ⟨hc, hs⟩ := List.forall_mem_cons.1 h
    rw [words_cons_blank hc, ih hs]

/-- Blanks behind a text make no difference to its words. -/
theorem words_append_blanks {blanks : List Char} (h : ∀ c ∈ blanks, isBlank c = true)
    (s : List Char) : words (s ++ blanks) = words s := by
  cases blanks with
  | nil => rw [List.append_nil]
  | cons c rest =>
    obtain ⟨hc, hrest⟩ := List.forall_mem_cons.1 h
    rw [words_append_blank hc, words_of_blanks hrest, List.append_nil]

/-- Blanks in front of a text make no difference to its words. -/
theorem words_blanks_append {blanks : List Char} (h : ∀ c ∈ blanks, isBlank c = true)
    (s : List Char) : words (blanks ++ s) = words s := by
  induction blanks with
  | nil => rfl
  | cons c rest ih =>
    obtain ⟨hc, hrest⟩ := List.forall_mem_cons.1 h
    rw [List.cons_append, words_cons_blank hc, ih hrest]

/-- Trimming the start of a text leaves its words. -/
theorem words_trimStart (s : List Char) : words (trimStart s) = words s := by
  induction s with
  | nil => rfl
  | cons c s ih =>
    by_cases hc : isBlank c = true
    · rw [words_cons_blank hc, ← ih, trimStart, List.dropWhile_cons_of_pos hc]
      rfl
    · rw [trimStart_of_head (Bool.not_eq_true _ ▸ hc)]

/-- Trimming the end of a text takes nothing but blanks. -/
theorem eq_trimEnd_append (s : List Char) :
    ∃ blanks, s = trimEnd s ++ blanks ∧ ∀ c ∈ blanks, isBlank c = true := by
  refine ⟨(s.reverse.takeWhile isBlank).reverse, ?_, ?_⟩
  · rw [trimEnd, ← List.reverse_append, List.takeWhile_append_dropWhile, List.reverse_reverse]
  · intro c hc
    exact List.all_eq_true.1 List.all_takeWhile c (List.mem_reverse.1 hc)

/-- Trimming takes blanks off a text, at both ends. -/
theorem eq_append_trim (s : List Char) :
    ∃ front back, s = front ++ trim s ++ back ∧ (∀ c ∈ front, isBlank c = true) ∧
      ∀ c ∈ back, isBlank c = true := by
  obtain ⟨back, hback, hblanks⟩ := eq_trimEnd_append (trimStart s)
  refine ⟨s.takeWhile isBlank, back, ?_, ?_, hblanks⟩
  · rw [trim, List.append_assoc, ← hback, trimStart, List.takeWhile_append_dropWhile]
  · exact fun c hc => List.all_eq_true.1 List.all_takeWhile c hc

/-- Trimming the end of a text leaves its words. -/
theorem words_trimEnd (s : List Char) : words (trimEnd s) = words s := by
  obtain ⟨blanks, hs, hblanks⟩ := eq_trimEnd_append s
  rw [← words_append_blanks hblanks (trimEnd s), ← hs]

/-- Trimming a text leaves its words. -/
theorem words_trim (s : List Char) : words (trim s) = words s := by
  rw [trim, words_trimEnd, words_trimStart]

/-- A text with one word is that word with blanks around it.  The word may already have begun. -/
theorem wordsFrom_eq_singleton {run s token : List Char} (hrun : ∀ c ∈ run, isBlank c = false)
    (h : wordsFrom run s = [token]) : ∃ before behind,
      run.reverse ++ s = before ++ (token ++ behind) ∧ (∀ c ∈ before, isBlank c = true) ∧
        (∀ c ∈ behind, isBlank c = true) ∧ IsToken token := by
  induction s generalizing run with
  | nil =>
    cases run with
    | nil => cases h
    | cons d run =>
      have htoken : (d :: run).reverse = token := (List.cons.inj h).1
      have hfree : ∀ c ∈ token, isBlank c = false := fun c hc =>
        hrun c (List.mem_reverse.1 (htoken ▸ hc))
      refine ⟨[], [], by simp [← htoken], List.forall_mem_nil _, List.forall_mem_nil _, ?_, hfree⟩
      rw [← htoken]
      simp
  | cons c s ih =>
    by_cases hc : isBlank c = true
    · cases run with
      | nil =>
        have hrest : wordsFrom [] s = [token] := by simpa [wordsFrom, hc] using h
        obtain ⟨before, behind, hs, hbefore, hbehind, htoken⟩ := ih (List.forall_mem_nil _) hrest
        refine ⟨c :: before, behind, ?_, List.forall_mem_cons.2 ⟨hc, hbefore⟩, hbehind, htoken⟩
        rw [List.reverse_nil, List.nil_append] at hs ⊢
        rw [hs, List.cons_append]
      | cons d run =>
        have hwords : (d :: run).reverse :: wordsFrom [] s = [token] := by
          simpa [wordsFrom, hc] using h
        obtain ⟨htoken, hrest⟩ := List.cons.inj hwords
        obtain ⟨-, hblanks⟩ := wordsFrom_eq_nil hrest
        have hfree : ∀ c ∈ token, isBlank c = false := fun c hc =>
          hrun c (List.mem_reverse.1 (htoken ▸ hc))
        refine ⟨[], c :: s, by rw [← htoken]; rfl, List.forall_mem_nil _,
          List.forall_mem_cons.2 ⟨hc, hblanks⟩, ?_, hfree⟩
        rw [← htoken]
        simp
    · have hfree : isBlank c = false := Bool.not_eq_true _ ▸ hc
      have hrest : wordsFrom (c :: run) s = [token] := by simpa [wordsFrom, hc] using h
      obtain ⟨before, behind, hs, hbounds⟩ := ih (List.forall_mem_cons.2 ⟨hfree, hrun⟩) hrest
      refine ⟨before, behind, ?_, hbounds⟩
      rw [← hs, List.reverse_cons, List.append_assoc]
      rfl

/-- A token is what is left when the blanks around it are trimmed off. -/
theorem trim_append_blanks_token {before token behind : List Char}
    (hbefore : ∀ c ∈ before, isBlank c = true) (hbehind : ∀ c ∈ behind, isBlank c = true)
    (htoken : IsToken token) : trim (before ++ (token ++ behind)) = token := by
  have hstart : trimStart (before ++ (token ++ behind)) = trimStart (token ++ behind) :=
    List.dropWhile_append_of_pos hbefore
  rw [trim, hstart]
  exact trim_append_blanks hbehind (fun c hc => htoken.2 c (List.mem_of_head? hc))
    (fun c hc => htoken.2 c (List.mem_of_getLast? hc))

/-- A text is a single word just when trimming leaves that word. -/
theorem words_eq_singleton_iff {s token : List Char} :
    words s = [token] ↔ trim s = token ∧ IsToken token := by
  constructor
  · intro h
    obtain ⟨before, behind, hs, hbefore, hbehind, htoken⟩ :=
      wordsFrom_eq_singleton (List.forall_mem_nil _) h
    rw [List.reverse_nil, List.nil_append] at hs
    exact ⟨hs ▸ trim_append_blanks_token hbefore hbehind htoken, htoken⟩
  · rintro ⟨rfl, htoken⟩
    rw [← words_trim, htoken.words]

/-! ## Trimming around a mark -/

/-- What stands behind a mark has nothing to do with trimming the start. -/
theorem trimStart_append_mark {mark : Char} (h : isBlank mark = false) (front body : List Char) :
    trimStart (front ++ mark :: body) = trimStart front ++ mark :: body := by
  rw [trimStart, List.dropWhile_append]
  split
  · next hempty =>
    have hnil : trimStart front = [] := List.isEmpty_iff.1 hempty
    rw [hnil]
    exact trimStart_of_head h
  · rfl

/-- What stands before a mark has nothing to do with trimming the end. -/
theorem trimEnd_append_mark {mark : Char} (h : isBlank mark = false) (front body : List Char) :
    trimEnd (front ++ mark :: body) = front ++ mark :: trimEnd body := by
  have hstart := trimStart_append_mark h body.reverse front.reverse
  have hreverse : (front ++ mark :: body).reverse = body.reverse ++ mark :: front.reverse := by simp
  rw [trimEnd, hreverse]
  simp only [trimStart] at hstart
  rw [hstart, trimEnd]
  simp

/-- Trimming stops at a mark from either side. -/
theorem trim_append_mark {mark : Char} (h : isBlank mark = false) (front body : List Char) :
    trim (front ++ mark :: body) = trimStart front ++ mark :: trimEnd body := by
  rw [trim, trimStart_append_mark h, trimEnd_append_mark h]

/-- Trimming the start of a text brings no character into it. -/
theorem mem_of_mem_trimStart {s : List Char} {c : Char} (h : c ∈ trimStart s) : c ∈ s :=
  (List.dropWhile_sublist isBlank).mem h

/-- Trimming a text brings no character into it. -/
theorem mem_of_mem_trim {s : List Char} {c : Char} (h : c ∈ trim s) : c ∈ s := by
  refine mem_of_mem_trimStart (?_ : c ∈ trimStart s)
  have hreverse : c ∈ (trimStart s).reverse.dropWhile isBlank := List.mem_reverse.1 h
  exact List.mem_reverse.1 ((List.dropWhile_sublist isBlank).mem hreverse)

/-- Trimming only the start first makes no difference. -/
theorem trim_trimStart (s : List Char) : trim (trimStart s) = trim s := by
  have hself : trimStart (trimStart s) = trimStart s := by
    cases hs : trimStart s with
    | nil => rfl
    | cons c rest =>
      have hfirst := List.head?_dropWhile_not isBlank s
      have hhead : (s.dropWhile isBlank).head? = some c := congrArg List.head? hs
      rw [hhead] at hfirst
      exact trimStart_of_head (by simpa using hfirst)
  rw [trim, hself, trim]

end TernaryMachine.Text
