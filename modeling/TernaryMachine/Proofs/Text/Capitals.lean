import TernaryMachine.Text.Blank
import TernaryMachine.Text.Capital

/-!
# What capital forms are made of

No character of a capital form is a blank, unless it stands for a blank, and none is a small ASCII
letter.  Both are read off the tables once (`isSettled_capitalSpellings`, `isSettled_capitalRuns`);
what a text keeps in its capital form follows from them.
-/

set_option autoImplicit false

namespace TernaryMachine.Text

/-- Whether a character is neither a blank nor a small ASCII letter. -/
def isSettled (c : Char) : Bool := !isBlank c && c.toUpper == c

/-- The letters that spell out have settled capitals, at least one, and are no blanks. -/
theorem isSettled_capitalSpellings :
    ∀ entry ∈ capitalSpellings, isBlank (Char.ofNat entry.1) = false ∧ entry.2 ≠ [] ∧
      ∀ code ∈ entry.2, isSettled (Char.ofNat code) = true := by
  decide +kernel

/-- The letters in runs have a settled capital and are no blanks. -/
theorem isSettled_capitalRuns :
    ∀ entry ∈ capitalRuns, ∀ k < entry.2.1 + 1 - entry.1,
      isBlank (Char.ofNat (entry.1 + k)) = false ∧
        isSettled (Char.ofNat (((entry.1 + k : Nat) : Int) + entry.2.2.2).toNat) = true := by
  decide +kernel

/-- The capital of an ASCII character is settled, and a blank just when the character is. -/
theorem isSettled_capital_ofNat :
    ∀ n < 0x80, (Char.ofNat n).toUpper.toUpper = (Char.ofNat n).toUpper ∧
      isBlank (Char.ofNat n).toUpper = isBlank (Char.ofNat n) := by
  decide +kernel

/-- A character outside ASCII is its own capital, or it is no blank and its capital form is neither
empty nor made of anything but settled characters. -/
theorem capitalBeyondAscii_cases (c : Char) :
    capitalBeyondAscii c = [c] ∨ (isBlank c = false ∧ capitalBeyondAscii c ≠ [] ∧
      ∀ d ∈ capitalBeyondAscii c, isSettled d = true) := by
  have hself : Char.ofNat c.toNat = c := Char.ofNat_toNat c
  generalize hcapital : capitalBeyondAscii c = row
  simp only [capitalBeyondAscii] at hcapital
  split at hcapital
  · next entry hspelling =>
    have hkey : entry.1 = c.toNat := by simpa using List.find?_some hspelling
    obtain ⟨hblank, hne, hall⟩ :=
      isSettled_capitalSpellings entry (List.mem_of_find?_eq_some hspelling)
    rw [hkey, hself] at hblank
    rw [← hcapital]
    refine .inr ⟨hblank, by simpa using hne, ?_⟩
    intro d hd
    obtain ⟨code, hcode, rfl⟩ := List.mem_map.1 hd
    exact hall code hcode
  · split at hcapital
    · next first last stride shift hrun =>
      have hrange := List.find?_some hrun
      simp only [Bool.and_eq_true, decide_eq_true_eq] at hrange
      obtain ⟨⟨hfirst, hlast⟩, -⟩ := hrange
      obtain ⟨hblank, hsettled⟩ := isSettled_capitalRuns _ (List.mem_of_find?_eq_some hrun)
        (c.toNat - first) (by show c.toNat - first < last + 1 - first; omega)
      have hcode : first + (c.toNat - first) = c.toNat := by omega
      simp only [hcode, hself] at hblank hsettled
      rw [← hcapital]
      refine .inr ⟨hblank, List.cons_ne_nil _ _, ?_⟩
      intro d hd
      rw [List.mem_singleton.1 hd]
      exact hsettled
    · exact .inl hcapital.symm

/-- A capital form has at least one character. -/
theorem capital_ne_nil (c : Char) : capital c ≠ [] := by
  unfold capital
  split
  · exact List.cons_ne_nil _ _
  · rcases capitalBeyondAscii_cases c with hself | ⟨-, hne, -⟩
    · rw [hself]
      exact List.cons_ne_nil _ _
    · exact hne

/-- A capital form is of blanks just when the character is a blank. -/
theorem isBlank_of_mem_capital {c d : Char} (h : d ∈ capital c) : isBlank d = isBlank c := by
  unfold capital at h
  split at h
  · next hascii =>
    rw [List.mem_singleton.1 h]
    have hblank := (isSettled_capital_ofNat c.toNat hascii).2
    rwa [Char.ofNat_toNat] at hblank
  · rcases capitalBeyondAscii_cases c with hself | ⟨hblank, -, hall⟩
    · rw [hself] at h
      rw [List.mem_singleton.1 h]
    · have hd := hall d h
      simp only [isSettled, Bool.and_eq_true, Bool.not_eq_true'] at hd
      rw [hd.1, hblank]

/-- Making a capital form capital once more changes nothing. -/
theorem toUpper_of_mem_capital {c d : Char} (h : d ∈ capital c) : d.toUpper = d := by
  unfold capital at h
  split at h
  · next hascii =>
    rw [List.mem_singleton.1 h]
    have hupper := (isSettled_capital_ofNat c.toNat hascii).1
    rwa [Char.ofNat_toNat] at hupper
  · next hbeyond =>
    rcases capitalBeyondAscii_cases c with hself | ⟨-, -, hall⟩
    · rw [hself] at h
      rw [List.mem_singleton.1 h]
      have hletter : ¬ (97 ≤ c.toNat ∧ c.toNat ≤ 122) := by omega
      exact dif_neg hletter
    · have hd := hall d h
      simp only [isSettled, Bool.and_eq_true, beq_iff_eq] at hd
      exact hd.2

/-! ## Capital forms of texts -/

/-- Making the capital form of a text capital once more changes nothing. -/
theorem map_toUpper_capitals (s : List Char) : (capitals s).map Char.toUpper = capitals s := by
  have hfixed : ∀ d ∈ capitals s, d.toUpper = id d := by
    intro d hd
    obtain ⟨c, -, hmem⟩ := List.mem_flatMap.1 hd
    exact toUpper_of_mem_capital hmem
  rw [List.map_congr_left hfixed, List.map_id]

/-- Only the empty text has an empty capital form. -/
theorem capitals_eq_nil_iff {s : List Char} : capitals s = [] ↔ s = [] := by
  cases s with
  | nil => simp [capitals]
  | cons c s => simp [capitals, capital_ne_nil]

/-- A text has a blank just when its capital form has one. -/
theorem any_isBlank_capitals (s : List Char) : (capitals s).any isBlank = s.any isBlank := by
  induction s with
  | nil => rfl
  | cons c s ih =>
    have hc : (capital c).any isBlank = isBlank c := by
      obtain ⟨d, rest, hd⟩ := List.exists_cons_of_ne_nil (capital_ne_nil c)
      rw [Bool.eq_iff_iff, List.any_eq_true]
      constructor
      · rintro ⟨e, he, hblank⟩
        rwa [isBlank_of_mem_capital he] at hblank
      · intro hblank
        have hmem : d ∈ capital c := by simp [hd]
        exact ⟨d, hmem, by rwa [isBlank_of_mem_capital hmem]⟩
    simp only [capitals] at ih
    rw [capitals, List.flatMap_cons, List.any_append, hc, ih, List.any_cons]

end TernaryMachine.Text
