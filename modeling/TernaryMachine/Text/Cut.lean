/-!
# Cutting a text

`cut?` divides a text at the first place where a pattern stands.  `eq_of_cut?` says that the
two parts with the pattern between them are the text, `length_le_of_cut?` that the pattern stands
nowhere before, and `cut?_eq_none_iff` that cutting fails just when the pattern stands nowhere.
`cut?_eq_some_iff` puts these together, and `cut?_of_not_mem` cuts a text that was put together
from two parts and the pattern.
-/

set_option autoImplicit false

namespace TernaryMachine.Text

/-- The text before and behind the first place where the pattern stands. -/
def cut? (pattern : List Char) : List Char → Option (List Char × List Char)
  | [] => if pattern.isEmpty then some ([], []) else none
  | c :: rest =>
    if pattern.isPrefixOf (c :: rest) then some ([], (c :: rest).drop pattern.length)
    else (cut? pattern rest).map fun (before, behind) => (c :: before, behind)

/-- The two parts with the pattern between them are the text that was cut. -/
theorem eq_of_cut? {pattern s before behind : List Char}
    (h : cut? pattern s = some (before, behind)) : s = before ++ pattern ++ behind := by
  induction s generalizing before with
  | nil => cases pattern <;> simp_all [cut?]
  | cons c s ih =>
    unfold cut? at h
    split at h
    · next hstart =>
      obtain ⟨rfl, rfl⟩ := by simpa using h
      simpa using (List.prefix_iff_eq_append.1 (List.isPrefixOf_iff_prefix.1 hstart)).symm
    · obtain ⟨⟨b, d⟩, hcut, heq⟩ := Option.map_eq_some_iff.1 h
      obtain ⟨rfl, rfl⟩ := by simpa using heq
      rw [ih hcut]
      simp

/-- Cutting fails just when the pattern stands nowhere in the text. -/
theorem cut?_eq_none_iff {pattern s : List Char} :
    cut? pattern s = none ↔ ∀ before behind, s ≠ before ++ pattern ++ behind := by
  induction s with
  | nil => cases pattern <;> simp [cut?]
  | cons c s ih =>
    unfold cut?
    split
    · next hstart =>
      obtain ⟨behind, heq⟩ := List.isPrefixOf_iff_prefix.1 hstart
      simp only [reduceCtorEq, false_iff]
      exact fun h => h [] behind (by simp [heq])
    · next hstart =>
      rw [Option.map_eq_none_iff, ih]
      constructor
      · intro h before behind hs
        cases before with
        | nil => exact hstart (List.isPrefixOf_iff_prefix.2 ⟨behind, by simp [hs]⟩)
        | cons d before =>
          simp only [List.cons_append, List.cons.injEq] at hs
          exact h before behind (by simpa using hs.2)
      · intro h before behind hs
        exact h (c :: before) behind (by simp [hs])

/-- The pattern stands nowhere before the place of the cut. -/
theorem length_le_of_cut? {pattern s before behind front back : List Char}
    (h : cut? pattern s = some (before, behind)) (hs : s = front ++ pattern ++ back) :
    before.length ≤ front.length := by
  induction s generalizing before front with
  | nil =>
    have hbefore := congrArg List.length (eq_of_cut? h)
    simp only [List.length_nil, List.length_append] at hbefore
    omega
  | cons c s ih =>
    unfold cut? at h
    split at h
    · obtain ⟨rfl, -⟩ := by simpa using h
      exact Nat.zero_le _
    · next hstart =>
      obtain ⟨⟨b, d⟩, hcut, heq⟩ := Option.map_eq_some_iff.1 h
      obtain ⟨rfl, rfl⟩ := by simpa using heq
      cases front with
      | nil => exact absurd (List.isPrefixOf_iff_prefix.2 ⟨back, by simp [hs]⟩) hstart
      | cons e front =>
        simp only [List.cons_append, List.cons.injEq] at hs
        exact Nat.succ_le_succ (ih hcut hs.2)

/-- A text is cut where the pattern stands and does not stand before. -/
theorem cut?_eq_some_iff {pattern s before behind : List Char} :
    cut? pattern s = some (before, behind) ↔
      s = before ++ pattern ++ behind ∧
        ∀ front back, s = front ++ pattern ++ back → before.length ≤ front.length := by
  constructor
  · exact fun h => ⟨eq_of_cut? h, fun _ _ => length_le_of_cut? h⟩
  · rintro ⟨hs, hfirst⟩
    cases hcut : cut? pattern s with
    | none => exact absurd hs (cut?_eq_none_iff.1 hcut before behind)
    | some parts =>
      obtain ⟨front, back⟩ := parts
      have hparts := eq_of_cut? hcut
      have hlength : before.length = front.length :=
        Nat.le_antisymm (hfirst front back hparts) (length_le_of_cut? hcut hs)
      rw [hs, List.append_assoc, List.append_assoc] at hparts
      obtain ⟨rfl, hrest⟩ := List.append_inj hparts hlength
      rw [List.append_cancel_left hrest]

/-- Behind a text without the first character of the pattern, the pattern is found at once. -/
theorem cut?_of_not_mem {c : Char} {pattern front : List Char} (h : c ∉ front)
    (back : List Char) :
    cut? (c :: pattern) (front ++ c :: pattern ++ back) = some (front, back) := by
  simp only [List.append_assoc, List.cons_append]
  induction front with
  | nil =>
    have hstart : (c :: pattern).isPrefixOf (c :: (pattern ++ back)) = true :=
      List.isPrefixOf_iff_prefix.2 ⟨back, rfl⟩
    rw [List.nil_append, cut?, if_pos hstart]
    simp
  | cons d front ih =>
    have hne : c ≠ d := fun heq => h (heq ▸ List.mem_cons_self)
    have hfront : c ∉ front := fun hmem => h (List.mem_cons_of_mem d hmem)
    have hstart : ¬ (c :: pattern).isPrefixOf (d :: (front ++ c :: (pattern ++ back))) = true := by
      simp [hne]
    rw [List.cons_append, cut?, if_neg hstart, ih hfront]
    rfl

end TernaryMachine.Text
