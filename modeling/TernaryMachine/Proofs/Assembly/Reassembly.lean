import TernaryMachine.Assembly.Assemble
import TernaryMachine.Proofs.Assembly.ItemText

/-!
# Assembling a listing

A listing text is an assembly text: the addresses are labels, the numerals of the words are
comments, and what stands between them are statements.  `readLine_row` says what one line adds to
the draft, and `draft_rows` follows the first pass along the listing, by the recursion of
`Listing.entriesFrom`.  No operand names a label, so the second pass has nothing to do.

Only an instruction whose operand is missing is written in a form that is not read, and it can
only stand on the last line.
-/

set_option autoImplicit false

namespace TernaryMachine

namespace Listing

/-! ## The lines of a listing text -/

/-- A line of a listing text without its line feed. -/
def row (entry : ListingEntry) : List Char :=
  (Text.address entry.address).toList ++ ':' :: ' ' :: entry.item.text.toList ++
    (List.replicate (12 - entry.item.text.length) ' ' ++ [' ']) ++
    ';' :: ' ' :: (" ".intercalate (entry.item.words.map Numeral.render)).toList

/-- A line of a listing is the row of its entry and a line feed. -/
theorem toList_line (entry : ListingEntry) : (line entry).toList = row entry ++ ['\n'] := by
  simp [line, row, Text.padRight, String.toList_append]

/-- There is no line feed among the numerals of words. -/
theorem feed_not_mem_numerals (words : List Word) :
    '\n' ∉ (" ".intercalate (words.map Numeral.render)).toList := by
  rw [String.toList_intercalate]
  intro hfeed
  rcases Text.mem_of_mem_intercalate hfeed with hblank | ⟨numeral, hnumeral, hmem⟩
  · revert hblank
    decide
  · simp only [List.map_map, List.mem_map] at hnumeral
    obtain ⟨w, -, rfl⟩ := hnumeral
    simp only [Function.comp_apply, Numeral.render, String.toList_ofList] at hmem
    obtain ⟨t, -, hglyph⟩ := List.mem_map.1 hmem
    cases t <;> revert hglyph <;> decide

/-- There is no line feed within a row. -/
theorem feed_not_mem_row (entry : ListingEntry) : '\n' ∉ row entry := by
  have haddress : '\n' ∉ (Text.address entry.address).toList :=
    Text.not_mem_address (by decide)
  have htext : '\n' ∉ entry.item.text.toList := Item.not_mem_text (by decide) (by decide)
  have hnumerals := feed_not_mem_numerals entry.item.words
  simp only [row, List.mem_append, List.mem_cons, List.mem_replicate, haddress, htext, hnumerals]
  simp

/-- The lines of the header, the empty one included. -/
def headerRows : List (List Char) :=
  ["; tritvm disassembly".toList, "; ------------------".toList, []]

/-- The lines of a listing are the header, a row for each entry, and an empty line at the end. -/
theorem lines_render (words : List Word) :
    Text.lines (render words).toList = headerRows ++ (entries words).map row ++ [[]] := by
  have hheader : header.toList = headerRows.flatMap (· ++ ['\n']) := by decide
  have hrows : ((entries words).map line).flatMap String.toList =
      ((entries words).map row).flatMap (· ++ ['\n']) := by
    simp only [List.flatMap_map, toList_line]
  rw [render, String.toList_append, String.toList_join, hheader, hrows, ← List.flatMap_append]
  refine Text.lines_flatMap ?_
  have hplain : ∀ line ∈ headerRows, '\n' ∉ line := by decide
  intro line hline
  rcases List.mem_append.1 hline with hline | hline
  · exact hplain line hline
  · obtain ⟨entry, -, rfl⟩ := List.mem_map.1 hline
    exact feed_not_mem_row entry

/-- The address of an entry is read as the label, its numerals as the comment. -/
theorem split_row (entry : ListingEntry) (rest : List Char) :
    Line.split (row entry ++ rest) =
      .ok (some (Text.address entry.address), ' ' :: entry.item.text.toList) := by
  have hdigits : ∀ c ∈ (Text.address entry.address).toList, c.isDigit = true :=
    fun _ hc => Text.isDigit_of_mem_address hc
  have hrow : row entry ++ rest =
      (Text.address entry.address).toList ++ ':' :: (' ' :: entry.item.text.toList) ++
        (List.replicate (12 - entry.item.text.length) ' ' ++ [' ']) ++
        ';' :: (' ' :: (" ".intercalate (entry.item.words.map Numeral.render)).toList ++ rest) := by
    simp [row]
  rw [hrow]
  refine Line.split_of_label (Text.isToken_address entry.address)
    (Text.capitals_of_digits hdigits) (Text.not_mem_address (by decide)) ?_ ?_ ?_
  · have haddress : ';' ∉ (Text.address entry.address).toList :=
      Text.not_mem_address (by decide)
    have htext : ';' ∉ entry.item.text.toList := Item.not_mem_text (by decide) (by decide)
    simp [haddress, htext]
  · rw [List.getLast?_cons_of_ne_nil entry.item.text_ne_nil]
    exact entry.item.isBlank_last_text
  · intro c hc
    rcases List.mem_append.1 hc with hpad | hlast
    · rw [List.eq_of_mem_replicate hpad]
      decide
    · rw [List.mem_singleton.1 hlast]
      decide

/-- Whether a listing ends in an instruction whose operand is missing. -/
def endsTruncated (entries : List ListingEntry) : Bool :=
  match entries.getLast? with
  | some ⟨_, .truncated _⟩ => true
  | _ => false

/-- In front of an entry that is complete, only the rest can end in a truncated one. -/
theorem endsTruncated_cons {entry : ListingEntry} (h : ∀ op, entry.item ≠ .truncated op)
    (rest : List ListingEntry) : endsTruncated (entry :: rest) = endsTruncated rest := by
  cases rest with
  | nil =>
    obtain ⟨address, item⟩ := entry
    cases item with
    | truncated op => exact absurd rfl (h op)
    | _ => rfl
  | cons next more =>
    rw [endsTruncated, endsTruncated, List.getLast?_cons_cons]

/-- The label of a line of a listing with the address that it stands for. -/
def label (entry : ListingEntry) : String × Nat := (Text.address entry.address, entry.address)

end Listing

/-! ## The first pass -/

namespace Assembly

open Listing

/-- A line without code leaves the symbols and fills no slot. -/
theorem readLine_of_no_code {line : List Char} (h : Line.code line = []) (symbols : Symbols)
    (number address : Nat) : readLine symbols number address line = .ok (symbols, []) := by
  have hsplit : Line.split line = .ok (none, []) := by
    simp only [Line.split, h]
    rfl
  simp only [readLine, hsplit, define]
  rfl

/-- A line of blanks and comment only moves the line numbers on. -/
theorem draft_of_no_code {line : List Char} (h : Line.code line = []) (symbols : Symbols)
    (number address : Nat) (rest : List (List Char)) :
    draft symbols number address (line :: rest) = draft symbols (number + 1) address rest := by
  rw [draft, readLine_of_no_code h]
  show (draft symbols (number + 1) address rest).map _ = _
  cases draft symbols (number + 1) address rest <;> rfl

/-- What a line of a listing adds to the draft. -/
theorem readLine_row {symbols : Symbols} (entry : ListingEntry)
    (hfree : symbols.lookup (Text.address entry.address) = none)
    (hitem : entry.item.WellFormed) (number address : Nat) :
    readLine symbols number address (row entry) =
      match entry.item.statement with
      | .error e => .error (e.atLine number)
      | .ok statement =>
        .ok ((Text.address entry.address, address) :: symbols,
          Slot.ofStatement number statement) := by
  have hsplit := split_row entry []
  rw [List.append_nil] at hsplit
  have hparse := Item.parse_text hitem
  cases hstatement : entry.item.statement <;>
    simp only [readLine, hsplit, define, hfree, hparse, hstatement]

/-- A complete item is assembled to its own words. -/
theorem slots_of_statement {item : Item} (hitem : item.WellFormed)
    (hcomplete : ∀ op, item ≠ .truncated op) :
    ∃ statement, item.statement = .ok statement ∧
      ∀ number, Slot.ofStatement number statement = item.words.map .word := by
  cases item with
  | plain op => exact ⟨.plain op, rfl, fun _ => rfl⟩
  | withOperand op operand => exact ⟨.withOperand op (.literal operand), rfl, fun _ => rfl⟩
  | truncated op => exact absurd rfl (hcomplete op)
  | data w => exact ⟨.datum (.literal w), rfl, fun _ => rfl⟩
  | nothing => cases hitem

/-- The symbols are free of the address labels from an address on. -/
def FreeFrom (symbols : Symbols) (address : Nat) : Prop :=
  ∀ a, address ≤ a → symbols.lookup (Text.address a) = none

/-- With the label of an address entered, the addresses behind are still free. -/
theorem FreeFrom.cons {symbols : Symbols} {address next : Nat} (h : FreeFrom symbols address)
    (hnext : address < next) : FreeFrom ((Text.address address, address) :: symbols) next := by
  intro a ha
  have hne : (Text.address a == Text.address address) = false := by
    rw [beq_eq_false_iff_ne]
    intro hsame
    have hequal := Text.address_injective hsame
    omega
  rw [List.lookup_cons, hne]
  exact h a (by omega)

/-- The first pass along a listing: all slots are words, unless the last line cannot be read. -/
theorem draft_rows (address : Nat) (words : List Word) (symbols : Symbols) (number : Nat)
    (hfree : FreeFrom symbols address) :
    draft symbols (number + 1) address ((entriesFrom address words).map row ++ [[]]) =
      if endsTruncated (entriesFrom address words) then
        .error (.malformed (number + (entriesFrom address words).length) (.badOperand "???"))
      else
        .ok (((entriesFrom address words).map label).reverse ++ symbols, words.map .word) := by
  fun_induction entriesFrom address words generalizing symbols number with
  | case1 address => exact draft_of_no_code rfl symbols (number + 1) address []
  | case2 address w rest item ih =>
    have hitem : item.WellFormed := Item.wellFormed_read w rest[0]?
    have hline := readLine_row ⟨address, item⟩ (hfree address (Nat.le_refl _)) hitem
      (number + 1) address
    rw [List.map_cons, List.cons_append, draft, hline]
    by_cases htruncated : ∃ op, item = .truncated op
    · obtain ⟨op, hop⟩ := htruncated
      -- The operand is missing only at the very end, so this line is the last.
      have hnone : rest[0]? = none := Item.second_of_truncated hop
      have hrest : rest = [] := List.length_eq_zero_iff.1 (by simpa using hnone)
      have htail : entriesFrom (address + item.width) (rest.drop (item.width - 1)) = [] := by
        rw [hrest, List.drop_nil, entriesFrom]
      rw [htail]
      simp only [hop, Item.statement]
      rfl
    · have hcomplete : ∀ op, item ≠ .truncated op := fun op hop => htruncated ⟨op, hop⟩
      obtain ⟨statement, hstatement, hslots⟩ := slots_of_statement hitem hcomplete
      have hlength : (item.words.map Slot.word).length = item.width := by
        rw [List.length_map]
        exact Item.length_words_read w rest
      have hwords : item.words ++ rest.drop (item.width - 1) = w :: rest :=
        Item.words_read_append w rest
      have hpos := item.width_pos
      have hdraft := ih ((Text.address address, address) :: symbols) (number + 1)
        (hfree.cons (by omega))
      simp only [hstatement, hslots, hlength]
      rw [hdraft, endsTruncated_cons hcomplete]
      split
      · rw [List.length_cons, Nat.add_right_comm, Nat.add_assoc]
        rfl
      · rw [← hwords, List.map_append, List.map_cons, List.reverse_cons, List.append_assoc]
        rfl

/-- The first pass over a listing ends with its labels and words, or at the line of a truncated
entry. -/
theorem draft_render (words : List Word) :
    draft [] 1 0 (Text.lines (render words).toList) =
      if endsTruncated (entries words) then
        .error (.malformed (3 + (entries words).length) (.badOperand "???"))
      else .ok (((entries words).map label).reverse, words.map .word) := by
  have hfree : FreeFrom [] 0 := fun _ _ => rfl
  have hrows := draft_rows 0 words [] 3 hfree
  rw [List.append_nil] at hrows
  rw [lines_render, List.append_assoc]
  show draft [] 1 0 (_ :: _ :: _ :: ((entries words).map row ++ [[]])) = _
  rw [draft_of_no_code (by decide), draft_of_no_code (by decide), draft_of_no_code (by decide)]
  exact hrows

/-! ## The second pass -/

/-- Words need no resolving. -/
theorem resolve_words (symbols : Symbols) (words : List Word) :
    resolve symbols (words.map .word) = .ok words := by
  induction words with
  | nil => rfl
  | cons w rest ih =>
    rw [List.map_cons, resolve, ih]
    rfl

/-! ## Addresses as labels -/

/-- No entry stands before the start of the scan. -/
theorem le_address_of_mem {address : Nat} {words : List Word} {entry : ListingEntry}
    (h : entry ∈ entriesFrom address words) : address ≤ entry.address := by
  fun_induction entriesFrom address words with
  | case1 => cases h
  | case2 address w rest item ih =>
    rcases List.mem_cons.1 h with rfl | hrest
    · exact Nat.le_refl _
    · have hle := ih hrest
      omega

/-- The addresses of the entries ascend. -/
theorem pairwise_address (address : Nat) (words : List Word) :
    (entriesFrom address words).Pairwise fun entry later => entry.address < later.address := by
  fun_induction entriesFrom address words with
  | case1 => exact List.Pairwise.nil
  | case2 address w rest item ih =>
    refine List.pairwise_cons.2 ⟨?_, ih⟩
    intro later hlater
    have hle := le_address_of_mem hlater
    have hpos := item.width_pos
    show address < later.address
    omega

/-- No two entries have the same label. -/
theorem nodup_labels (words : List Word) :
    ((entries words).map fun entry => Text.address entry.address).Nodup := by
  refine List.pairwise_map.2 ((pairwise_address 0 words).imp ?_)
  intro entry later hlt hsame
  have hequal := Text.address_injective hsame
  omega

/-- The text of a listing is assembled to the words listed: its addresses are labels, each taken
once and none asked for, and its numerals are comments.  Only a listing that ends in an instruction
without its operand is refused, at that line. -/
theorem assemble_render (words : List Word) :
    assemble (render words) =
        (if endsTruncated (entries words) then
          .error (.malformed (3 + (entries words).length) (.badOperand "???"))
        else .ok words) ∧
      draft [] 1 0 (Text.lines (render words).toList) =
        (if endsTruncated (entries words) then
          .error (.malformed (3 + (entries words).length) (.badOperand "???"))
        else .ok (((entries words).map label).reverse, words.map .word)) ∧
      ((entries words).map fun entry => Text.address entry.address).Nodup ∧
      ∀ entry : ListingEntry, Line.split (line entry).toList =
        .ok (some (Text.address entry.address), ' ' :: entry.item.text.toList) := by
  have hdraft := draft_render words
  refine ⟨?_, hdraft, nodup_labels words, ?_⟩
  · rw [assemble, hdraft]
    by_cases htruncated : endsTruncated (entries words) = true
    · rw [if_pos htruncated, if_pos htruncated]
    · rw [if_neg htruncated, if_neg htruncated]
      exact resolve_words _ words
  · intro entry
    rw [toList_line]
    exact split_row entry ['\n']

end Assembly

end TernaryMachine
