import Mathlib.Data.List.Chain
import Mathlib.Logic.ExistsUnique
import TernaryMachine.Proofs.Assembly.ItemText

/-!
# A listing covers its words

The entries of a listing lie on the words one behind the other: each shows what stands at its
address and begins where the one before it ends.  `Listing.Tiles` says so along the walk, and
`tiles_entries` that a listing is such a walk from address 0 to the end of the words.  All that is
needed of a listing later on follows from that: no entry reaches beyond the words, and every word
lies in one entry and no other.
-/

set_option autoImplicit false

namespace TernaryMachine.Listing

/-- Entries that lie on the words from an address on to their end. -/
inductive Tiles (words : List Word) : Nat → List ListingEntry → Prop where
  | done : Tiles words words.length []
  | entry {a : Nat} {rest : List ListingEntry} (ha : a < words.length)
      (hrest : Tiles words (a + (Item.atAddress words.toArray a).width) rest) :
      Tiles words a (⟨a, Item.atAddress words.toArray a⟩ :: rest)

/-- The item at an address is read from the word there and the one behind. -/
theorem atAddress_toArray (words : List Word) (a : Nat) :
    Item.atAddress words.toArray a = Item.read words[a]? words[a + 1]? := by
  simp only [Item.atAddress, List.getElem?_toArray]

/-- The walk along the rest of the words lies on all of them, from where it began. -/
theorem tiles_entriesFrom (front rest : List Word) {address : Nat}
    (haddress : front.length = address) :
    Tiles (front ++ rest) address (entriesFrom address rest) := by
  fun_induction entriesFrom address rest generalizing front with
  | case1 address =>
    rw [List.append_nil, ← haddress]
    exact .done
  | case2 address w rest item ih =>
    have hitem : Item.atAddress (front ++ w :: rest).toArray address = item := by
      rw [atAddress_toArray, ← haddress, List.getElem?_append_right (Nat.le_refl _),
        List.getElem?_append_right (Nat.le_add_right _ 1), Nat.sub_self, Nat.add_sub_cancel_left]
      rfl
    have hlength : item.words.length = item.width := Item.length_words_read w rest
    have hwords : item.words ++ rest.drop (item.width - 1) = w :: rest :=
      Item.words_read_append w rest
    have hnext := ih (front ++ item.words) (by rw [List.length_append, haddress, hlength])
    rw [List.append_assoc, hwords] at hnext
    rw [← hitem] at hnext ⊢
    refine .entry ?_ hnext
    rw [List.length_append, List.length_cons, haddress]
    omega

/-- A listing lies on all its words. -/
theorem tiles_entries (words : List Word) : Tiles words 0 (entries words) :=
  tiles_entriesFrom [] words rfl

namespace Tiles

variable {words : List Word} {a : Nat} {entries : List ListingEntry}

/-- A tiling starts within the words. -/
theorem le_length (h : Tiles words a entries) : a ≤ words.length := by
  cases h with
  | done => exact Nat.le_refl _
  | entry ha _ => exact Nat.le_of_lt ha

/-- The first entry of a tiling is at its start, if any words are left there. -/
theorem head_address (h : Tiles words a entries) :
    entries.head?.map ListingEntry.address = if a < words.length then some a else none := by
  cases h with
  | done => rw [if_neg (Nat.lt_irrefl _)]; rfl
  | entry ha _ => rw [if_pos ha]; rfl

/-- Where one entry ends the next one begins. -/
theorem isChain (h : Tiles words a entries) :
    entries.IsChain fun entry next => entry.address + entry.item.width = next.address := by
  induction h with
  | done => exact .nil
  | entry _ hrest ih =>
    refine List.isChain_cons.2 ⟨?_, ih⟩
    intro next hnext
    have hhead := hrest.head_address
    rw [Option.mem_def.1 hnext, Option.map_some] at hhead
    split at hhead
    · exact (Option.some.inj hhead).symm
    · cases hhead

/-- Only at the end of the words does a tiling have no entries. -/
theorem eq_length_of_nil (h : Tiles words a []) : a = words.length := by
  cases h
  rfl

/-- The last entry ends where the words end. -/
theorem last_end (h : Tiles words a entries) {last : ListingEntry}
    (hlast : entries.getLast? = some last) :
    last.address + last.item.width = words.length := by
  induction h with
  | done => cases hlast
  | @entry _ rest _ hrest ih =>
    cases rest with
    | nil =>
      obtain rfl := Option.some.inj hlast
      exact hrest.eq_length_of_nil
    | cons next more =>
      rw [List.getLast?_cons_cons] at hlast
      exact ih hlast

/-- Each entry of a tiling is the item at its address and lies within the words. -/
theorem mem (h : Tiles words a entries) {entry : ListingEntry} (hentry : entry ∈ entries) :
    a ≤ entry.address ∧ entry.item = Item.atAddress words.toArray entry.address ∧
      entry.address + entry.item.width ≤ words.length := by
  induction h with
  | done => cases hentry
  | entry _ hrest ih =>
    rcases List.mem_cons.1 hentry with rfl | hmem
    · exact ⟨Nat.le_refl _, rfl, hrest.le_length⟩
    · obtain ⟨hle, hitem, hend⟩ := ih hmem
      exact ⟨Nat.le_trans (Nat.le_add_right _ _) hle, hitem, hend⟩

/-- Every word from the beginning of the walk on lies in one entry and no other. -/
theorem existsUnique (h : Tiles words a entries) {i : Nat} (hi : a ≤ i) (hend : i < words.length) :
    ∃! entry, entry ∈ entries ∧ entry.address ≤ i ∧ i < entry.address + entry.item.width := by
  induction h with
  | done => omega
  | @entry a rest _ hrest ih =>
    by_cases hhere : i < a + (Item.atAddress words.toArray a).width
    · refine ⟨_, ⟨List.mem_cons_self, hi, hhere⟩, ?_⟩
      rintro other ⟨hother, hle, -⟩
      rcases List.mem_cons.1 hother with rfl | hmem
      · rfl
      · have hlater := (hrest.mem hmem).1
        omega
    · obtain ⟨entry, ⟨hentry, hcovers⟩, hunique⟩ := ih (Nat.le_of_not_lt hhere)
      refine ⟨entry, ⟨List.mem_cons_of_mem _ hentry, hcovers⟩, ?_⟩
      rintro other ⟨hother, hle, hlt⟩
      rcases List.mem_cons.1 hother with rfl | hmem
      · exact absurd hlt hhere
      · exact hunique other ⟨hmem, hle, hlt⟩

end Tiles

/-- The words that an entry shows are those of its stretch. -/
theorem words_atAddress {words : List Word} {a : Nat} (ha : a < words.length) :
    (Item.atAddress words.toArray a).words =
      (words.drop a).take (Item.atAddress words.toArray a).width := by
  have hdrop : words.drop a = words[a] :: words.drop (a + 1) := List.drop_eq_getElem_cons ha
  have hsecond : words[a + 1]? = (words.drop (a + 1))[0]? := by
    rw [List.getElem?_drop, Nat.add_zero]
  rw [atAddress_toArray, hdrop, hsecond, List.getElem?_eq_getElem ha]
  exact Item.words_read_cons _ _

end TernaryMachine.Listing
