import SdDatabase.NameSearch
import Mathlib.Data.List.TakeWhile

/-!
# The name index and the contacts on the card

The name index lists the contacts with their hash slots in the order of the
contacts. Its binary search splits the list at a key; inserting and removing
keep the order.
-/

namespace SdDatabase

open Bytes Device

set_option autoImplicit false

/-- Contacts with their hash slots. -/
abbrev Listing := List (Nat × Identity)

def listedEntry (item : Nat × Identity) : SortedArrayEntry where
  key := sortedArrayMakeKey item.2.name
  hashSlot := item.1

def Sorted (listing : Listing) : Prop :=
  listing.Pairwise fun left right => nameKey left.2 < nameKey right.2

def listedIndex (listing : Listing) : SortedArray := ⟨listing.map listedEntry⟩

/-- The listing with a new contact in its place. -/
def placed (item : Nat × Identity) (listing : Listing) : Listing :=
  listing.takeWhile (fun other => decide (nameKey other.2 < nameKey item.2)) ++
    item :: listing.dropWhile fun other => decide (nameKey other.2 < nameKey item.2)

/-- The listing without the contact of a hash slot. -/
def unlisted (slot : Nat) (listing : Listing) : Listing :=
  listing.filter fun item => decide (item.1 ≠ slot)

theorem mem_unlisted {slot : Nat} {listing : Listing} {item : Nat × Identity} :
    item ∈ unlisted slot listing ↔ item ∈ listing ∧ item.1 ≠ slot := by
  rw [unlisted, List.mem_filter, decide_eq_true_eq]

/-- The index lists exactly the contacts `at_`, by hash slot. -/
structure NamesHold (index : SortedArray) (listing : Listing) (at_ : Nat → Option Identity) :
    Prop where
  index : index = listedIndex listing
  sorted : Sorted listing
  listed : ∀ slot identity, (slot, identity) ∈ listing ↔ at_ slot = some identity

/-- The contacts of a listing can be read through the hash table. -/
def Readable (db : Database) (view : View) (listing : Listing) : Prop :=
  ∀ item ∈ listing, view.contact (db.htable.htable item.1).sector = some item.2

/-- A contact of a listing as the record that is stored for it. -/
def recorded (item : Nat × Identity) : Nat × Contact := (item.1, item.2.record)

theorem recorded_entry (item : Nat × Identity) :
    indexEntry (recorded item) = listedEntry item := by
  unfold indexEntry recorded listedEntry
  dsimp only
  rw [record_nameBytes]

theorem recorded_entries (listing : Listing) :
    (listing.map recorded).map indexEntry = listing.map listedEntry := by
  rw [List.map_map]
  exact List.map_congr_left fun item _ => recorded_entry item

theorem NamesHold.recorded {db : Database} {card : Card Sector} {view : View} {listing : Listing}
    {at_ : Nat → Option Identity} (names : NamesHold db.nameIndex listing at_)
    (contacts : ContactsHold db.usageBitmap card view.contact)
    (readable : Readable db view listing) : IndexHolds db card (listing.map recorded) where
  index := by rw [names.index, recorded_entries, listedIndex]
  sorted := by
    rw [List.pairwise_map]
    refine names.sorted.imp fun {left right} less => ?_
    rwa [SdDatabase.recorded, SdDatabase.recorded, contact_key_record, contact_key_record]
  reads := by
    intro item member
    obtain ⟨listed, inListing, rfl⟩ := List.mem_map.mp member
    have stored := stored_contact_record contacts (db.htable.htable listed.1).sector
    rwa [readable listed inListing] at stored
  formed := by
    intro item member
    obtain ⟨listed, _, rfl⟩ := List.mem_map.mp member
    exact record_wellFormed listed.2

section Listings

variable {listing before after : Listing} {at_ : Nat → Option Identity} {slot : Nat}
  {identity : Identity}

theorem placed_eq (low : ∀ item ∈ before, nameKey item.2 < nameKey identity)
    (high : ∀ item ∈ after, nameKey identity ≤ nameKey item.2) :
    placed (slot, identity) (before ++ after) = before ++ (slot, identity) :: after := by
  have below : ∀ item ∈ before, decide (nameKey item.2 < nameKey identity) = true :=
    fun item member => decide_eq_true (low item member)
  have none_ : after.takeWhile (fun item => decide (nameKey item.2 < nameKey identity)) = [] ∧
      after.dropWhile (fun item => decide (nameKey item.2 < nameKey identity)) = after := by
    cases after with
    | nil => exact ⟨rfl, rfl⟩
    | cons item rest =>
        have notBelow : ¬nameKey item.2 < nameKey identity := not_lt.mpr (high item (by simp))
        simp [notBelow]
  rw [placed, List.takeWhile_append_of_pos below, List.dropWhile_append_of_pos below, none_.1,
    none_.2, List.append_nil]

theorem mem_placed {item other : Nat × Identity} :
    other ∈ placed item listing ↔ other = item ∨ other ∈ listing := by
  rw [placed, List.mem_append, List.mem_cons, or_left_comm, ← List.mem_append,
    List.takeWhile_append_dropWhile]

theorem placed_length (item : Nat × Identity) :
    (placed item listing).length = listing.length + 1 := by
  have whole := congrArg List.length (List.takeWhile_append_dropWhile
    (p := fun other : Nat × Identity => decide (nameKey other.2 < nameKey item.2)) (l := listing))
  rw [List.length_append] at whole
  rw [placed, List.length_append, List.length_cons]
  omega

theorem NamesHold.separate {index : SortedArray} (names : NamesHold index listing at_)
    {first second : Nat × Identity} (firstIn : first ∈ listing) (secondIn : second ∈ listing)
    (same : first.1 = second.1) : first = second := by
  have firstAt := (names.listed first.1 first.2).mp firstIn
  have secondAt := (names.listed second.1 second.2).mp secondIn
  rw [same, secondAt] at firstAt
  exact Prod.ext same (Option.some_injective _ firstAt.symm)

theorem Sorted.nodup (sorted : Sorted listing) : listing.Nodup := by
  refine sorted.imp fun less same => ?_
  rw [same] at less
  exact lt_irrefl _ less

theorem NamesHold.slots_nodup {index : SortedArray} (names : NamesHold index listing at_) :
    (listing.map Prod.fst).Nodup :=
  (List.nodup_map_iff_inj_on names.sorted.nodup).mpr fun _ firstIn _ secondIn same =>
    names.separate firstIn secondIn same

theorem NamesHold.place {index : SortedArray} (names : NamesHold index listing at_)
    (free : at_ slot = none) (fresh : ∀ item ∈ listing, item.2.phone ≠ identity.phone) :
    NamesHold (listedIndex (placed (slot, identity) listing)) (placed (slot, identity) listing)
      (Function.update at_ slot (some identity)) where
  index := rfl
  sorted := by
    have notSame : ∀ item ∈ listing, nameKey item.2 ≠ nameKey identity :=
      fun item member same => fresh item member (name_key_phone same)
    have whole := List.takeWhile_append_dropWhile
      (p := fun other : Nat × Identity => decide (nameKey other.2 < nameKey identity))
      (l := listing)
    have sorted := names.sorted
    rw [Sorted, ← whole, List.pairwise_append] at sorted
    obtain ⟨firstSorted, secondSorted, across⟩ := sorted
    have low : ∀ item ∈ listing.takeWhile
        (fun other => decide (nameKey other.2 < nameKey identity)),
        nameKey item.2 < nameKey identity :=
      fun item member => of_decide_eq_true (List.mem_takeWhile_imp
        (p := fun other : Nat × Identity => decide (nameKey other.2 < nameKey identity)) member)
    have high : ∀ item ∈ listing.dropWhile
        (fun other => decide (nameKey other.2 < nameKey identity)),
        nameKey identity < nameKey item.2 := by
      intro item member
      have inListing : item ∈ listing := List.dropWhile_subset _ member
      refine lt_of_le_of_ne (not_lt.mp ?_) (notSame item inListing).symm
      cases rest : listing.dropWhile
          (fun other => decide (nameKey other.2 < nameKey identity)) with
      | nil => rw [rest] at member; simp at member
      | cons head tail =>
          have headNot := List.head_dropWhile_not
            (fun other : Nat × Identity => decide (nameKey other.2 < nameKey identity))
            (l := listing) (by rw [rest]; simp)
          simp only [rest, List.head_cons, decide_eq_false_iff_not] at headNot
          rw [rest] at member secondSorted
          rcases List.mem_cons.mp member with rfl | member
          · exact headNot
          · exact fun less => headNot
              (((List.pairwise_cons.mp secondSorted).1 item member).trans less)
    rw [Sorted, placed, List.pairwise_append, List.pairwise_cons]
    refine ⟨firstSorted, ⟨fun item member => high item member, secondSorted⟩, ?_⟩
    intro first firstIn second secondIn
    rcases List.mem_cons.mp secondIn with rfl | secondIn
    · exact low first firstIn
    · exact across first firstIn second secondIn
  listed other found := by
    rw [mem_placed]
    by_cases same : other = slot
    · subst same
      rw [Function.update_self, Option.some.injEq]
      constructor
      · rintro (equal | member)
        · exact (Prod.ext_iff.mp equal).2.symm
        · have stored := (names.listed other found).mp member
          rw [free] at stored
          cases stored
      · rintro rfl
        exact Or.inl rfl
    · rw [Function.update_of_ne same]
      constructor
      · rintro (equal | member)
        · exact absurd (Prod.ext_iff.mp equal).1 same
        · exact (names.listed other found).mp member
      · exact fun stored => Or.inr ((names.listed other found).mpr stored)

theorem NamesHold.unlist {index : SortedArray} (names : NamesHold index listing at_) :
    NamesHold (listedIndex (unlisted slot listing)) (unlisted slot listing)
      (Function.update at_ slot none) where
  index := rfl
  sorted := names.sorted.filter _
  listed other found := by
    rw [unlisted, List.mem_filter]
    by_cases same : other = slot
    · simp [same]
    · simpa [same] using names.listed other found

theorem unlisted_of_split {index : SortedArray} (names : NamesHold index listing at_)
    (split : listing = before ++ (slot, identity) :: after) :
    unlisted slot listing = before ++ after := by
  have nodup := names.slots_nodup
  rw [split, List.map_append, List.map_cons, List.nodup_middle, List.nodup_cons,
    ← List.map_append] at nodup
  have others : ∀ item ∈ before ++ after, item.1 ≠ slot :=
    fun item member same => nodup.1 (List.mem_map.mpr ⟨item, member, same⟩)
  rw [unlisted, split, List.filter_append, List.filter_cons_of_neg (by simp),
    ← List.filter_append]
  exact List.filter_eq_self.mpr fun item member => decide_eq_true (others item member)

end Listings

section Operations

variable {db : Database} {card : Card Sector} {view : View} {listing : Listing}
  {at_ : Nat → Option Identity}

theorem out_sortedArrayInsert (contacts : ContactsHold db.usageBitmap card view.contact)
    (readable : Readable db view listing) (names : NamesHold db.nameIndex listing at_)
    (room : listing.length < hashTableEntries) (identity : Identity)
    (fresh : ∀ item ∈ listing, item.2.phone ≠ identity.phone) (slot : Nat) :
    out (sortedArrayInsert identity.record slot) db card =
      ((.strgOk, { db with nameIndex := listedIndex (placed (slot, identity) listing) }), []) := by
  have absent : ∀ item ∈ listing.map recorded, contactKey item.2 ≠ contactKey identity.record := by
    intro item member same
    obtain ⟨listed, inListing, rfl⟩ := List.mem_map.mp member
    rw [recorded, contact_key_record, contact_key_record] at same
    exact fresh listed inListing (name_key_phone same)
  obtain ⟨before, after, split, low, high, run⟩ := out_sortedArrayInsert_absent
    (names.recorded contacts readable) (record_wellFormed identity)
    (by rwa [List.length_map]) absent slot
  obtain ⟨first, second, rfl, rfl, rfl⟩ := List.map_eq_append_iff.mp split
  have below : ∀ item ∈ first, nameKey item.2 < nameKey identity := by
    intro item member
    have less := low _ (List.mem_map_of_mem member)
    rwa [recorded, contact_key_record, contact_key_record] at less
  have above : ∀ item ∈ second, nameKey identity ≤ nameKey item.2 := by
    intro item member
    have less := high _ (List.mem_map_of_mem member)
    rw [recorded, contact_key_record, contact_key_record] at less
    exact le_of_lt less
  have entries : (first.map recorded ++ (slot, identity.record) :: second.map recorded).map
      indexEntry = (placed (slot, identity) (first ++ second)).map listedEntry := by
    rw [placed_eq below above, ← recorded_entries, List.map_append, List.map_cons]
    simp only [List.map_append, List.map_cons, recorded]
  rw [run, entries, listedIndex]

theorem out_sortedArrayRemove (contacts : ContactsHold db.usageBitmap card view.contact)
    (readable : Readable db view listing) (names : NamesHold db.nameIndex listing at_)
    {slot : Nat} {identity : Identity} (listed : (slot, identity) ∈ listing) :
    out (sortedArrayRemove identity.record) db card =
      ((.strgOk, { db with nameIndex := listedIndex (unlisted slot listing) }), []) := by
  obtain ⟨before, after, split, run⟩ := out_sortedArrayRemove_present
    (names.recorded contacts readable) (record_wellFormed identity)
    (List.mem_map_of_mem listed : recorded (slot, identity) ∈ listing.map recorded) rfl
  obtain ⟨first, behind, rfl, rfl, tail⟩ := List.map_eq_append_iff.mp split
  obtain ⟨item, second, rfl, same, rfl⟩ := List.map_eq_cons_iff.mp tail
  have slots : item.1 = slot := congrArg Prod.fst same
  have isItem : item = (slot, identity) :=
    names.separate (by simp) listed slots
  have entries : (first.map recorded ++ second.map recorded).map indexEntry =
      (unlisted slot (first ++ item :: second)).map listedEntry := by
    rw [unlisted_of_split names (by rw [isItem]), ← recorded_entries, List.map_append,
      List.map_append, List.map_append]
  rw [run, entries, listedIndex]

theorem out_sortedArraySeek (contacts : ContactsHold db.usageBitmap card view.contact)
    (readable : Readable db view listing) (names : NamesHold db.nameIndex listing at_)
    {text : List Byte} (textNoNul : ∀ character ∈ text, character ≠ 0#8)
    (short : text.length ≤ maxNameLen) :
    out (sortedArraySeek text) db card =
      ((.ok (listing.countP fun item =>
        decide (comparedBytes true item.2.name < comparedBytes true text)), db), []) := by
  have run := out_sortedArraySeek_rank (names.recorded contacts readable) textNoNul short
  rw [List.countP_map] at run
  rw [run]
  congr 4
  funext item
  simp only [Function.comp_apply, recorded, record_nameBytes]

end Operations

end SdDatabase
