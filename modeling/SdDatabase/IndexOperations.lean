import SdDatabase.Database
import SdDatabase.Lib.SortedList
import SdDatabase.NameSearch
import SdDatabase.TableListing

/-!
# The operations of the name index

What `sorted_array.c` promises over any contacts that can be read: the two-stage
comparison is one order, looking up, inserting and removing keep a sorted array,
the build at start-up gives the array that insertions in any order give, and a
prefix search finds the block of the names that start with it.
-/

namespace SdDatabase

open Bytes Device

set_option autoImplicit false

/-- `cmp` of a contact with an entry gives the order of the two contacts. -/
def ComparesContacts (db : Database) (card : Card Sector) (contact : Contact)
    (item : Nat × Contact) : Prop :=
  ∃ order : Int, out (probeCmp (probeFromContact contact) (indexEntry item)) db card =
      ((.ok order, db), []) ∧
    (order < 0 ↔ contactKey contact < contactKey item.2) ∧
    (0 < order ↔ contactKey item.2 < contactKey contact) ∧
    (order = 0 ↔ contact.nameBytes = item.2.nameBytes ∧ contact.phoneBytes = item.2.phoneBytes)

/-- Some entry has the contact's name and phone number. -/
def Listed (items : List (Nat × Contact)) (contact : Contact) : Prop :=
  ∃ item ∈ items, item.2.nameBytes = contact.nameBytes ∧ item.2.phoneBytes = contact.phoneBytes

structure NameIndexWorks (db : Database) (card : Card Sector) (items : List (Nat × Contact))
    (contact : Contact) : Prop where
  find : ∃ found, out (sortedArrayFind contact) db card =
      ((.ok (items.countP fun item => decide (contactKey item.2 < contactKey contact), found), db),
        []) ∧
    (found = true ↔ Listed items contact)
  insert : ∀ slot, ¬Listed items contact →
    ∃ later : List (Nat × Contact), later.Perm ((slot, contact) :: items) ∧
    (later.Pairwise fun left right => contactKey left.2 < contactKey right.2) ∧
    out (sortedArrayInsert contact slot) db card =
      ((.strgOk, { db with nameIndex := ⟨later.map indexEntry⟩ }), [])
  refuse : ∀ slot, Listed items contact →
    out (sortedArrayInsert contact slot) db card = ((.strgFail, db), [])
  remove : ∀ item ∈ items, item.2.nameBytes = contact.nameBytes →
    item.2.phoneBytes = contact.phoneBytes → ∃ before after, items = before ++ item :: after ∧
      out (sortedArrayRemove contact) db card =
        ((.strgOk, { db with nameIndex := ⟨(before ++ after).map indexEntry⟩ }), [])
  keep : ¬Listed items contact → ∃ ret, ret ≠ .strgOk ∧
    out (sortedArrayRemove contact) db card = ((ret, db), [])

section Operations

variable {db : Database} {card : Card Sector} {items : List (Nat × Contact)} {contact : Contact}

theorem listed_iff : Listed items contact ↔
    ∃ item ∈ items, contactKey item.2 = contactKey contact := by
  unfold Listed
  simp only [contact_key_eq_iff]

theorem not_listed (absent : ¬Listed items contact) :
    ∀ item ∈ items, contactKey item.2 ≠ contactKey contact := by
  intro item member same
  exact absent (listed_iff.mpr ⟨item, member, same⟩)

theorem compares_contacts {item : Nat × Contact} (probed : contact.WellFormed)
    (formed : item.2.WellFormed) (reads : ReadsBack db card item) :
    ComparesContacts db card contact item := by
  obtain ⟨order, run, sign⟩ := out_probeCmp_contact probed reads formed
  exact ⟨order, run, sign.1, (positive_sign sign).1, sign.2.trans contact_key_eq_iff⟩

theorem find_counts (holds : IndexHolds db card items) (probed : contact.WellFormed) :
    ∃ found, out (sortedArrayFind contact) db card =
        ((.ok (items.countP fun item => decide (contactKey item.2 < contactKey contact), found),
          db), []) ∧
      (found = true ↔ Listed items contact) := by
  obtain ⟨before, after, found, run, rfl, low, high, matched⟩ := out_sortedArrayFind holds probed
  have count : (before ++ after).countP (fun item =>
      decide (contactKey item.2 < contactKey contact)) = before.length := by
    rw [List.countP_append,
      List.countP_eq_length.mpr fun item member => decide_eq_true (low item member),
      List.countP_eq_zero.mpr fun item member => by simpa using high item member, Nat.add_zero]
  refine ⟨found, by rw [run, count], ?_⟩
  rw [matched, head_matches_iff holds low high, listed_iff]

theorem insert_adds (holds : IndexHolds db card items) (probed : contact.WellFormed)
    (room : items.length < hashTableEntries) (absent : ¬Listed items contact) (slot : Nat) :
    ∃ later : List (Nat × Contact), later.Perm ((slot, contact) :: items) ∧
      (later.Pairwise fun left right => contactKey left.2 < contactKey right.2) ∧
      out (sortedArrayInsert contact slot) db card =
        ((.strgOk, { db with nameIndex := ⟨later.map indexEntry⟩ }), []) := by
  obtain ⟨before, after, rfl, low, high, run⟩ :=
    out_sortedArrayInsert_absent holds probed room (not_listed absent) slot
  refine ⟨before ++ (slot, contact) :: after, List.perm_middle, ?_, run⟩
  obtain ⟨first, second, across⟩ := List.pairwise_append.mp holds.sorted
  rw [List.pairwise_append, List.pairwise_cons]
  refine ⟨first, ⟨high, second⟩, ?_⟩
  intro left leftIn right rightIn
  rcases List.mem_cons.mp rightIn with rfl | rightIn
  · exact low left leftIn
  · exact across left leftIn right rightIn

/-- The comparison is the order by folded name, name and phone number, and every operation on
a sorted array of readable contacts below its capacity does what its name says. -/
theorem name_index_operations (holds : IndexHolds db card items)
    (room : items.length < hashTableEntries) (probed : contact.WellFormed) :
    (∀ first : Contact, ∀ item : Nat × Contact, first.WellFormed → item.2.WellFormed →
      ReadsBack db card item → ComparesContacts db card first item) ∧
    NameIndexWorks db card items contact := by
  constructor
  · intro first item firstFormed itemFormed reads
    exact compares_contacts firstFormed itemFormed reads
  · constructor
    · exact find_counts holds probed
    · intro slot absent
      exact insert_adds holds probed room absent slot
    · intro slot present
      exact out_sortedArrayInsert_present holds probed room (listed_iff.mp present) slot
    · intro item member sameName samePhone
      exact out_sortedArrayRemove_present holds probed member
        (contact_key_eq_iff.mpr ⟨sameName, samePhone⟩)
    · intro absent
      refine ⟨_, ?_, out_sortedArrayRemove_absent holds probed (not_listed absent)⟩
      split <;> decide

/-- The contacts of the table in the order of their names. -/
def exampleItems : List (Nat × Contact) :=
  [4, 5, 6, 1].map fun hashSlot => (hashSlot, exampleRecord hashSlot)

def exampleIndexed : Database :=
  { exampleListed with nameIndex := ⟨exampleItems.map indexEntry⟩ }

theorem example_record_formed {hashSlot : Nat} : (exampleRecord hashSlot).WellFormed := by
  unfold exampleRecord exampleContact
  split <;> exact ⟨by decide, by decide⟩

theorem example_record_stored : ∀ hashSlot ∈ [1, 4, 5, 6],
    storedContact exampleListed.usageBitmap exampleListedCard
      (exampleListed.htable.htable hashSlot).sector = some (exampleRecord hashSlot) := by
  intro hashSlot member
  apply example_listed_stored
  revert hashSlot
  decide

theorem example_index_holds : IndexHolds exampleIndexed exampleListedCard exampleItems where
  index := rfl
  sorted := by decide
  reads := by
    intro item member
    obtain ⟨hashSlot, listed, rfl⟩ := List.mem_map.mp member
    apply example_record_stored
    revert hashSlot
    decide
  formed := by
    intro item member
    obtain ⟨hashSlot, listed, rfl⟩ := List.mem_map.mp member
    exact example_record_formed

/-- A third "an" goes behind the other two, and the second of them is found and removed. -/
theorem name_index_operations_example :
    (∃ later : List (Nat × Contact),
      later.Perm ((0, createContact [97#8, 110#8] [57#8]) :: exampleItems) ∧
      (later.Pairwise fun left right => contactKey left.2 < contactKey right.2) ∧
      out (sortedArrayInsert (createContact [97#8, 110#8] [57#8]) 0) exampleIndexed
          exampleListedCard =
        ((.strgOk, { exampleIndexed with nameIndex := ⟨later.map indexEntry⟩ }), [])) ∧
    (out (sortedArrayFind (exampleContact 2)) exampleIndexed exampleListedCard =
      ((.ok (1, true), exampleIndexed), [])) ∧
    ∃ before after, exampleItems = before ++ (5, exampleContact 2) :: after ∧
      out (sortedArrayRemove (exampleContact 2)) exampleIndexed exampleListedCard =
        ((.strgOk, { exampleIndexed with nameIndex := ⟨(before ++ after).map indexEntry⟩ }),
          []) := by
  have newer := (name_index_operations example_index_holds (by decide)
    (⟨by decide, by decide⟩ : (createContact [97#8, 110#8] [57#8]).WellFormed)).2
  have known := (name_index_operations example_index_holds (by decide)
    (⟨by decide, by decide⟩ : (exampleContact 2).WellFormed)).2
  refine ⟨newer.insert 0 ?_, ?_, known.remove (5, exampleContact 2) (by decide) rfl rfl⟩
  · unfold Listed
    decide
  · obtain ⟨found, run, matched⟩ := known.find
    have yes : found = true := matched.mpr ⟨(5, exampleContact 2), by decide, rfl, rfl⟩
    rw [run, yes]
    rfl

end Operations

section PrefixSearch

variable {db : Database} {card : Card Sector} {items : List (Nat × Contact)}

/-- The search returns how many folded names are smaller than the folded text, and the names
that start with the text have the ranks from there on. -/
theorem prefix_search (holds : IndexHolds db card items) (text : CString)
    (short : text.val.length ≤ maxNameLen) :
    ∃ rank stop, rank = items.countP (fun item =>
        decide (comparedBytes true item.2.nameBytes < comparedBytes true text.val)) ∧
      out (sortedArraySeek text.val) db card = ((.ok rank, db), []) ∧
      out (databaseContactSeek (some text) true) db card = ((.ok rank, db), []) ∧
      rank ≤ stop ∧ stop ≤ items.length ∧
      ∀ index, (inside : index < items.length) →
        (comparedBytes true text.val <+: comparedBytes true items[index].2.nameBytes ↔
          rank ≤ index ∧ index < stop) := by
  have seek := out_sortedArraySeek_rank holds text.property short
  have valid : validStr (some text) maxNameLen = some text.val := if_pos short
  have whole : databaseContactSeek (some text) true = sortedArraySeek text.val := by
    unfold databaseContactSeek
    rw [valid]
  obtain ⟨stop, low, high, block⟩ := SortedList.prefix_block holds.folded
    (comparedBytes true text.val)
  exact ⟨_, stop, rfl, seek, by rw [whole, seek], low, high, block⟩

/-- Two names stand before the names that start with "b", and one behind. -/
theorem prefix_search_example :
    ∃ stop, out (databaseContactSeek (some ⟨[98#8], by decide⟩) true) exampleIndexed
        exampleListedCard = ((.ok 2, exampleIndexed), []) ∧ 2 < stop ∧ stop < 4 := by
  obtain ⟨rank, stop, count, _, run, _, _, block⟩ :=
    prefix_search example_index_holds ⟨[98#8], by decide⟩ (by decide)
  have third : rank = 2 := count.trans (by decide)
  rw [third] at run block
  have inside := (block 2 (by decide)).mp (by decide)
  have behind : ¬(2 ≤ 3 ∧ 3 < stop) := mt (block 3 (by decide)).mpr (by decide)
  exact ⟨stop, run, inside.2, by omega⟩

end PrefixSearch

/-- The contacts inserted one by one, until an insertion fails. -/
def insertContacts (record : Nat → Contact) : List Nat → DbM StrgRet
  | [] => return .strgOk
  | slot :: rest => do
      let ret ← sortedArrayInsert (record slot) slot
      if ret ≠ .strgOk then
        return ret
      insertContacts record rest

section BulkBuild

variable {db : Database} {card : Card Sector} {record : Nat → Contact}

theorem sorted_slots_unique {first second : List Nat}
    (firstSorted : first.Pairwise fun left right =>
      contactKey (record left) < contactKey (record right))
    (secondSorted : second.Pairwise fun left right =>
      contactKey (record left) < contactKey (record right))
    (perm : first.Perm second) : first = second := by
  apply List.Perm.eq_of_pairwise _ firstSorted secondSorted perm
  intro left right _ _ less greater
  exact absurd less (lt_asymm greater)

theorem insert_contacts_run {listed waiting : List Nat}
    (reads : ∀ slot ∈ listed ++ waiting, ReadsBack db card (slot, record slot))
    (formed : ∀ slot ∈ listed ++ waiting, (record slot).WellFormed)
    (distinct : (listed ++ waiting).Pairwise fun left right =>
      (record left).phoneBytes ≠ (record right).phoneBytes)
    (sorted : listed.Pairwise fun left right =>
      contactKey (record left) < contactKey (record right))
    (room : (listed ++ waiting).length ≤ hashTableEntries) :
    ∃ order : List Nat, order.Perm (listed ++ waiting) ∧
      (order.Pairwise fun left right => contactKey (record left) < contactKey (record right)) ∧
      out (insertContacts record waiting)
          { db with nameIndex := ⟨listed.map (slotEntry record)⟩ } card =
        ((.strgOk, { db with nameIndex := ⟨order.map (slotEntry record)⟩ }), []) := by
  induction waiting generalizing listed with
  | nil =>
      rw [List.append_nil]
      exact ⟨listed, List.Perm.refl _, sorted, rfl⟩
  | cons slot rest ih =>
      obtain ⟨start, startEq⟩ : ∃ start : Database,
          start = { db with nameIndex := ⟨listed.map (slotEntry record)⟩ } := ⟨_, rfl⟩
      have holds : IndexHolds start card (listed.map fun other => (other, record other)) := by
        rw [startEq]
        constructor
        · rw [List.map_map]
          rfl
        · rw [List.pairwise_map]
          exact sorted
        · intro item member
          obtain ⟨other, inListed, rfl⟩ := List.mem_map.mp member
          exact reads other (List.mem_append_left _ inListed)
        · intro item member
          obtain ⟨other, inListed, rfl⟩ := List.mem_map.mp member
          exact formed other (List.mem_append_left _ inListed)
      have absent : ∀ item ∈ listed.map fun other => (other, record other),
          contactKey item.2 ≠ contactKey (record slot) := by
        intro item member same
        obtain ⟨other, inListed, rfl⟩ := List.mem_map.mp member
        exact (List.pairwise_append.mp distinct).2.2 other inListed slot (by simp)
          (contact_key_eq_iff.mp same).2
      have short : (listed.map fun other => (other, record other)).length < hashTableEntries := by
        rw [List.length_append, List.length_cons] at room
        rw [List.length_map]
        omega
      obtain ⟨before, after, split, low, high, run⟩ := out_sortedArrayInsert_absent holds
        (formed slot (by simp)) short absent slot
      obtain ⟨first, second, rfl, rfl, rfl⟩ := List.map_eq_append_iff.mp split
      have moved : (first ++ slot :: second ++ rest).Perm (first ++ second ++ slot :: rest) := by
        rw [List.append_assoc, List.append_assoc, List.cons_append]
        exact List.perm_middle.symm.append_left first
      have apart : (first ++ slot :: second ++ rest).Pairwise fun left right =>
          (record left).phoneBytes ≠ (record right).phoneBytes :=
        (moved.pairwise_iff fun differ => differ.symm).mpr distinct
      have placed_ : (first ++ slot :: second).Pairwise fun left right =>
          contactKey (record left) < contactKey (record right) := by
        obtain ⟨firstSorted, secondSorted, across⟩ := List.pairwise_append.mp sorted
        rw [List.pairwise_append, List.pairwise_cons]
        refine ⟨firstSorted, ⟨?_, secondSorted⟩, ?_⟩
        · intro other member
          exact high _ (List.mem_map_of_mem member)
        · intro left leftIn right rightIn
          rcases List.mem_cons.mp rightIn with rfl | rightIn
          · exact low _ (List.mem_map_of_mem leftIn)
          · exact across left leftIn right rightIn
      obtain ⟨order, perm, ordered, later⟩ := ih
        (fun other member => reads other (moved.mem_iff.mp member))
        (fun other member => formed other (moved.mem_iff.mp member)) apart placed_
        (by rwa [moved.length_eq])
      refine ⟨order, perm.trans moved, ordered, ?_⟩
      have entries : (first.map (fun other => (other, record other)) ++ (slot, record slot) ::
          second.map fun other => (other, record other)).map indexEntry =
          (first ++ slot :: second).map (slotEntry record) := by
        rw [List.map_append, List.map_cons, List.map_map, List.map_map, List.map_append,
          List.map_cons]
        rfl
      have notOk : ¬StrgRet.strgOk ≠ .strgOk := not_not.mpr rfl
      have logEq : ([] : WriteLog Sector) = [] ++ [] := rfl
      rw [entries, startEq] at run
      unfold insertContacts
      rw [logEq]
      apply out_bind_both run
      rw [if_neg notOk]
      exact later

/-- The build at start-up gives the array of insertions in any order. -/
theorem bulk_build_matches_insertion
    (reads : ∀ slot ∈ occupiedBetween db.htable 0 hashTableSize,
      ReadsBack db card (slot, record slot))
    (formed : ∀ slot ∈ occupiedBetween db.htable 0 hashTableSize, (record slot).WellFormed)
    (distinct : ∀ first ∈ occupiedBetween db.htable 0 hashTableSize,
      ∀ second ∈ occupiedBetween db.htable 0 hashTableSize,
        (record first).phoneBytes = (record second).phoneBytes → first = second)
    (few : (occupiedBetween db.htable 0 hashTableSize).length ≤ hashTableEntries) :
    ∃ index, out sortedArrayBuild db card = ((.strgOk, { db with nameIndex := index }), []) ∧
      ∀ order : List Nat, order.Perm (occupiedBetween db.htable 0 hashTableSize) →
        out (insertContacts record order) { db with nameIndex := ⟨[]⟩ } card =
          ((.strgOk, { db with nameIndex := index }), []) := by
  obtain ⟨slots, slotsEq⟩ : ∃ slots, slots = occupiedBetween db.htable 0 hashTableSize := ⟨_, rfl⟩
  have nodup : slots.Nodup := by
    rw [slotsEq]
    exact List.Nodup.filter _ List.nodup_range'
  obtain ⟨built, builtPerm, builtWeak, build⟩ := out_sortedArrayBuild reads formed few
  rw [← slotsEq] at reads formed distinct few builtPerm ⊢
  have apart : slots.Pairwise fun left right =>
      (record left).phoneBytes ≠ (record right).phoneBytes := by
    refine List.Pairwise.imp_of_mem (fun {left right} leftIn rightIn differ same => ?_) nodup
    exact differ (distinct left leftIn right rightIn same)
  have builtSorted : built.Pairwise fun left right =>
      contactKey (record left) < contactKey (record right) := by
    have builtApart : built.Pairwise fun left right =>
        (record left).phoneBytes ≠ (record right).phoneBytes :=
      (builtPerm.pairwise_iff fun differ => differ.symm).mpr apart
    refine (builtWeak.and builtApart).imp fun both => lt_of_le_of_ne both.1 fun same => ?_
    exact both.2 (contact_key_eq_iff.mp same).2
  refine ⟨_, build, ?_⟩
  intro order perm
  obtain ⟨inserted, insertedPerm, insertedSorted, insertRun⟩ :=
    @insert_contacts_run db card record [] order
      (fun slot member => reads slot (perm.mem_iff.mp member))
      (fun slot member => formed slot (perm.mem_iff.mp member))
      ((perm.pairwise_iff fun differ => differ.symm).mpr apart) List.Pairwise.nil
      (by rwa [List.nil_append, perm.length_eq])
  have same : inserted = built :=
    sorted_slots_unique insertedSorted builtSorted (insertedPerm.trans (perm.trans builtPerm.symm))
  rw [same] at insertRun
  exact insertRun

theorem example_occupied :
    (occupiedBetween exampleListed.htable 0 hashTableSize).Perm [1, 4, 5, 6] := by
  have nodup : (occupiedBetween exampleListed.htable 0 hashTableSize).Nodup :=
    List.Nodup.filter _ List.nodup_range'
  apply (List.perm_ext_iff_of_nodup nodup (by decide)).mpr
  intro slot
  rw [occupiedBetween, List.mem_filter, decide_eq_true_eq]
  constructor
  · rintro ⟨_, occupied⟩
    change (exampleListedEntry slot).state = .occupied at occupied
    unfold exampleListedEntry at occupied
    split at occupied <;> first | decide | cases occupied
  · intro member
    constructor
    · rw [List.mem_range'_1]
      revert slot
      decide
    · revert slot
      decide

/-- Four contacts, two of them with equal keys, are built as they are inserted in any order. -/
theorem bulk_build_matches_insertion_example :
    sortedArrayMakeKey (exampleContact 1).nameBytes =
      sortedArrayMakeKey (exampleContact 2).nameBytes ∧
    ∃ index, out sortedArrayBuild exampleListed exampleListedCard =
        ((.strgOk, { exampleListed with nameIndex := index }), []) ∧
      ∀ order : List Nat, order.Perm [1, 4, 5, 6] →
        out (insertContacts exampleRecord order) { exampleListed with nameIndex := ⟨[]⟩ }
            exampleListedCard =
          ((.strgOk, { exampleListed with nameIndex := index }), []) := by
  have member : ∀ {slot}, slot ∈ occupiedBetween exampleListed.htable 0 hashTableSize →
      slot ∈ [1, 4, 5, 6] := example_occupied.mem_iff.mp
  obtain ⟨index, build, inserts⟩ := @bulk_build_matches_insertion exampleListed exampleListedCard
    exampleRecord
    (fun slot occupied => example_record_stored slot (member occupied))
    (fun _ _ => example_record_formed)
    (fun first firstIn second secondIn => by
      have apart : ∀ left ∈ [1, 4, 5, 6], ∀ right ∈ [1, 4, 5, 6],
          (exampleRecord left).phoneBytes = (exampleRecord right).phoneBytes → left = right := by
        decide
      exact apart first (member firstIn) second (member secondIn))
    (by
      rw [example_occupied.length_eq]
      decide)
  exact ⟨by decide, index, build, fun order perm => inserts order (perm.trans example_occupied.symm)⟩

end BulkBuild

end SdDatabase
