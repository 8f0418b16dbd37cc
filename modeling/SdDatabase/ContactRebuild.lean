import SdDatabase.ContactRecords
import SdDatabase.Mounted
import SdDatabase.SectorWalk

/-!
# The contact rebuild is exact

`hash_reconstruct_contact` over any bitmap and any contact sectors. Behind every
step the table knows the records passed so far, and of the slots passed the free
list holds those that store nothing and are in no corrupt sector. A sector in use
that cannot be read ends the scan.
-/

namespace SdDatabase

open Bytes Device BitScan OpenAddressing

set_option autoImplicit false

/-- Of the indices below `count` the list holds those not in use. -/
structure FreeBelow (list : FreeList) (size count : Nat) (used : Nat → Bool) : Prop where
  capacity : list.capacity = size
  stack : list.freeStack = ((List.range (min count size)).filter fun index => !used index).reverse

section FreeBelow

variable {list : FreeList} {size count : Nat} {used : Nat → Bool}

theorem FreeBelow.free (below : FreeBelow list size count used) (inside : count < size)
    (unused : used count = false) :
    FreeBelow (freeListFree list count) size (count + 1) used := by
  have short : list.freeStack.length ≤ count := by
    rw [below.stack, List.length_reverse, Nat.min_eq_left (by omega)]
    exact (List.length_filter_le _ _).trans (by rw [List.length_range])
  have result : freeListFree list count =
      { list with freeStack := count :: list.freeStack, usedCount := list.usedCount - 1 } :=
    if_neg (by rw [below.capacity]; omega)
  rw [result]
  refine ⟨below.capacity, ?_⟩
  rw [Nat.min_eq_left (show count + 1 ≤ size by omega), List.range_succ, List.filter_append,
    List.reverse_append, below.stack, Nat.min_eq_left (show count ≤ size by omega)]
  simp [unused]

theorem FreeBelow.skip (below : FreeBelow list size count used)
    (isUsed : used count = true) : FreeBelow list size (count + 1) used := by
  refine ⟨below.capacity, ?_⟩
  rw [below.stack]
  by_cases inside : count < size
  · rw [Nat.min_eq_left (show count + 1 ≤ size by omega),
      Nat.min_eq_left (show count ≤ size by omega), List.range_succ, List.filter_append]
    simp [isUsed]
  · rw [Nat.min_eq_right (show size ≤ count + 1 by omega),
      Nat.min_eq_right (show size ≤ count by omega)]

theorem FreeBelow.free_from (below : FreeBelow list size count used) (steps : Nat)
    (unused : ∀ index, count ≤ index → index < count + steps → used index = false) :
    FreeBelow (freeListFreeFrom list steps count) size (count + steps) used := by
  induction steps generalizing list count with
  | zero => exact below
  | succ steps ih =>
      unfold freeListFreeFrom
      by_cases full : list.capacity ≤ count
      · rw [if_pos full]
        have past : size ≤ count := by rwa [below.capacity] at full
        refine ⟨below.capacity, ?_⟩
        rw [below.stack, Nat.min_eq_right past, Nat.min_eq_right (by omega)]
      · rw [below.capacity] at full
        have freed := below.free (by omega) (unused count (le_refl _) (by omega))
        have rest := ih freed fun index low high => unused index (by omega) (by omega)
        rw [if_neg (by rw [below.capacity]; exact full)]
        rwa [show count + (steps + 1) = count + 1 + steps by omega]

theorem FreeBelow.free_range (below : FreeBelow list size count used) {limit : Nat}
    (order : count ≤ limit)
    (unused : ∀ index, count ≤ index → index < limit → used index = false) :
    FreeBelow (freeListFreeRange list count limit) size limit used := by
  have freed := below.free_from (limit - count) fun index low high => unused index low (by omega)
  rwa [show count + (limit - count) = limit by omega] at freed

theorem FreeBelow.hold (below : FreeBelow list size count used) (whole : size ≤ count) :
    FreeHold list size fun index => used index = true where
  capacity := below.capacity
  nodup := by
    rw [below.stack]
    exact List.nodup_reverse.mpr (List.Nodup.filter _ List.nodup_range)
  mem index := by
    rw [below.stack, Nat.min_eq_right whole]
    simp

theorem free_below_start (size usedCount : Nat) (used : Nat → Bool) :
    FreeBelow ⟨[], size, usedCount⟩ size 0 used := ⟨rfl, by simp⟩

end FreeBelow

def slotTaken (bitmap : UsageBitmap) (card : Card Sector) (slot : Nat) : Bool :=
  (storedContact bitmap card slot).isSome || slotCorrupt bitmap card slot

/-- The intact sectors in use store records in slots that a contact can have, and no two
records have the same phone number. -/
structure ContactsFormed (bitmap : UsageBitmap) (card : Card Sector) : Prop where
  onlySlots : ∀ physSector < totalContactSectorSize, usageBit bitmap physSector = true →
    sectorCrcValid (card (contactRaw physSector)) = true → ∀ position, 6 ≤ position →
      (ofSector (card (contactRaw physSector)) : ContactSector).usedBitmap.getLsbD position = false
  inside : ∀ slot, storedContact bitmap card slot ≠ none → slot < hashTableEntries
  distinct : PhonesDistinct (storedPhone bitmap card)

def phonesBelow (count : Nat) (phone : Nat → Option (List Byte)) (slot : Nat) :
    Option (List Byte) :=
  if slot < count then phone slot else none

section PhonesBelow

variable {count limit : Nat} {phone : Nat → Option (List Byte)}

theorem phones_below_part {slot : Nat} {number : List Byte}
    (stored : phonesBelow count phone slot = some number) :
    slot < count ∧ phone slot = some number := by
  unfold phonesBelow at stored
  split at stored
  next below => exact ⟨below, stored⟩
  next => cases stored

theorem phones_below_some {number : List Byte} (stored : phone count = some number) :
    phonesBelow (count + 1) phone = Function.update (phonesBelow count phone) count (some number) := by
  funext slot
  unfold phonesBelow
  by_cases same : slot = count
  · rw [same, Function.update_self, if_pos (by omega), stored]
  · rw [Function.update_of_ne same]
    by_cases below : slot < count
    · rw [if_pos below, if_pos (by omega)]
    · rw [if_neg below, if_neg (by omega)]

theorem phones_below_none (order : count ≤ limit)
    (nothing : ∀ slot, count ≤ slot → slot < limit → phone slot = none) :
    phonesBelow limit phone = phonesBelow count phone := by
  funext slot
  unfold phonesBelow
  by_cases below : slot < count
  · rw [if_pos below, if_pos (by omega)]
  · rw [if_neg below]
    split
    · exact nothing slot (by omega) (by assumption)
    · rfl

end PhonesBelow

theorem count_unstored {count limit : Nat} {stored : Nat → Bool} (order : count ≤ limit)
    (nothing : ∀ slot, count ≤ slot → slot < limit → stored slot = false) :
    (List.range limit).countP stored = (List.range count).countP stored := by
  obtain ⟨more, rfl⟩ := Nat.exists_eq_add_of_le order
  induction more with
  | zero => rfl
  | succ more ih =>
      rw [← Nat.add_assoc, List.range_succ, List.countP_append,
        ih (by omega) fun slot low high => nothing slot low (by omega)]
      simp [nothing (count + more) (by omega) (by omega)]

theorem FreeBelow.skip_range {list : FreeList} {size count limit : Nat} {used : Nat → Bool}
    (below : FreeBelow list size count used) (order : count ≤ limit)
    (taken : ∀ index, count ≤ index → index < limit → used index = true) :
    FreeBelow list size limit used := by
  obtain ⟨more, rfl⟩ := Nat.exists_eq_add_of_le order
  induction more with
  | zero => exact below
  | succ more ih =>
      have before := ih (by omega) fun index low high => taken index low (by omega)
      exact before.skip (taken (count + more) (by omega) (by omega))

/-- Only the table and the contact allocator have changed since `base`, and they
know the slots below `count`. -/
structure ContactsEntered (base : Database) (card : Card Sector) (count : Nat) (db : Database) :
    Prop where
  same : db = { base with htable := db.htable, contactAllocator := db.contactAllocator }
  size : db.htable.size = hashTableSize
  table : PhoneTable db.htable (phonesBelow count (storedPhone base.usageBitmap card))
  noChats : ∀ slot, (db.htable.htable slot).state = .occupied →
    (db.htable.htable slot).latestMsgExtent = uint16Max
  number : db.htable.numElems =
    (List.range count).countP fun slot => (storedContact base.usageBitmap card slot).isSome
  free : FreeBelow db.contactAllocator hashTableEntries count (slotTaken base.usageBitmap card)

section Slots

variable {base db : Database} {card : Card Sector} {lost : Nat → Bool} {count limit : Nat}

theorem ContactsEntered.bitmap (entered : ContactsEntered base card count db) :
    db.usageBitmap = base.usageBitmap := by
  rw [entered.same]

theorem untaken_slot {bitmap : UsageBitmap} {slot : Nat}
    (free : slotTaken bitmap card slot = false) : storedContact bitmap card slot = none := by
  unfold slotTaken at free
  rw [Bool.or_eq_false_iff, Option.isSome_eq_false_iff] at free
  exact Option.isNone_iff_eq_none.mp free.1

theorem ContactsEntered.advance (entered : ContactsEntered base card count db)
    (order : count ≤ limit)
    (nothing : ∀ slot, count ≤ slot → slot < limit →
      storedContact base.usageBitmap card slot = none) {list : FreeList}
    (free : FreeBelow list hashTableEntries limit (slotTaken base.usageBitmap card)) :
    ContactsEntered base card limit { db with contactAllocator := list } where
  same := by rw [entered.same]
  size := entered.size
  table := by
    rw [phones_below_none order fun slot low high => stored_phone_none.mpr (nothing slot low high)]
    exact entered.table
  noChats := entered.noChats
  number := by
    rw [count_unstored order fun slot low high => by rw [nothing slot low high]; rfl]
    exact entered.number
  free := free

theorem free_slots_run (entered : ContactsEntered base card count db) (order : count ≤ limit)
    (unused : ∀ slot, count ≤ slot → slot < limit →
      slotTaken base.usageBitmap card slot = false) :
    ∃ next, lossy lost (freeContacts count limit) db card = ((PUnit.unit, next), []) ∧
      ContactsEntered base card limit next := by
  refine ⟨_, lossy_modify _ _ _, ?_⟩
  apply entered.advance order
  · intro slot low high
    exact untaken_slot (unused slot low high)
  · exact entered.free.free_range order unused

theorem ContactsEntered.pass_corrupt (entered : ContactsEntered base card count db)
    (order : count ≤ limit)
    (corrupt : ∀ slot, count ≤ slot → slot < limit →
      slotCorrupt base.usageBitmap card slot = true) : ContactsEntered base card limit db := by
  have nothing : ∀ slot, count ≤ slot → slot < limit →
      storedContact base.usageBitmap card slot = none := by
    intro slot low high
    have bad := corrupt slot low high
    cases stored : storedContact base.usageBitmap card slot with
    | none => rfl
    | some record =>
        unfold slotCorrupt at bad
        rw [(stored_contact_some stored).2.2.1] at bad
        simp at bad
  apply @ContactsEntered.advance _ db _ _ _ entered order nothing db.contactAllocator
  apply entered.free.skip_range order
  intro slot low high
  rw [slotTaken, corrupt slot low high, Bool.or_true]

theorem ContactsEntered.trim (entered : ContactsEntered base card limit db)
    (formed : ContactsFormed base.usageBitmap card) (whole : hashTableEntries ≤ limit) :
    ContactsEntered base card hashTableEntries db := by
  have nothing : ∀ slot, hashTableEntries ≤ slot → slot < limit →
      storedContact base.usageBitmap card slot = none := by
    intro slot above _
    by_contra given
    exact absurd (formed.inside slot given) (not_lt.mpr above)
  refine ⟨entered.same, entered.size, ?_, entered.noChats, ?_, entered.free.capacity, ?_⟩
  · rw [← phones_below_none whole fun slot low high =>
      stored_phone_none.mpr (nothing slot low high)]
    exact entered.table
  · rw [← count_unstored whole fun slot low high => by rw [nothing slot low high]; rfl]
    exact entered.number
  · rw [entered.free.stack, Nat.min_eq_right whole, Nat.min_self]

end Slots

/-- The bits of a sector's header for the slots from `count` on. -/
def BitsLeft (cSector : ContactSector) (start count : Nat) (bits : Byte) : Prop :=
  ∀ position, bits.getLsbD position =
    (decide (count ≤ start + position) && cSector.usedBitmap.getLsbD position)

theorem BitsLeft.rest {cSector : ContactSector} {start count : Nat} {bits : Byte}
    (left : BitsLeft cSector start count bits) (some_ : bits ≠ 0#8) :
    count ≤ start + ctz bits ∧ cSector.usedBitmap.getLsbD (ctz bits) = true ∧
      (∀ other < ctz bits, bits.getLsbD other = false) ∧
      BitsLeft cSector start (start + ctz bits + 1) (clearLowest bits) := by
  obtain ⟨_, set, least⟩ := ctz_spec some_
  have lowest := clear_lowest_bit some_
  generalize ctz bits = position at set least lowest ⊢
  rw [left, Bool.and_eq_true, decide_eq_true_eq] at set
  refine ⟨set.1, set.2, least, fun other => ?_⟩
  rw [lowest]
  rcases Nat.lt_trichotomy other position with before | same | behind
  · rw [least other before, Bool.false_and, decide_eq_false (by omega), Bool.false_and]
  · rw [same, decide_eq_false (by omega), Bool.and_false, decide_eq_false (by omega),
      Bool.false_and]
  · rw [left, decide_eq_true (show other ≠ position by omega), Bool.and_true,
      decide_eq_true (by omega), decide_eq_true (by omega)]

section Sector

variable {base db : Database} {card : Card Sector} {lost : Nat → Bool} {count : Nat}
  (formed : ContactsFormed base.usageBitmap card)

include formed

theorem enter_record_run (entered : ContactsEntered base card count db)
    (present : ∀ slot < count, storedContact base.usageBitmap card slot ≠ none →
      lost (contactRaw (slot / 6)) = false) {record : Contact}
    (stored : storedContact base.usageBitmap card count = some record) :
    ∃ slot next, lossy lost (hashFindEntry (cstr record.phone)) db card = ((some slot, db), []) ∧
      lossy lost (modifyTable fun table =>
        { table.setEntry slot (occupiedEntry (hashPhone (cstr record.phone)) count) with
          numElems := table.numElems + 1 }) db card = ((PUnit.unit, next), []) ∧
      ContactsEntered base card (count + 1) next := by
  have number : storedPhone base.usageBitmap card count = some (cstr record.phone) := by
    rw [storedPhone, stored, Option.map_some]
  have reads : PhonesRead lost db card
      (phonesBelow count (storedPhone base.usageBitmap card)) := by
    apply stored_phones_read
    intro sector found given
    obtain ⟨below, known⟩ := phones_below_part given
    obtain ⟨other, place, _⟩ := stored_phone_some known
    rw [entered.bitmap]
    exact ⟨known, present sector below (by rw [place]; exact Option.some_ne_none _)⟩
  have absent : ∀ sector, phonesBelow count (storedPhone base.usageBitmap card) sector ≠
      some (cstr record.phone) := by
    intro sector given
    obtain ⟨below, known⟩ := phones_below_part given
    have same := formed.distinct _ _ _ known number
    omega
  have few : ∀ sector, phonesBelow count (storedPhone base.usageBitmap card) sector ≠ none →
      sector < hashTableEntries := by
    intro sector given
    obtain ⟨found, known⟩ := Option.ne_none_iff_exists'.mp given
    obtain ⟨other, place, _⟩ := stored_phone_some (phones_below_part known).2
    exact formed.inside sector (by rw [place]; exact Option.some_ne_none _)
  have size := entered.size
  have room := entered.table.room (by rw [size]; decide) few
  obtain ⟨slot, find, bound, free, reaches⟩ := lossy_find_absent entered.table reads
    (by rw [size]; decide) (by rw [size]; norm_num) absent room
  refine ⟨slot, _, find, lossy_modify _ _ _, ?_⟩
  have fresh : phonesBelow count (storedPhone base.usageBitmap card) count = none :=
    if_neg (lt_irrefl _)
  refine ⟨?_, size, ?_, ?_, ?_, ?_⟩
  · rw [entered.same]
  · rw [phones_below_some number]
    exact entered.table.insert _ bound free reaches fresh _
  · intro index occupied
    simp only [HashTable.setEntry] at occupied ⊢
    by_cases same : index = slot
    · rw [same, Function.update_self]
      rfl
    · rw [Function.update_of_ne same] at occupied ⊢
      exact entered.noChats index occupied
  · have before := entered.number
    rw [List.range_succ, List.countP_append]
    simp [stored, before]
  · apply entered.free.skip
    rw [slotTaken, stored]
    rfl

variable {physSector : Nat} {bits : Byte} (inside : physSector < totalContactSectorSize)
  (used : usageBit base.usageBitmap physSector = true)
  (valid : sectorCrcValid (card (contactRaw physSector)) = true)

include inside used valid

omit formed in
theorem bits_left_untaken
    (left : BitsLeft (ofSector (card (contactRaw physSector))) (physSector * 6) count bits)
    {limit : Nat}
    (clear : ∀ position, physSector * 6 + position < limit → bits.getLsbD position = false)
    (low : physSector * 6 ≤ count) (high : limit ≤ physSector * 6 + 6) (slot : Nat)
    (ahead : count ≤ slot) (below : slot < limit) :
    slotTaken base.usageBitmap card slot = false := by
  have place : physSector * 6 + (slot - physSector * 6) = slot := by omega
  have sector : slot / 6 = physSector := by omega
  have bit := clear (slot - physSector * 6) (by omega)
  rw [left, place, decide_eq_true ahead, Bool.true_and] at bit
  have stored := @stored_contact_position base.usageBitmap card physSector (slot - physSector * 6)
    inside (by omega) used valid
  rw [place, bit] at stored
  rw [slotTaken, stored, slotCorrupt, sector, valid]
  simp

omit formed in
theorem finish_slots_run
    (left : BitsLeft (ofSector (card (contactRaw physSector))) (physSector * 6) count bits)
    (clear : ∀ position, bits.getLsbD position = false)
    (entered : ContactsEntered base card count db) (low : physSector * 6 ≤ count)
    (high : count ≤ physSector * 6 + 6) :
    ∃ next, lossy lost (freeContacts count (u16 (physSector * 6 + contactSectorCapacity)) >>=
        fun _ => pure true) db card = ((true, next), []) ∧
      ContactsEntered base card (physSector * 6 + 6) next := by
  have narrow : u16 (physSector * 6 + contactSectorCapacity) = physSector * 6 + 6 := by
    simp at inside ⊢
    exact u16_of_lt (by omega)
  obtain ⟨next, run, later⟩ := @free_slots_run _ _ card lost _ (physSector * 6 + 6) entered high
    (bits_left_untaken inside used valid left (fun position _ => clear position) low (le_refl _))
  refine ⟨next, ?_, later⟩
  rw [narrow, lossy_bind_read run]
  rfl

theorem enter_slots_run
    (present : ∀ slot < physSector * 6 + 6, storedContact base.usageBitmap card slot ≠ none →
      lost (contactRaw (slot / 6)) = false)
    (left : BitsLeft (ofSector (card (contactRaw physSector))) (physSector * 6) count bits)
    (fuel : Nat) (entered : ContactsEntered base card count db) (low : physSector * 6 ≤ count)
    (high : count ≤ physSector * 6 + 6) (enough : physSector * 6 + 6 ≤ count + fuel) :
    ∃ next, lossy lost (insertContactsLoop (ofSector (card (contactRaw physSector)))
        (physSector * 6) fuel bits count) db card = ((true, next), []) ∧
      ContactsEntered base card (physSector * 6 + 6) next := by
  induction fuel generalizing bits count db with
  | zero =>
      apply finish_slots_run inside used valid left _ entered low high
      intro position
      rw [left, Bool.and_eq_false_iff]
      by_cases ahead : count ≤ physSector * 6 + position
      · exact Or.inr (formed.onlySlots physSector inside used valid position (by omega))
      · exact Or.inl (decide_eq_false ahead)
  | succ fuel ih =>
      unfold insertContactsLoop
      by_cases empty : bits = 0#8
      · rw [if_pos empty]
        exact finish_slots_run inside used valid left
          (fun position => by rw [empty]; exact BitVec.getLsbD_zero) entered low high
      · rw [if_neg empty]
        obtain ⟨ahead, set, least, rest⟩ := left.rest empty
        generalize ctz bits = position at ahead set least rest ⊢
        have below : position < 6 := by
          by_contra above
          rw [formed.onlySlots physSector inside used valid position (by omega)] at set
          cases set
        have stored := @stored_contact_position base.usageBitmap card physSector position inside
          below used valid
        rw [set, if_pos rfl] at stored
        have bound : physSector * 6 + position + 1 < 65536 := by
          simp at inside
          omega
        obtain ⟨middle, freed, enteredMiddle⟩ := @free_slots_run _ _ card lost _
          (physSector * 6 + position) entered ahead (bits_left_untaken inside used valid left
            (fun other before => least other (by omega)) low (by omega))
        obtain ⟨slot, next, find, added, enteredNext⟩ := enter_record_run formed enteredMiddle
          (fun other before => present other (by omega)) stored
        obtain ⟨last, run, done⟩ := ih rest enteredNext (by omega) (by omega) (by omega)
        refine ⟨last, ?_, done⟩
        simp only [u16_of_lt (show physSector * 6 + position < 65536 by omega), u16_of_lt bound]
        rw [lossy_bind_read freed, lossy_bind_read find]
        dsimp only
        rw [lossy_bind_read added]
        exact run

end Sector

/-- The sectors before `limit` are passed and none in use among them is lost; the slots
from `lastFree` on are not taken and not yet freed. -/
structure ContactScan (lost : Nat → Bool) (base : Database) (card : Card Sector)
    (limit lastFree : Nat) (db : Database) : Prop where
  entered : ContactsEntered base card lastFree db
  order : lastFree ≤ limit * 6
  untaken : ∀ slot, lastFree ≤ slot → slot < limit * 6 →
    slotTaken base.usageBitmap card slot = false
  present : ∀ physSector < limit, physSector < totalContactSectorSize →
    usageBit base.usageBitmap physSector = true → lost (contactRaw physSector) = false

def SectorLost (lost : Nat → Bool) (bitmap : UsageBitmap) : Prop :=
  ∃ physSector < totalContactSectorSize, usageBit bitmap physSector = true ∧
    lost (contactRaw physSector) = true

/-- How a part of the scan ends: at a lost sector, or behind the sectors below `limit`. -/
def ScanEnds (lost : Nat → Bool) (base : Database) (card : Card Sector) (limit : Nat)
    (outcome : (Option Nat × Database) × WriteLog Sector) : Prop :=
  (SectorLost lost base.usageBitmap ∧ ∃ next, outcome = ((none, next), [])) ∨
    ∃ after next, outcome = ((some after, next), []) ∧
      ContactScan lost base card limit after next

section Scan

variable {base db : Database} {card : Card Sector} {lost : Nat → Bool}
  (formed : ContactsFormed base.usageBitmap card)

theorem ContactScan.skip {limit further lastFree : Nat}
    (scan : ContactScan lost base card limit lastFree db) (order : limit ≤ further)
    (unused : ∀ physSector, limit ≤ physSector → physSector < further →
      physSector < totalContactSectorSize → usageBit base.usageBitmap physSector = false) :
    ContactScan lost base card further lastFree db where
  entered := scan.entered
  order := scan.order.trans (Nat.mul_le_mul_right 6 order)
  untaken slot above below := by
    by_cases passed : slot < limit * 6
    · exact scan.untaken slot above passed
    · by_cases inside : slot / 6 < totalContactSectorSize
      · have clear := unused (slot / 6) (by omega) (by omega) inside
        rw [slotTaken, stored_contact_unused clear, slotCorrupt, clear]
        simp
      · rw [slotTaken, stored_contact_outside inside, slotCorrupt, decide_eq_false inside]
        rfl
  present physSector below inside used := by
    by_cases passed : physSector < limit
    · exact scan.present physSector passed inside used
    · rw [unused physSector (by omega) below inside] at used
      cases used

/-- What is left of a sector's turn once the slots before it are freed. -/
def enterSector (physSector : Nat) : DbM (Option Nat) := do
  match ← readContactSector physSector with
  | .error ret => if ret = .strgFail then return none else return some (physSector * 6 + 6)
  | .ok content =>
      if !(← insertContactsFromSector (ofSector content) (physSector * 6)) then return none
      return some (physSector * 6 + 6)

include formed

theorem rebuild_sector_run {physSector lastFree : Nat}
    (inside : physSector < totalContactSectorSize)
    (used : usageBit base.usageBitmap physSector = true)
    (scan : ContactScan lost base card physSector lastFree db) :
    (lost (contactRaw physSector) = true ∧ ∃ next,
      lossy lost (reconstructContactSector physSector lastFree) db card = ((none, next), [])) ∨
    ∃ next, lossy lost (reconstructContactSector physSector lastFree) db card =
        ((some (physSector * 6 + 6), next), []) ∧
      ContactScan lost base card (physSector + 1) (physSector * 6 + 6) next := by
  have capacity : contactSectorCapacity = 6 := by simp
  have low : physSector * 6 < 65536 := by
    simp at inside
    omega
  have order := scan.order
  obtain ⟨middle, freed, entered⟩ :=
    @free_slots_run _ _ card lost _ _ scan.entered scan.order scan.untaken
  have read := @lossy_readContactSector lost middle card physSector inside
  have begins : lossy lost (reconstructContactSector physSector lastFree) db card =
      lossy lost (enterSector physSector) middle card := by
    unfold reconstructContactSector
    rw [capacity, u16_of_lt low, u16_of_lt (by omega : lastFree < 65536)]
    exact lossy_bind_read freed
  rw [begins, enterSector]
  cases present : lost (contactRaw physSector) with
  | true =>
      rw [present, if_pos rfl] at read
      refine Or.inl ⟨rfl, middle, ?_⟩
      rw [lossy_bind_read read]
      rfl
  | false =>
      rw [present, if_neg Bool.false_ne_true] at read
      have passed : ∀ other < physSector + 1, other < totalContactSectorSize →
          usageBit base.usageBitmap other = true → lost (contactRaw other) = false := by
        intro other before below inUse
        by_cases same : other = physSector
        · rw [same, present]
        · exact scan.present other (by omega) below inUse
      right
      cases valid : sectorCrcValid (card (contactRaw physSector)) with
      | false =>
          rw [valid, if_neg Bool.false_ne_true] at read
          refine ⟨middle, ?_, ?_, by omega, fun slot above below => by omega, passed⟩
          · rw [lossy_bind_read read]
            rfl
          · apply entered.pass_corrupt (by omega)
            intro slot above below
            have sector : slot / 6 = physSector := by omega
            rw [slotCorrupt, sector, used, valid, decide_eq_true inside]
            rfl
      | true =>
          rw [valid, if_pos rfl] at read
          have all : BitsLeft (ofSector (card (contactRaw physSector))) (physSector * 6)
              (physSector * 6)
              (ofSector (card (contactRaw physSector)) : ContactSector).usedBitmap := by
            intro position
            rw [decide_eq_true (by omega), Bool.true_and]
          obtain ⟨next, run, done⟩ := @enter_slots_run _ _ card lost _ formed _ _ inside used valid
            (fun slot below stored => by
              obtain ⟨record, place⟩ := Option.ne_none_iff_exists'.mp stored
              have facts := stored_contact_some place
              exact passed (slot / 6) (by omega) facts.1 facts.2.1)
            all 8 entered (le_refl _) (by omega) (by omega)
          refine ⟨next, ?_, done, by omega, fun slot above below => by omega, passed⟩
          have inserted : lossy lost (insertContactsFromSector
              (ofSector (card (contactRaw physSector))) (physSector * 6)) middle card =
              ((true, next), []) := run
          rw [lossy_bind_read read]
          dsimp only
          rw [lossy_bind_read inserted]
          rfl

omit formed in
theorem word_end_unused {bitmap : UsageBitmap} {start passed limit : Nat} {bits : BitVec 32}
    (inside : passed ≤ 32) (left : WordLeft bitmap start passed bits) (short : limit ≤ 32)
    (clear : ∀ bit < limit, bits.getLsbD bit = false)
    (reached : limit < 32 → totalContactSectorSize ≤ start + limit) (physSector : Nat)
    (above : start + passed ≤ physSector) (below : physSector < start + 32)
    (known : physSector < totalContactSectorSize) : usageBit bitmap physSector = false := by
  have place : start + (physSector - start) = physSector := by omega
  have before : physSector - start < limit := by
    by_contra behind
    have := reached (by omega)
    omega
  have bit := clear _ before
  rw [left _ (by omega), decide_eq_true (by omega), Bool.true_and, place] at bit
  exact bit

omit formed in
theorem ContactScan.end_word {start passed lastFree limit : Nat} {bits : BitVec 32}
    (scan : ContactScan lost base card (start + passed) lastFree db) (inside : passed ≤ 32)
    (left : WordLeft base.usageBitmap start passed bits) (short : limit ≤ 32)
    (clear : ∀ bit < limit, bits.getLsbD bit = false)
    (reached : limit < 32 → totalContactSectorSize ≤ start + limit) :
    ContactScan lost base card (start + 32) lastFree db :=
  scan.skip (by omega) (word_end_unused inside left short clear reached)

theorem rebuild_bits_run {word : Nat} (fuel : Nat) {passed lastFree : Nat} {bits : BitVec 32}
    (left : WordLeft base.usageBitmap (usageBitmapWordToIndex word) passed bits)
    (inside : passed ≤ 32) (enough : 32 ≤ passed + fuel)
    (scan : ContactScan lost base card (usageBitmapWordToIndex word + passed) lastFree db) :
    ScanEnds lost base card (usageBitmapWordToIndex word + 32)
      (lossy lost (reconstructContactBits word fuel bits lastFree) db card) := by
  induction fuel generalizing passed lastFree bits db with
  | zero =>
      rw [show passed = 32 by omega] at scan
      exact Or.inr ⟨lastFree, db, rfl, scan⟩
  | succ fuel ih =>
      unfold reconstructContactBits
      by_cases empty : bits = 0#32
      · rw [if_pos empty]
        exact Or.inr ⟨lastFree, db, rfl, scan.end_word inside left (le_refl 32)
          (fun bit _ => by rw [empty]; exact BitVec.getLsbD_zero) (fun short => by omega)⟩
      · rw [if_neg empty]
        obtain ⟨below, _, least⟩ := ctz_spec empty
        obtain ⟨low, used, clear, rest⟩ := left.rest empty
        generalize ctz bits = bit at below least low used clear rest ⊢
        dsimp only
        by_cases past : contactMemorySectorSize ≤ usageBitmapWordToIndex word + bit
        · rw [if_pos past]
          exact Or.inr ⟨lastFree, db, rfl, scan.end_word inside left (by omega) least
            fun _ => past⟩
        · rw [if_neg past]
          have known : usageBitmapWordToIndex word + bit < totalContactSectorSize := by
            simpa using past
          have narrow : u16 (usageBitmapWordToIndex word + bit) =
              usageBitmapWordToIndex word + bit := by
            apply u16_of_lt (lt_trans known _)
            simp
          have reached := scan.skip (Nat.add_le_add_left low _)
            fun physSector above before _ => clear physSector above before
          rw [narrow]
          rcases rebuild_sector_run formed known used reached with
            ⟨isLost, middle, run⟩ | ⟨middle, run, scanMiddle⟩
          · refine Or.inl ⟨⟨_, known, used, isLost⟩, middle, ?_⟩
            rw [lossy_bind_read run]
            rfl
          · rw [Nat.add_assoc] at scanMiddle
            rw [lossy_bind_read run]
            exact ih rest (by omega) (by omega) scanMiddle

theorem rebuild_words_run (count : Nat) {word lastFree : Nat}
    (scan : ContactScan lost base card (usageBitmapWordToIndex word) lastFree db) :
    ScanEnds lost base card (usageBitmapWordToIndex (word + count))
      (lossy lost (reconstructContactWords 0 0 count word lastFree) db card) := by
  induction count generalizing word lastFree db with
  | zero => exact Or.inr ⟨lastFree, db, rfl, scan⟩
  | succ count ih =>
      rw [show word + (count + 1) = word + 1 + count by omega]
      unfold reconstructContactWords
      have next := word_to_index_next word
      cases trailer : usageBitmapIsCrcWord word with
      | true =>
          rw [trailer, if_pos rfl] at next
          rw [← next] at scan
          rw [if_pos rfl]
          exact ih scan
      | false =>
          rw [trailer, if_neg Bool.false_ne_true] at next
          have notFirst : ¬(word = 0 ∧ 0 < 0) := by omega
          rw [if_neg Bool.false_ne_true, lossy_bind_read (lossy_get db card)]
          dsimp only
          rw [if_neg notFirst, scan.entered.bitmap]
          rw [← Nat.add_zero (usageBitmapWordToIndex word)] at scan
          rcases rebuild_bits_run formed 32 (word_left_whole base.usageBitmap trailer)
            (Nat.zero_le 32) (by omega) scan with
            ⟨isLost, middle, run⟩ | ⟨after, middle, run, scanMiddle⟩
          · refine Or.inl ⟨isLost, middle, ?_⟩
            rw [lossy_bind_read run]
            rfl
          · rw [lossy_bind_read run]
            rw [← next] at scanMiddle
            exact ih scanMiddle

theorem contact_scan_run (fresh : ContactsEntered base card 0 base) :
    (SectorLost lost base.usageBitmap ∧
      ∃ next, lossy lost hashReconstructContact base card = ((false, next), [])) ∨
    (¬SectorLost lost base.usageBitmap ∧
      ∃ next, lossy lost hashReconstructContact base card = ((true, next), []) ∧
        ContactsEntered base card hashTableEntries next) := by
  have start : ContactScan lost base card (usageBitmapWordToIndex 0) 0 base :=
    { entered := fresh
      order := Nat.zero_le _
      untaken := fun slot _ below => by simp at below
      present := fun physSector below => by simp at below }
  have firstWord : usageBitmapFindIndex contactDataStartSector = 0 := rfl
  have firstBit : usageBitmapFindBit contactDataStartSector = 0 := rfl
  have lastWord : usageBitmapFindIndex (contactDataStartSector + contactMemorySectorSize) = 52 :=
    rfl
  have limit : u16 (usageBitmapStorageSize * bitsPerElement) = 32768 := rfl
  have words : usageBitmapWordToIndex (0 + 53) = 1696 := rfl
  unfold hashReconstructContact
  rw [firstWord, firstBit, lastWord, limit]
  rcases rebuild_words_run formed 53 start with
    ⟨isLost, next, run⟩ | ⟨after, middle, run, scan⟩
  · left
    refine ⟨isLost, next, ?_⟩
    rw [lossy_bind_read run]
    rfl
  · rw [words] at scan
    have present : ¬SectorLost lost base.usageBitmap := by
      intro ⟨physSector, inside, used, isLost⟩
      have below : physSector < 1696 := by
        simp at inside
        omega
      rw [scan.present physSector below inside used] at isLost
      cases isLost
    have order := scan.order
    have untaken : ∀ slot, after ≤ slot → slot < 32768 →
        slotTaken base.usageBitmap card slot = false := by
      intro slot above _
      by_cases passed : slot < 1696 * 6
      · exact scan.untaken slot above passed
      · have outside : ¬slot / 6 < totalContactSectorSize := by
          simp
          omega
        rw [slotTaken, stored_contact_outside outside, slotCorrupt, decide_eq_false outside]
        rfl
    obtain ⟨last, freed, done⟩ :=
      @free_slots_run _ _ card lost _ 32768 scan.entered (by omega) untaken
    right
    refine ⟨present, last, ?_, done.trim formed (by simp)⟩
    rw [lossy_bind_read run]
    dsimp only
    rw [u16_of_lt (by omega : after < 65536), lossy_bind_read freed]
    rfl

end Scan

/-- What the rebuild leaves behind when it succeeds. -/
structure ContactsRebuilt (lost : Nat → Bool) (start after : Database) (card : Card Sector) :
    Prop where
  finds : ∀ number sector,
    (∃ slot, lossy lost (hashFindEntry number) after card = ((some slot, after), []) ∧
      (after.htable.htable slot).state = .occupied ∧
      (after.htable.htable slot).sector = sector) ↔
    storedPhone start.usageBitmap card sector = some number
  entries : ∀ slot, (after.htable.htable slot).state = .occupied →
    ∃ number, storedPhone start.usageBitmap card (after.htable.htable slot).sector = some number ∧
      (after.htable.htable slot).id = hashPhone number
  numElems : after.htable.numElems = ((List.range hashTableEntries).filter fun slot =>
    (storedContact start.usageBitmap card slot).isSome).length
  nodup : after.contactAllocator.freeStack.Nodup
  mem : ∀ slot, slot ∈ after.contactAllocator.freeStack ↔ slot < hashTableEntries ∧
    storedContact start.usageBitmap card slot = none ∧
    slotCorrupt start.usageBitmap card slot = false

section Rebuilt

variable {base db : Database} {card : Card Sector} {lost : Nat → Bool}

theorem contacts_entered_start (table : base.htable = hashInit hashTableSize)
    (empty : freeListEmptyInit hashTableEntries = some base.contactAllocator) :
    ContactsEntered base card 0 base where
  same := rfl
  size := by rw [table]; rfl
  table :=
    { inside := fun slot full => by
        rw [table] at full
        exact absurd rfl full
      entry := fun slot occupied => by
        rw [table] at occupied
        cases occupied
      placed := fun sector given => absurd (if_neg (Nat.not_lt_zero sector)) given
      separate := fun first second occupied => by
        rw [table] at occupied
        cases occupied }
  noChats slot occupied := by
    rw [table] at occupied
    cases occupied
  number := by rw [table]; rfl
  free := by
    have started : some ⟨[], hashTableEntries, hashTableEntries⟩ = some base.contactAllocator :=
      empty
    rw [← Option.some.inj started]
    exact free_below_start _ _ _

theorem ContactsEntered.rebuilt (entered : ContactsEntered base card hashTableEntries db)
    (formed : ContactsFormed base.usageBitmap card) (present : ¬SectorLost lost base.usageBitmap) :
    ContactsRebuilt lost base db card := by
  have size := entered.size
  have all : phonesBelow hashTableEntries (storedPhone base.usageBitmap card) =
      storedPhone base.usageBitmap card := by
    funext slot
    unfold phonesBelow
    split
    next => rfl
    next above =>
      symm
      rw [stored_phone_none]
      by_contra given
      exact above (formed.inside slot given)
  have holds := entered.table
  rw [all] at holds
  have small : db.htable.size < 65536 := by
    rw [size]
    decide
  have reads : PhonesRead lost db card (storedPhone base.usageBitmap card) := by
    apply stored_phones_read
    intro sector number known
    obtain ⟨record, place, _⟩ := stored_phone_some known
    have facts := stored_contact_some place
    rw [entered.bitmap]
    refine ⟨known, ?_⟩
    by_contra isLost
    rw [Bool.not_eq_false] at isLost
    exact present ⟨_, facts.1, facts.2.1, isLost⟩
  have hold := entered.free.hold (le_refl _)
  exact
    { finds := fun number sector => by
        constructor
        · intro ⟨slot, find, occupied, place⟩
          rw [← place]
          exact (lossy_find_occupied holds reads small find occupied).stored
        · intro stored
          obtain ⟨slot, occupied, place⟩ := holds.placed sector (by
            rw [stored]
            exact Option.some_ne_none _)
          rw [← place] at stored
          exact ⟨slot, lossy_find_present holds reads formed.distinct small occupied stored,
            occupied, place⟩
      entries := fun slot occupied => by
        obtain ⟨number, entry⟩ := holds.entry slot occupied
        exact ⟨number, entry.stored, entry.id⟩
      numElems := by
        rw [entered.number, List.countP_eq_length_filter]
      nodup := hold.nodup
      mem := fun slot => by
        rw [hold.mem, slotTaken, Bool.not_eq_true, Bool.or_eq_false_iff,
          Option.isSome_eq_false_iff, Option.isNone_iff_eq_none] }

end Rebuilt

/-- The rebuild succeeds when no sector in use is lost, and then table and free list
are what the card says. -/
theorem contact_rebuild_exact (lost : Nat → Bool) (start : Database) (card : Card Sector)
    (table : start.htable = hashInit hashTableSize)
    (empty : freeListEmptyInit hashTableEntries = some start.contactAllocator)
    (formed : ContactsFormed start.usageBitmap card) :
    ∃ answer after,
      lossy lost hashReconstructContact start card = ((answer, after), []) ∧
      (answer = true ↔ ¬SectorLost lost start.usageBitmap) ∧
      (answer = true → ContactsRebuilt lost start after card) := by
  rcases contact_scan_run formed (contacts_entered_start table empty) with
    ⟨isLost, after, run⟩ | ⟨present, after, run, entered⟩
  · refine ⟨false, after, run, ?_, fun impossible => by cases impossible⟩
    exact ⟨fun impossible => (by cases impossible), fun absent => absurd isLost absent⟩
  · refine ⟨true, after, run, ?_, fun _ => entered.rebuilt formed present⟩
    exact ⟨fun _ => present, fun _ => rfl⟩

/-- A record in slot 1; every other sector is a blank one without a valid checksum. -/
def exampleContactCard : Card Sector := fun raw =>
  if raw = contactRaw 0 then
    sectorCrcStamp (toSector (ContactSector.zero.put 1 (createContact [65#8] [49#8, 50#8])))
  else toSector ContactSector.zero

/-- Before the rebuild, with sectors 0 and 3 in use. -/
def exampleUnbuilt : Database :=
  { blankDatabase with
    htable := hashInit hashTableSize
    contactAllocator := ⟨[], hashTableEntries, hashTableEntries⟩
    usageBitmap := setUsageBit (setUsageBit .zero 0 true) 3 true }

theorem contact_rebuild_exact_example :
    ∃ answer after,
      lossy (fun raw => raw == contactRaw 4) hashReconstructContact exampleUnbuilt
        exampleContactCard = ((answer, after), []) ∧
      (answer = true ↔
        ¬SectorLost (fun raw => raw == contactRaw 4) exampleUnbuilt.usageBitmap) ∧
      (answer = true → ContactsRebuilt (fun raw => raw == contactRaw 4) exampleUnbuilt after
        exampleContactCard) := by
  have bits : ∀ physSector position, (ofSector (exampleContactCard (contactRaw physSector)) :
      ContactSector).usedBitmap.getLsbD position = true → physSector = 0 ∧ position = 1 := by
    intro physSector position set
    unfold exampleContactCard at set
    by_cases first : physSector = 0
    · rw [first, if_pos rfl, of_sector_stamp, of_to_sector] at set
      refine ⟨first, ?_⟩
      have bitmap : (ContactSector.zero.put 1 (createContact [65#8] [49#8, 50#8])).usedBitmap =
          2#8 := by decide
      rw [bitmap] at set
      have second : ∀ position < 8, (2#8).getLsbD position = true → position = 1 := by decide
      exact second position (BitVec.lt_of_getLsbD set) set
    · have other : contactRaw physSector ≠ contactRaw 0 := by
        unfold contactRaw
        omega
      rw [if_neg other, of_to_sector] at set
      exact absurd set (by simp [ContactSector.zero])
  have only : ∀ slot, storedContact exampleUnbuilt.usageBitmap exampleContactCard slot ≠ none →
      slot = 1 := by
    intro slot given
    obtain ⟨record, stored⟩ := Option.ne_none_iff_exists'.mp given
    have used := (stored_contact_some stored).2.2.2.1
    rw [slot_used_eq _ (by omega)] at used
    have place := bits _ _ used
    omega
  apply contact_rebuild_exact _ _ _ rfl rfl
  refine ⟨?_, ?_, ?_⟩
  · intro physSector _ _ _ position above
    by_contra set
    rw [Bool.not_eq_false] at set
    have place := bits _ _ set
    omega
  · intro slot given
    rw [only slot given]
    decide
  · intro first second number firstStored secondStored
    obtain ⟨_, left, _⟩ := stored_phone_some firstStored
    obtain ⟨_, right, _⟩ := stored_phone_some secondStored
    rw [only first (by rw [left]; exact Option.some_ne_none _),
      only second (by rw [right]; exact Option.some_ne_none _)]

end SdDatabase
