import SdDatabase.FewCalls

/-!
# The representation invariant

What memory and card of a machine have to do with one another, said of the hash
table, the indexes, the allocators and the sectors as they are. Every machine behind
a format, calls and reboots keeps it.
-/

namespace SdDatabase

open Bytes Device

set_option autoImplicit false

def Contact.nameText (record : Contact) : List Byte :=
  (List.ofFn record.name).take record.nameLen.toNat

def Contact.phoneText (record : Contact) : List Byte := cstr record.phone

/-- Case-folded name, name, phone number of a stored record. -/
def recordKey (record : Contact) : NameKey :=
  toLex (comparedBytes true record.nameText,
    toLex (comparedBytes false record.nameText, comparedBytes false record.phoneText))

theorem record_name (identity : Identity) : identity.record.nameText = identity.name := by
  rw [Contact.nameText, record_nameLen, record_name_take]

theorem record_phone (identity : Identity) : identity.record.phoneText = identity.phone :=
  record_phone_cstr identity

theorem record_key (identity : Identity) : recordKey identity.record = nameKey identity := by
  rw [recordKey, record_name, record_phone, nameKey]

namespace Machine

section Parts

variable (machine : Machine)

def Occupied (hashSlot : Nat) : Prop := (machine.db.htable.htable hashSlot).state = .occupied

instance (hashSlot : Nat) : Decidable (machine.Occupied hashSlot) :=
  inferInstanceAs (Decidable ((machine.db.htable.htable hashSlot).state = .occupied))

def contactSectorAt (physSector : Nat) : ContactSector :=
  ofSector (machine.card (contactRaw physSector))

def messageSectorAt (index : Nat) : MessageSector := ofSector (machine.card (messageRaw index))

/-- The record of the contact that an entry of the hash table stands for. -/
def recordAt (hashSlot : Nat) : Contact :=
  let slot := (machine.db.htable.htable hashSlot).sector
  arrayGet (machine.contactSectorAt (slot / contactSectorCapacity)).contacts
    (slot % contactSectorCapacity) .zero

/-- A contact slot that was handed out. -/
def Allocated (slot : Nat) : Prop :=
  slot < hashTableEntries ∧ slot ∉ machine.db.contactAllocator.freeStack

/-- The sectors from `index` on along `prev`. -/
def walk : Nat → Nat → List Nat
  | 0, _ => []
  | count + 1, index =>
      if index = uint16Max then []
      else index :: walk count (machine.messageSectorAt index).header.prev.toNat

/-- The message sectors of an entry of the hash table, newest first. -/
def chainAt (hashSlot : Nat) : List Nat :=
  machine.walk totalMessageSectorSize (machine.db.htable.htable hashSlot).latestMsgExtent

end Parts

/-- The newer sector of a chat and the next older one point to each other. -/
def Linked (machine : Machine) (newer older : Nat) : Prop :=
  (machine.messageSectorAt newer).header.prev.toNat = older ∧
    (machine.messageSectorAt older).header.next.toNat = newer

/-- The chats of the machine are chains of sectors. -/
structure ChainsRepresented (machine : Machine) : Prop where
  starts : ∀ hashSlot, machine.Occupied hashSlot →
    (machine.chainAt hashSlot).headD uint16Max = (machine.db.htable.htable hashSlot).latestMsgExtent
  first : ∀ hashSlot, machine.Occupied hashSlot → ∀ index ∈ (machine.chainAt hashSlot).head?,
    (machine.messageSectorAt index).header.next.toNat = uint16Max
  last : ∀ hashSlot, machine.Occupied hashSlot → ∀ index ∈ (machine.chainAt hashSlot).getLast?,
    (machine.messageSectorAt index).header.prev.toNat = uint16Max
  linked : ∀ hashSlot, machine.Occupied hashSlot →
    (machine.chainAt hashSlot).IsChain machine.Linked
  nodup : ∀ hashSlot, machine.Occupied hashSlot → (machine.chainAt hashSlot).Nodup
  apart : ∀ first second, machine.Occupied first → machine.Occupied second →
    ∀ index ∈ machine.chainAt first, index ∈ machine.chainAt second → first = second
  owner : ∀ hashSlot, machine.Occupied hashSlot → ∀ index ∈ machine.chainAt hashSlot,
    (machine.messageSectorAt index).header.contactIndex.toNat =
      (machine.db.htable.htable hashSlot).sector
  counted : ∀ hashSlot, machine.Occupied hashSlot → ∀ index ∈ machine.chainAt hashSlot,
    0 < (machine.messageSectorAt index).header.msgCount.toNat ∧
      (machine.messageSectorAt index).header.msgCount.toNat ≤ messageSectorCapacity
  used : ∀ index < totalMessageSectorSize,
    usageBit machine.db.usageBitmap (messageDataSector index) = true ↔
      ∃ hashSlot, machine.Occupied hashSlot ∧ index ∈ machine.chainAt hashSlot
  free : ∀ index, index ∈ machine.db.messageAllocator.freeStack ↔
    index < totalMessageSectorSize ∧
      usageBit machine.db.usageBitmap (messageDataSector index) = false

/-- Hash table, indexes and contact sectors of the machine agree. -/
structure ContactsRepresented (machine : Machine) : Prop where
  phones : ∀ first second, machine.Occupied first → machine.Occupied second →
    (machine.recordAt first).phoneText = (machine.recordAt second).phoneText → first = second
  found : ∀ hashSlot, machine.Occupied hashSlot →
    (machine.run (hashFindEntry (machine.recordAt hashSlot).phoneText)).1 = some hashSlot
  sorted : machine.db.nameIndex.mem.Pairwise fun left right =>
    recordKey (machine.recordAt left.hashSlot) < recordKey (machine.recordAt right.hashSlot)
  keyed : ∀ entry ∈ machine.db.nameIndex.mem,
    entry.key = sortedArrayMakeKey (machine.recordAt entry.hashSlot).nameText
  indexed : ∀ hashSlot, hashSlot ∈ machine.db.nameIndex.mem.map SortedArrayEntry.hashSlot ↔
    machine.Occupied hashSlot
  recentNodup : machine.db.chatOrder.mem.Nodup
  recent : ∀ hashSlot, hashSlot ∈ machine.db.chatOrder.mem ↔
    machine.Occupied hashSlot ∧
      (machine.db.htable.htable hashSlot).latestMsgExtent ≠ uint16Max
  indexCount : machine.db.htable.numElems = machine.db.nameIndex.mem.length
  entryCount : machine.db.htable.numElems =
    (List.range hashTableSize).countP fun hashSlot => decide (machine.Occupied hashSlot)
  slotCount : machine.db.htable.numElems + machine.db.contactAllocator.freeStack.length =
    hashTableEntries
  slots : ∀ slot, machine.Allocated slot ↔
    ∃ hashSlot, machine.Occupied hashSlot ∧ (machine.db.htable.htable hashSlot).sector = slot
  sectorUsed : ∀ physSector < totalContactSectorSize,
    usageBit machine.db.usageBitmap physSector = true ↔
      ∃ position < contactSectorCapacity,
        machine.Allocated (physSector * contactSectorCapacity + position)
  slotUsed : ∀ physSector < totalContactSectorSize,
    usageBit machine.db.usageBitmap physSector = true → ∀ position,
      (machine.contactSectorAt physSector).usedBitmap.getLsbD position = true ↔
        position < contactSectorCapacity ∧
          machine.Allocated (physSector * contactSectorCapacity + position)

/-- Memory and card agree. -/
structure Represented (machine : Machine) : Prop where
  contacts : machine.ContactsRepresented
  chains : machine.ChainsRepresented
  bitmap : BitmapMirrored machine.db.usageBitmap machine.card

end Machine

section Represented

variable {machine : Machine} {view : View} {chain : Nat → List Nat} {listing : Listing}

theorem Mounted.record_at (mounted : Mounted machine.db machine.card view chain listing)
    {hashSlot : Nat} {identity : Identity}
    (stored : view.contact (machine.db.htable.htable hashSlot).sector = some identity) :
    machine.recordAt hashSlot = identity.record := by
  have contacts := mounted.core.holds.contacts
  have bound := mounted.core.contact_bound stored
  unfold Machine.recordAt
  dsimp only
  generalize (machine.db.htable.htable hashSlot).sector = slot at stored bound ⊢
  have low : slot % 6 < 6 := Nat.mod_lt _ (by decide)
  have whole : slot / 6 * 6 + slot % 6 = slot := Nat.div_add_mod' slot 6
  have inside : slot / 6 < totalContactSectorSize := by
    simp at bound ⊢
    omega
  have used := (contacts.used (slot / 6) inside).mpr
    ⟨slot % 6, low, by rw [whole, stored]; exact Option.some_ne_none _⟩
  exact (contacts.sectors (slot / 6) inside used).slots.records (slot % 6) low identity
    (by rw [whole]; exact stored)

theorem Mounted.message_sector_at (mounted : Mounted machine.db machine.card view chain listing)
    {index : Nat} {mSector : MessageSector} (found : view.sector index = some mSector) :
    machine.messageSectorAt index = mSector :=
  (mounted.core.holds.messages.sectors index mSector found).2

theorem walk_chain (mounted : Mounted machine.db machine.card view chain listing) {start : Nat}
    {sectors : List Nat} (linked : PrevChain view.sector start sectors) {count : Nat}
    (enough : sectors.length ≤ count) : machine.walk count start = sectors := by
  induction count generalizing start sectors with
  | zero =>
      rw [List.length_eq_zero_iff.mp (Nat.le_zero.mp enough)]
      rfl
  | succ count ih =>
      cases sectors with
      | nil => exact if_pos linked
      | cons index rest =>
          obtain ⟨rfl, mSector, found, older⟩ := linked
          have inside := mounted.core.holds.messages.bound start
            (by rw [found]; exact Option.some_ne_none _)
          have noEnd := index_not_end inside
          rw [Machine.walk, if_neg noEnd, mounted.message_sector_at found,
            ih older (by simpa using enough)]

theorem Mounted.chain_at (mounted : Mounted machine.db machine.card view chain listing)
    {hashSlot : Nat} (occupied : machine.Occupied hashSlot) :
    machine.chainAt hashSlot = chain (machine.db.htable.htable hashSlot).sector := by
  have linked := mounted.core.chats.linked (machine.db.htable.htable hashSlot).sector
  rw [Machine.chainAt, latest_of mounted.core occupied]
  exact walk_chain mounted linked (mounted.core.short _)

theorem Mounted.entry_contact (mounted : Mounted machine.db machine.card view chain listing)
    {hashSlot : Nat} (occupied : machine.Occupied hashSlot) :
    ∃ identity, view.contact (machine.db.htable.htable hashSlot).sector = some identity ∧
      machine.recordAt hashSlot = identity.record := by
  obtain ⟨identity, entry⟩ := mounted.core.table.entry hashSlot occupied
  exact ⟨identity, entry.stored, mounted.record_at entry.stored⟩

theorem prev_chain_last {sector : Nat → Option MessageSector} {start : Nat} {sectors : List Nat}
    (linked : PrevChain sector start sectors) {index : Nat} (last : index ∈ sectors.getLast?)
    {mSector : MessageSector} (found : sector index = some mSector) :
    mSector.header.prev.toNat = uint16Max := by
  induction sectors generalizing start with
  | nil => cases last
  | cons head rest ih =>
      obtain ⟨rfl, known, knownFound, older⟩ := linked
      cases rest with
      | nil =>
          obtain rfl : start = index := by simpa using last
          obtain rfl : known = mSector := Option.some_injective _ (knownFound.symm.trans found)
          exact older
      | cons next others =>
          rw [List.getLast?_cons_cons] at last
          exact ih older last

theorem chain_linked (mounted : Mounted machine.db machine.card view chain listing)
    {start next : Nat} {sectors : List Nat} (back : PrevChain view.sector start sectors)
    (forth : NextChain view.sector next sectors) : sectors.IsChain machine.Linked := by
  induction sectors generalizing start next with
  | nil => exact .nil
  | cons head rest ih =>
      obtain ⟨rfl, mHead, headFound, older⟩ := back
      cases rest with
      | nil => exact .singleton _
      | cons index others =>
          refine .cons_cons ⟨?_, ?_⟩ (ih older forth.2)
          · rw [mounted.message_sector_at headFound]
            exact older.1
          · obtain ⟨mSector, found, points⟩ := forth.2.1
            rw [mounted.message_sector_at found]
            exact points

theorem Mounted.message_bit (mounted : Mounted machine.db machine.card view chain listing)
    {index : Nat} (inside : index < totalMessageSectorSize) :
    usageBit machine.db.usageBitmap (messageDataSector index) = true ↔
      view.sector index ≠ none := by
  rw [mounted.core.holds.messages.used index inside]
  exact Option.isSome_iff_ne_none

theorem Mounted.free_sectors (mounted : Mounted machine.db machine.card view chain listing)
    (index : Nat) : index ∈ machine.db.messageAllocator.freeStack ↔
      index < totalMessageSectorSize ∧
        usageBit machine.db.usageBitmap (messageDataSector index) = false := by
  rw [mounted.core.messageFree.mem]
  refine and_congr_right fun inside => ?_
  rw [← mounted.message_bit inside, Bool.not_eq_true]

theorem Mounted.used_sector (mounted : Mounted machine.db machine.card view chain listing)
    (covered : ∀ index mSector, view.sector index = some mSector →
      index ∈ chain mSector.header.contactIndex.toNat)
    {index : Nat} (used : view.sector index ≠ none) :
    ∃ hashSlot, machine.Occupied hashSlot ∧ index ∈ machine.chainAt hashSlot := by
  obtain ⟨mSector, found⟩ := Option.ne_none_iff_exists'.mp used
  have member := covered index mSector found
  obtain ⟨identity, stored⟩ := Option.ne_none_iff_exists'.mp
    (mounted.core.chats.contacts _ (List.ne_nil_of_mem member))
  obtain ⟨hashSlot, occupied, place, _⟩ := mounted.core.slot_of stored
  refine ⟨hashSlot, occupied, ?_⟩
  rwa [mounted.chain_at occupied, place]

theorem Mounted.chains_apart (mounted : Mounted machine.db machine.card view chain listing)
    {first second index : Nat} (firstOccupied : machine.Occupied first)
    (secondOccupied : machine.Occupied second) (inFirst : index ∈ machine.chainAt first)
    (inSecond : index ∈ machine.chainAt second) : first = second := by
  rw [mounted.chain_at firstOccupied] at inFirst
  rw [mounted.chain_at secondOccupied] at inSecond
  exact mounted.core.table.separate _ _ firstOccupied secondOccupied
    (mounted.core.chats.apart inFirst inSecond)

theorem chains_represented (mounted : Mounted machine.db machine.card view chain listing)
    (tidy : Tidy view chain) : machine.ChainsRepresented := by
  have chats := mounted.core.chats
  have whole := fun hashSlot occupied => @Mounted.chain_at _ _ _ _ mounted hashSlot occupied
  have at_ : ∀ hashSlot, machine.Occupied hashSlot → ∀ index ∈ machine.chainAt hashSlot,
      ∃ mSector, view.sector index = some mSector ∧ machine.messageSectorAt index = mSector ∧
        index ∈ chain (machine.db.htable.htable hashSlot).sector := by
    intro hashSlot occupied index member
    rw [whole hashSlot occupied] at member
    obtain ⟨mSector, found⟩ := chats.member member
    exact ⟨mSector, found, mounted.message_sector_at found, member⟩
  refine ⟨fun hashSlot occupied => ?_, fun hashSlot occupied index member => ?_,
    fun hashSlot occupied index member => ?_, fun hashSlot occupied => ?_,
    fun hashSlot occupied => ?_, fun first second firstOccupied secondOccupied index inFirst
      inSecond => ?_, fun hashSlot occupied index member => ?_,
    fun hashSlot occupied index member => ?_, fun index inside => ?_, fun index => ?_⟩
  · rw [whole hashSlot occupied, latest_of mounted.core occupied]
    rfl
  · obtain ⟨mSector, found, stored, _⟩ := at_ hashSlot occupied index
      (List.mem_of_mem_head? member)
    rw [whole hashSlot occupied] at member
    have links := tidy.nexts (machine.db.htable.htable hashSlot).sector
    cases sectors : chain (machine.db.htable.htable hashSlot).sector with
    | nil =>
        rw [sectors] at member
        cases member
    | cons head rest =>
        rw [sectors] at member links
        obtain rfl : head = index := by simpa using member
        obtain ⟨⟨known, knownFound, points⟩, _⟩ := links
        obtain rfl : known = mSector := Option.some_injective _ (knownFound.symm.trans found)
        rw [stored]
        exact points
  · obtain ⟨mSector, found, stored, _⟩ := at_ hashSlot occupied index
      (List.mem_of_mem_getLast? member)
    rw [whole hashSlot occupied] at member
    rw [stored]
    exact prev_chain_last (chats.linked _) member found
  · rw [whole hashSlot occupied]
    exact chain_linked mounted (chats.linked _) (tidy.nexts _)
  · rw [whole hashSlot occupied]
    exact chats.separate _
  · exact mounted.chains_apart firstOccupied secondOccupied inFirst inSecond
  · obtain ⟨mSector, found, stored, member⟩ := at_ hashSlot occupied index member
    rw [stored]
    exact chats.owned _ index member mSector found
  · obtain ⟨mSector, found, stored, member⟩ := at_ hashSlot occupied index member
    rw [stored]
    exact chats.counted _ index member mSector found
  · rw [mounted.message_bit inside]
    refine ⟨mounted.used_sector tidy.covered, ?_⟩
    rintro ⟨hashSlot, occupied, member⟩
    obtain ⟨mSector, found, _⟩ := at_ hashSlot occupied index member
    rw [found]
    exact Option.some_ne_none _
  · exact mounted.free_sectors index

theorem allocated_iff (mounted : Mounted machine.db machine.card view chain listing) (slot : Nat) :
    machine.Allocated slot ↔ view.contact slot ≠ none := by
  unfold Machine.Allocated
  rw [mounted.core.contactFree.mem]
  constructor
  · rintro ⟨inside, given⟩ free
    exact given ⟨inside, not_not.mpr free⟩
  · intro stored
    exact ⟨mounted.core.holds.contacts.bound slot stored, fun free => free.2 stored⟩

theorem occupied_iff_listed (mounted : Mounted machine.db machine.card view chain listing)
    (hashSlot : Nat) : machine.Occupied hashSlot ↔ hashSlot ∈ listing.map Prod.fst := by
  rw [List.mem_map]
  constructor
  · intro occupied
    obtain ⟨identity, stored, _⟩ := mounted.entry_contact occupied
    exact ⟨_, mounted.listed_of occupied stored, rfl⟩
  · rintro ⟨item, member, rfl⟩
    exact (mounted.listed_contact member).1

/-- The index has as many entries as the table has occupied slots. -/
theorem occupied_count (mounted : Mounted machine.db machine.card view chain listing) :
    listing.length =
      (List.range hashTableSize).countP fun hashSlot => decide (machine.Occupied hashSlot) := by
  have same : (listing.map Prod.fst).Perm
      ((List.range hashTableSize).filter fun hashSlot => decide (machine.Occupied hashSlot)) := by
    refine (List.perm_ext_iff_of_nodup mounted.names.slots_nodup
      (List.nodup_range.filter _)).mpr fun hashSlot => ?_
    rw [← occupied_iff_listed mounted, List.mem_filter, List.mem_range, decide_eq_true_eq]
    refine ⟨fun occupied => ⟨mounted.core.table.inside hashSlot ?_, occupied⟩, And.right⟩
    intro empty
    have state : (machine.db.htable.htable hashSlot).state = .occupied := occupied
    rw [state] at empty
    cases empty
  rw [List.countP_eq_length_filter, ← same.length_eq, List.length_map]

theorem contacts_represented (mounted : Mounted machine.db machine.card view chain listing) :
    machine.ContactsRepresented := by
  have table := mounted.core.table
  have contacts := mounted.core.holds.contacts
  have names := mounted.names
  have allocated := allocated_iff mounted
  have entryOf := fun hashSlot occupied => @Mounted.entry_contact _ _ _ _ mounted hashSlot occupied
  have listed : ∀ item ∈ listing, machine.recordAt item.1 = item.2.record := fun item member =>
    mounted.record_at (mounted.listed_contact member).2
  have indexMem : machine.db.nameIndex.mem = listing.map listedEntry := by
    rw [names.index]
    rfl
  have slots := mounted.count_slots
  refine ⟨?_, ?_, ?_, ?_, fun hashSlot => ?_, mounted.order.nodup, mounted.order.mem, ?_, ?_, ?_,
    fun slot => ?_, fun physSector inside => ?_, fun physSector inside used position => ?_⟩
  · intro first second firstOccupied secondOccupied same
    obtain ⟨left, leftStored, leftRecord⟩ := entryOf first firstOccupied
    obtain ⟨right, rightStored, rightRecord⟩ := entryOf second secondOccupied
    rw [leftRecord, rightRecord, record_phone, record_phone] at same
    exact table.separate _ _ firstOccupied secondOccupied
      (mounted.core.distinct _ _ _ _ leftStored rightStored same)
  · intro hashSlot occupied
    obtain ⟨identity, stored, record⟩ := entryOf hashSlot occupied
    rw [record, record_phone,
      Machine.run_of (find_present table contacts mounted.core.distinct occupied stored)]
  · rw [indexMem, List.pairwise_map]
    refine names.sorted.imp_of_mem fun {left right} leftIn rightIn less => ?_
    have leftRecord := listed left leftIn
    have rightRecord := listed right rightIn
    simp only [listedEntry]
    rwa [leftRecord, rightRecord, record_key, record_key]
  · intro entry member
    rw [indexMem] at member
    obtain ⟨item, inListing, rfl⟩ := List.mem_map.mp member
    have record := listed item inListing
    simp only [listedEntry]
    rw [record, record_name]
  · rw [indexMem, List.map_map, occupied_iff_listed mounted]
    rfl
  · rw [indexMem, List.length_map, mounted.count]
  · rw [mounted.count, occupied_count mounted]
  · rw [mounted.count]
    omega
  · rw [allocated]
    constructor
    · intro stored
      obtain ⟨identity, found⟩ := Option.ne_none_iff_exists'.mp stored
      obtain ⟨hashSlot, occupied, place, _⟩ := mounted.core.slot_of found
      exact ⟨hashSlot, occupied, place⟩
    · rintro ⟨hashSlot, occupied, rfl⟩
      obtain ⟨identity, stored, _⟩ := entryOf hashSlot occupied
      rw [stored]
      exact Option.some_ne_none _
  · rw [contacts.used physSector inside]
    exact exists_congr fun position => and_congr_right fun _ => (allocated _).symm
  · have sector := (contacts.sectors physSector inside used).slots
    have six : contactSectorCapacity = 6 := rfl
    rw [allocated, six]
    by_cases low : position < 6
    · rw [Machine.contactSectorAt, sector.slots position low, Option.isSome_iff_ne_none]
      exact ⟨fun stored => ⟨low, stored⟩, And.right⟩
    · rw [Machine.contactSectorAt, sector.onlySlots position (by omega)]
      exact ⟨fun false_ => absurd false_ Bool.false_ne_true, fun both => absurd both.1 low⟩

end Represented

/-- Memory and card agree in every reachable machine. -/
theorem reachable_represented {machine : Machine} (reachable : Reachable machine) :
    machine.Represented := by
  obtain ⟨_, view, chain, listing, mounted, tidy, _⟩ := reachable.sound
  exact ⟨contacts_represented mounted, chains_represented mounted tidy,
    mounted.core.holds.bits.mirror⟩

/-- Two contacts are left of three, one of them with a chat of two sectors. -/
theorem reachable_represented_example :
    exampleBook.Represented ∧ exampleBook.db.htable.numElems = 2 ∧
      ∃ hashSlot, exampleBook.Occupied hashSlot ∧ 2 ≤ (exampleBook.chainAt hashSlot).length := by
  obtain ⟨view, chain, listing, mounted, _, is⟩ := example_book_sound
  have chats := example_phone_book_chats
  rw [← is] at chats
  refine ⟨reachable_represented example_book_reachable, ?_, ?_⟩
  · have count := congrArg List.length chats
    rw [modelOf, List.length_map, List.length_map] at count
    rw [mounted.count, count]
    rfl
  · obtain ⟨person, member, _, many⟩ := example_long_chat
    rw [← is] at member
    obtain ⟨slot, stored, long⟩ := long_chat_listed mounted member many
    obtain ⟨hashSlot, occupied, place, _⟩ := mounted.core.slot_of stored
    refine ⟨hashSlot, occupied, ?_⟩
    rwa [mounted.chain_at occupied, place]

end SdDatabase
