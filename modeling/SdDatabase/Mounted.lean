import SdDatabase.Chains
import SdDatabase.Database
import SdDatabase.HistoryStore
import SdDatabase.NameIndex
import SdDatabase.TableStore

/-!
# A mounted database

The invariant of the database in memory together with its card. The core is what
the hash table and the allocators need; the name index and the chat order are
kept in step with it by the calls.
-/

namespace SdDatabase

open Bytes Device

set_option autoImplicit false

/-- A free list holds exactly the indices that are not in use. -/
structure FreeHold (list : FreeList) (size : Nat) (used : Nat → Prop) : Prop where
  capacity : list.capacity = size
  nodup : list.freeStack.Nodup
  mem : ∀ index, index ∈ list.freeStack ↔ index < size ∧ ¬used index

section FreeHold

variable {list : FreeList} {size : Nat} {used later : Nat → Prop}

theorem FreeHold.congr (free : FreeHold list size used) (same : ∀ index, later index ↔ used index) :
    FreeHold list size later where
  capacity := free.capacity
  nodup := free.nodup
  mem index := by rw [free.mem index, same index]

theorem FreeHold.allocate (free : FreeHold list size used) {index : Nat} {rest : List Nat}
    (stack : list.freeStack = index :: rest)
    (taken : ∀ other, later other ↔ used other ∨ other = index) :
    FreeHold { list with freeStack := rest, usedCount := list.usedCount + 1 } size later where
  capacity := free.capacity
  nodup := by
    have nodup := free.nodup
    rw [stack] at nodup
    exact (List.nodup_cons.mp nodup).2
  mem other := by
    have nodup := free.nodup
    rw [stack] at nodup
    have apart := (List.nodup_cons.mp nodup).1
    have mem := free.mem other
    rw [stack, List.mem_cons] at mem
    rw [taken]
    constructor
    · intro member
      obtain ⟨inside, unused⟩ := mem.mp (Or.inr member)
      refine ⟨inside, ?_⟩
      rintro (isUsed | rfl)
      · exact unused isUsed
      · exact apart member
    · rintro ⟨inside, unused⟩
      rcases mem.mpr ⟨inside, fun isUsed => unused (Or.inl isUsed)⟩ with same | member
      · exact absurd (Or.inr same) unused
      · exact member

theorem FreeHold.top (free : FreeHold list size used) {index : Nat} {rest : List Nat}
    (stack : list.freeStack = index :: rest) : index < size ∧ ¬used index :=
  (free.mem index).mp (by rw [stack]; simp)

theorem FreeHold.free (free : FreeHold list size used) {index : Nat} (inside : index < size)
    (isUsed : used index) (given : ∀ other, later other ↔ used other ∧ other ≠ index) :
    (freeListFree list index).freeStack = index :: list.freeStack ∧
      FreeHold (freeListFree list index) size later := by
  have fresh : index ∉ list.freeStack := fun member => ((free.mem index).mp member).2 isUsed
  have subset : index :: list.freeStack ⊆ List.range size := by
    intro other member
    rcases List.mem_cons.mp member with rfl | member
    · exact List.mem_range.mpr inside
    · exact List.mem_range.mpr ((free.mem other).mp member).1
  have length := (List.subperm_of_subset (List.nodup_cons.mpr ⟨fresh, free.nodup⟩)
    subset).length_le
  rw [List.length_range, List.length_cons] at length
  have room : ¬list.capacity ≤ list.freeStack.length := by
    rw [free.capacity]
    omega
  have result : freeListFree list index =
      { list with freeStack := index :: list.freeStack, usedCount := list.usedCount - 1 } :=
    if_neg room
  rw [result]
  refine ⟨rfl, free.capacity, List.nodup_cons.mpr ⟨fresh, free.nodup⟩, ?_⟩
  intro other
  rw [List.mem_cons, free.mem other, given]
  by_cases same : other = index
  · simp [same, inside]
  · simp [same]

theorem FreeHold.free_all (free : FreeHold list size used) {chain : List Nat}
    (separate : chain.Nodup) (inside : ∀ index ∈ chain, index < size)
    (isUsed : ∀ index ∈ chain, used index)
    (given : ∀ other, later other ↔ used other ∧ other ∉ chain) :
    FreeHold (chain.foldl freeListFree list) size later := by
  induction chain generalizing list used with
  | nil => exact free.congr fun index => by rw [given]; simp
  | cons index rest ih =>
      have apart := (List.nodup_cons.mp separate).1
      have step := (@FreeHold.free _ _ _ (fun other => used other ∧ other ≠ index) free _
        (inside index (by simp)) (isUsed index (by simp)) fun _ => Iff.rfl).2
      refine ih step (List.nodup_cons.mp separate).2
        (fun other member => inside other (by simp [member])) ?_ ?_
      · exact fun other member => ⟨isUsed other (by simp [member]), fun same =>
          apart (by rwa [← same])⟩
      · intro other
        rw [given, List.mem_cons, not_or, and_assoc]

theorem FreeHold.count (free : FreeHold list size used) {taken : List Nat} (separate : taken.Nodup)
    (isUsed : ∀ index ∈ taken, used index) (inside : ∀ index ∈ taken, index < size) :
    list.freeStack.length + taken.length ≤ size := by
  have apart : (list.freeStack ++ taken).Nodup := by
    refine List.nodup_append.mpr ⟨free.nodup, separate, ?_⟩
    rintro index inFree other inTaken rfl
    exact ((free.mem index).mp inFree).2 (isUsed index inTaken)
  have subset : list.freeStack ++ taken ⊆ List.range size := by
    intro index member
    rcases List.mem_append.mp member with inFree | inTaken
    · exact List.mem_range.mpr ((free.mem index).mp inFree).1
    · exact List.mem_range.mpr (inside index inTaken)
  have length := (List.subperm_of_subset apart subset).length_le
  rwa [List.length_range, List.length_append] at length

end FreeHold

/-- What hash table, allocators and histories have to do with the card. -/
structure Core (db : Database) (card : Card Sector) (view : View) (chain : Nat → List Nat) :
    Prop where
  idle : JournalIdle card
  holds : Holds db.usageBitmap card view
  distinct : Distinct view.contact
  chats : ChatsHold view chain
  table : TableHolds db.htable view.contact (headOf chain)
  contactFree : FreeHold db.contactAllocator hashTableEntries fun slot => view.contact slot ≠ none
  messageFree : FreeHold db.messageAllocator totalMessageSectorSize fun index =>
    view.sector index ≠ none
  messageRing : db.messageHistory = ringPosition view.messageRing
  callRing : db.callHistory = ringPosition view.callRing

def contactAt (table : HashTable) (contact : Nat → Option Identity) (hashSlot : Nat) :
    Option Identity :=
  if (table.htable hashSlot).state = .occupied then contact (table.htable hashSlot).sector
  else none

/-- The chat order holds the hash slots of the contacts with a chat. -/
structure OrderHolds (order : ChatOrder) (table : HashTable) : Prop where
  nodup : order.mem.Nodup
  mem : ∀ hashSlot, hashSlot ∈ order.mem ↔
    (table.htable hashSlot).state = .occupied ∧
      (table.htable hashSlot).latestMsgExtent ≠ uint16Max

structure Mounted (db : Database) (card : Card Sector) (view : View) (chain : Nat → List Nat)
    (listing : Listing) : Prop where
  core : Core db card view chain
  names : NamesHold db.nameIndex listing (contactAt db.htable view.contact)
  order : OrderHolds db.chatOrder db.htable
  count : db.htable.numElems = listing.length

section Mounted

variable {db : Database} {card : Card Sector} {view : View} {chain : Nat → List Nat}
  {listing : Listing}

theorem contact_at_some {table : HashTable} {contact : Nat → Option Identity} {hashSlot : Nat}
    {identity : Identity} (found : contactAt table contact hashSlot = some identity) :
    (table.htable hashSlot).state = .occupied ∧
      contact (table.htable hashSlot).sector = some identity := by
  unfold contactAt at found
  split at found
  · exact ⟨by assumption, found⟩
  · cases found

theorem contact_at_occupied {table : HashTable} {contact : Nat → Option Identity} {hashSlot : Nat}
    (occupied : (table.htable hashSlot).state = .occupied) :
    contactAt table contact hashSlot = contact (table.htable hashSlot).sector := if_pos occupied

theorem Core.slot_of (core : Core db card view chain) {sector : Nat} {identity : Identity}
    (stored : view.contact sector = some identity) :
    ∃ hashSlot, (db.htable.htable hashSlot).state = .occupied ∧
      (db.htable.htable hashSlot).sector = sector ∧
      (db.htable.htable hashSlot).latestMsgExtent = headOf chain sector := by
  obtain ⟨hashSlot, occupied, place⟩ :=
    core.table.placed sector (by rw [stored]; exact Option.some_ne_none _)
  obtain ⟨_, entry⟩ := core.table.entry hashSlot occupied
  exact ⟨hashSlot, occupied, place, by rw [entry.latest, place]⟩

theorem Core.contact_bound (core : Core db card view chain) {sector : Nat} {identity : Identity}
    (stored : view.contact sector = some identity) : sector < hashTableEntries :=
  core.holds.contacts.bound sector (by rw [stored]; exact Option.some_ne_none _)

theorem Core.known_or_new (view : View) (phone : List Byte) :
    (∃ sector identity, view.contact sector = some identity ∧ identity.phone = phone) ∨
      ∀ sector identity, view.contact sector = some identity → identity.phone ≠ phone := by
  by_cases known : ∃ sector identity, view.contact sector = some identity ∧ identity.phone = phone
  · exact Or.inl known
  · right
    intro sector identity stored same
    exact known ⟨sector, identity, stored, same⟩

theorem Core.names_only (core : Core db card view chain) (index : SortedArray) :
    Core { db with nameIndex := index } card view chain :=
  ⟨core.idle, core.holds, core.distinct, core.chats, core.table, core.contactFree,
    core.messageFree, core.messageRing, core.callRing⟩

theorem Core.order_only (core : Core db card view chain) (order : ChatOrder) :
    Core { db with chatOrder := order } card view chain :=
  ⟨core.idle, core.holds, core.distinct, core.chats, core.table, core.contactFree,
    core.messageFree, core.messageRing, core.callRing⟩

theorem Core.short (core : Core db card view chain) (slot : Nat) :
    (chain slot).length ≤ totalMessageSectorSize :=
  core.chats.short core.holds.messages.bound slot

theorem Mounted.readable (mounted : Mounted db card view chain listing) :
    Readable db view listing := by
  intro item member
  exact (contact_at_some ((mounted.names.listed item.1 item.2).mp member)).2

theorem Mounted.listed_contact (mounted : Mounted db card view chain listing)
    {item : Nat × Identity} (member : item ∈ listing) :
    (db.htable.htable item.1).state = .occupied ∧
      view.contact (db.htable.htable item.1).sector = some item.2 :=
  contact_at_some ((mounted.names.listed item.1 item.2).mp member)

theorem Mounted.listed_of (mounted : Mounted db card view chain listing) {hashSlot : Nat}
    {identity : Identity} (occupied : (db.htable.htable hashSlot).state = .occupied)
    (stored : view.contact (db.htable.htable hashSlot).sector = some identity) :
    (hashSlot, identity) ∈ listing := by
  rw [mounted.names.listed, contact_at_occupied occupied]
  exact stored

theorem Mounted.sectors_apart (mounted : Mounted db card view chain listing) {hashSlot : Nat}
    (occupied : (db.htable.htable hashSlot).state = .occupied) {item : Nat × Identity}
    (member : item ∈ listing) (different : item.1 ≠ hashSlot) :
    (db.htable.htable item.1).sector ≠ (db.htable.htable hashSlot).sector := by
  intro same
  exact different (mounted.core.table.separate _ _ (mounted.listed_contact member).1 occupied same)

/-- A listed contact is told from the others by its hash slot as well as by its number. -/
theorem Mounted.slot_iff_phone (mounted : Mounted db card view chain listing) {hashSlot : Nat}
    {identity : Identity} (occupied : (db.htable.htable hashSlot).state = .occupied)
    (stored : view.contact (db.htable.htable hashSlot).sector = some identity) :
    ∀ item ∈ listing, item.1 = hashSlot ↔ item.2.phone = identity.phone := by
  intro item inListing
  obtain ⟨itemOccupied, itemStored⟩ := mounted.listed_contact inListing
  constructor
  · intro same
    rw [mounted.names.separate inListing (mounted.listed_of occupied stored) same]
  · intro same
    exact mounted.core.table.separate _ _ itemOccupied occupied
      (mounted.core.distinct _ _ _ _ itemStored stored same)

theorem Mounted.slots_nodup (mounted : Mounted db card view chain listing) :
    (listing.map fun item => (db.htable.htable item.1).sector).Nodup := by
  refine (List.nodup_map_iff_inj_on mounted.names.sorted.nodup).mpr ?_
  intro first firstIn second secondIn same
  obtain ⟨firstOccupied, _⟩ := mounted.listed_contact firstIn
  obtain ⟨secondOccupied, _⟩ := mounted.listed_contact secondIn
  exact mounted.names.separate firstIn secondIn
    (mounted.core.table.separate _ _ firstOccupied secondOccupied same)

/-- There are never more contacts than slots. -/
theorem Mounted.room (mounted : Mounted db card view chain listing) :
    db.contactAllocator.freeStack.length + listing.length ≤ hashTableEntries := by
  have count := mounted.core.contactFree.count mounted.slots_nodup ?_ ?_
  · rwa [List.length_map] at count
  · intro slot member
    obtain ⟨item, inListing, rfl⟩ := List.mem_map.mp member
    rw [(mounted.listed_contact inListing).2]
    exact Option.some_ne_none _
  · intro slot member
    obtain ⟨item, inListing, rfl⟩ := List.mem_map.mp member
    exact mounted.core.contact_bound (mounted.listed_contact inListing).2

theorem Mounted.count_slots (mounted : Mounted db card view chain listing) :
    db.contactAllocator.freeStack.length + listing.length = hashTableEntries := by
  refine le_antisymm mounted.room ?_
  have covered : List.range hashTableEntries ⊆ db.contactAllocator.freeStack ++
      listing.map fun item => (db.htable.htable item.1).sector := by
    intro slot inside
    rw [List.mem_append]
    cases stored : view.contact slot with
    | none =>
        left
        rw [mounted.core.contactFree.mem]
        exact ⟨List.mem_range.mp inside, not_not.mpr stored⟩
    | some identity =>
        right
        obtain ⟨hashSlot, occupied, rfl, _⟩ := mounted.core.slot_of stored
        exact List.mem_map.mpr ⟨_, mounted.listed_of occupied stored, rfl⟩
  have length := (List.subperm_of_subset List.nodup_range covered).length_le
  rwa [List.length_range, List.length_append, List.length_map] at length

end Mounted

end SdDatabase
