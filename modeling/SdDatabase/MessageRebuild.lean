import SdDatabase.ContactRecords
import SdDatabase.Run

/-!
# The message free list after a start

The scan of `hash_reconstruct_message` over message sectors of any content. Orphaned
chats are removed on the way, which clears bits before and behind the scan, and yet
every index that is clear in the end is on the free list once.
-/

namespace SdDatabase

open Bytes Device BitScan

set_option autoImplicit false

/-- Of the indices below `count` the list holds those not in use, in any order. -/
structure FreeScanned (list : FreeList) (size count : Nat) (used : Nat → Bool) : Prop where
  capacity : list.capacity = size
  order : count ≤ size
  nodup : list.freeStack.Nodup
  mem : ∀ index, index ∈ list.freeStack ↔ index < count ∧ used index = false
  number : list.usedCount + list.freeStack.length = size

section FreeScanned

variable {list : FreeList} {size count : Nat} {used : Nat → Bool}

theorem FreeScanned.room (scanned : FreeScanned list size count used) {index : Nat}
    (inside : index < size) (absent : index ∉ list.freeStack) :
    list.freeStack.length < size := by
  have bounded : index :: list.freeStack ⊆ List.range size := by
    intro other member
    rw [List.mem_range]
    rcases List.mem_cons.mp member with same | listed
    · rw [same]
      exact inside
    · exact Nat.lt_of_lt_of_le ((scanned.mem other).mp listed).1 scanned.order
  have fits := (List.subperm_of_subset (List.nodup_cons.mpr ⟨absent, scanned.nodup⟩)
    bounded).length_le
  rwa [List.length_cons, List.length_range] at fits

theorem FreeScanned.push (scanned : FreeScanned list size count used) {index : Nat}
    (inside : index < size) (absent : index ∉ list.freeStack) :
    freeListFree list index = { list with
      freeStack := index :: list.freeStack, usedCount := list.usedCount - 1 } ∧
      list.usedCount - 1 + (index :: list.freeStack).length = size := by
  have room := scanned.room inside absent
  have number := scanned.number
  constructor
  · apply if_neg
    rw [scanned.capacity]
    omega
  · rw [List.length_cons]
    omega

theorem FreeScanned.free (scanned : FreeScanned list size count used) (inside : count < size)
    (unused : used count = false) :
    FreeScanned (freeListFree list count) size (count + 1) used := by
  have absent : count ∉ list.freeStack := fun listed =>
    Nat.lt_irrefl count ((scanned.mem count).mp listed).1
  obtain ⟨result, number⟩ := scanned.push inside absent
  rw [result]
  refine ⟨scanned.capacity, inside, List.nodup_cons.mpr ⟨absent, scanned.nodup⟩, ?_, number⟩
  intro index
  rw [List.mem_cons, scanned.mem]
  constructor
  · rintro (same | ⟨below, clear⟩)
    · rw [same]
      exact ⟨Nat.lt_succ_self count, unused⟩
    · exact ⟨Nat.lt_succ_of_lt below, clear⟩
  · rintro ⟨below, clear⟩
    rcases Nat.lt_succ_iff_lt_or_eq.mp below with before | same
    · exact Or.inr ⟨before, clear⟩
    · exact Or.inl same

theorem FreeScanned.skip (scanned : FreeScanned list size count used) (inside : count < size)
    (isUsed : used count = true) : FreeScanned list size (count + 1) used where
  capacity := scanned.capacity
  order := inside
  nodup := scanned.nodup
  mem index := by
    rw [scanned.mem]
    constructor
    · exact fun listed => ⟨Nat.lt_succ_of_lt listed.1, listed.2⟩
    · rintro ⟨below, clear⟩
      refine ⟨?_, clear⟩
      rcases Nat.lt_succ_iff_lt_or_eq.mp below with before | same
      · exact before
      · rw [same, isUsed] at clear
        cases clear
  number := scanned.number

theorem FreeScanned.free_range (scanned : FreeScanned list size count used) {limit : Nat}
    (order : count ≤ limit) (inside : limit ≤ size)
    (unused : ∀ index, count ≤ index → index < limit → used index = false) :
    FreeScanned (freeListFreeRange list count limit) size limit used := by
  obtain ⟨steps, rfl⟩ := Nat.exists_eq_add_of_le order
  unfold freeListFreeRange
  rw [Nat.add_sub_cancel_left]
  induction steps generalizing list count with
  | zero => exact scanned
  | succ steps ih =>
      have more : ¬list.capacity ≤ count := by
        rw [scanned.capacity]
        omega
      have freed := scanned.free (by omega) (unused count (Nat.le_refl _) (by omega))
      have rest := ih freed (by omega) (by omega) fun index low high =>
        unused index (by omega) (by omega)
      rw [freeListFreeFrom, if_neg more]
      rwa [show count + (steps + 1) = count + 1 + steps by omega]

theorem FreeScanned.release (scanned : FreeScanned list size count used) {index : Nat}
    (behind : index < count) (isUsed : used index = true) :
    FreeScanned (freeListFree list index) size count (Function.update used index false) := by
  have absent : index ∉ list.freeStack := by
    intro listed
    rw [((scanned.mem index).mp listed).2] at isUsed
    cases isUsed
  obtain ⟨result, number⟩ := scanned.push (Nat.lt_of_lt_of_le behind scanned.order) absent
  rw [result]
  refine ⟨scanned.capacity, scanned.order, List.nodup_cons.mpr ⟨absent, scanned.nodup⟩, ?_,
    number⟩
  intro other
  rw [List.mem_cons, scanned.mem]
  by_cases same : other = index
  · rw [same, Function.update_self]
    simp [behind]
  · rw [Function.update_of_ne same]
    simp [same]

theorem FreeScanned.clear_ahead (scanned : FreeScanned list size count used) {index : Nat}
    (ahead : count ≤ index) :
    FreeScanned list size count (Function.update used index false) where
  capacity := scanned.capacity
  order := scanned.order
  nodup := scanned.nodup
  mem other := by
    rw [scanned.mem]
    by_cases same : other = index
    · rw [same]
      exact ⟨fun listed => absurd listed.1 (by omega), fun listed => absurd listed.1 (by omega)⟩
    · rw [Function.update_of_ne same]
  number := scanned.number

theorem free_scanned_start {list : FreeList} {size : Nat}
    (started : freeListEmptyInit size = some list) (used : Nat → Bool) :
    FreeScanned list size 0 used := by
  unfold freeListEmptyInit at started
  split at started
  · cases started
  · rw [Option.some.injEq] at started
    rw [← started]
    exact ⟨rfl, Nat.zero_le _, List.nodup_nil, by simp, rfl⟩

theorem FreeScanned.used_count (scanned : FreeScanned list size size used) :
    list.usedCount = ((List.range size).filter used).length := by
  have perm : list.freeStack.Perm ((List.range size).filter fun index => !used index) := by
    rw [List.perm_ext_iff_of_nodup scanned.nodup (List.nodup_range.filter _)]
    intro index
    rw [scanned.mem, List.mem_filter, List.mem_range, Bool.not_eq_true']
  have number := scanned.number
  have split := List.length_eq_length_filter_add used (l := List.range size)
  rw [List.length_range] at split
  rw [perm.length_eq] at number
  omega

end FreeScanned

/-- The two states have the same contacts, and tables that differ at most in the newest
message sectors. -/
structure SameContacts (db other : Database) (card second : Card Sector) : Prop where
  bits : ∀ physSector < totalContactSectorSize,
    usageBit other.usageBitmap physSector = usageBit db.usageBitmap physSector
  sectors : ∀ physSector < totalContactSectorSize,
    second (contactRaw physSector) = card (contactRaw physSector)
  size : other.htable.size = db.htable.size
  states : ∀ slot, (other.htable.htable slot).state = (db.htable.htable slot).state
  ids : ∀ slot, (other.htable.htable slot).id = (db.htable.htable slot).id
  places : ∀ slot, (other.htable.htable slot).sector = (db.htable.htable slot).sector

/-- Every occupied entry names a slot that a contact can have. -/
def EntriesInside (table : HashTable) : Prop :=
  ∀ slot, (table.htable slot).state = .occupied → (table.htable slot).sector < hashTableEntries

section Lookup

variable {A B : Type} {db other : Database} {card second : Card Sector}

/-- Two runs that write nothing and give the same answer. -/
def Agree (db other : Database) (card second : Card Sector) (program mirror : DbM A) : Prop :=
  ∃ answer, out program db card = ((answer, db), []) ∧
    out mirror other second = ((answer, other), [])

theorem agree_pure (answer : A) : Agree db other card second (pure answer) (pure answer) :=
  ⟨answer, rfl, rfl⟩

theorem Agree.bind {program mirror : DbM A} {rest later : A → DbM B}
    (first : Agree db other card second program mirror)
    (next : ∀ answer, Agree db other card second (rest answer) (later answer)) :
    Agree db other card second (program >>= rest) (mirror >>= later) := by
  obtain ⟨answer, left, right⟩ := first
  obtain ⟨result, restLeft, restRight⟩ := next answer
  exact ⟨result, out_bind_both left restLeft, out_bind_both right restRight⟩

theorem agree_get {rest later : Database → DbM A}
    (next : Agree db other card second (rest db) (later other)) :
    Agree db other card second (get >>= rest) (get >>= later) := by
  obtain ⟨result, left, right⟩ := next
  exact ⟨result, out_bind_both (out_get _ _) left, out_bind_both (out_get _ _) right⟩

theorem SameContacts.read_contact (same : SameContacts db other card second) {slot : Nat}
    (bound : slot < hashTableEntries) :
    Agree db other card second (readContact slot) (readContact slot) := by
  have inside := slot_sector_bound bound
  have capacity : contactSectorCapacity = 6 := by simp
  have check : Agree db other card second (checkUsageBit (slot / contactSectorCapacity))
      (checkUsageBit (slot / contactSectorCapacity)) := by
    refine ⟨usageBit db.usageBitmap (slot / 6), ?_, ?_⟩
    · rw [out_checkUsageBit, slot_narrow bound]
    · rw [out_checkUsageBit, slot_narrow bound, same.bits _ inside]
  have read : Agree db other card second (readContactSector (slot / contactSectorCapacity))
      (readContactSector (slot / contactSectorCapacity)) := by
    have mirror := out_readContactSector other second inside
    rw [same.sectors _ inside] at mirror
    rw [capacity]
    exact ⟨_, out_readContactSector db card inside, mirror⟩
  unfold readContact
  apply check.bind
  intro used
  split
  · exact agree_pure _
  · apply read.bind
    intro answer
    cases answer with
    | error ret => exact agree_pure _
    | ok content =>
        dsimp only
        split
        · exact agree_pure _
        · exact agree_pure _

theorem SameContacts.probe (same : SameContacts db other card second)
    (inside : EntriesInside db.htable) (phone : List Byte) (target h1 h2 count attempt : Nat)
    (contact : Contact) (firstFree : Option Nat) :
    Agree db other card second (probeFrom phone target h1 h2 count attempt contact firstFree)
      (probeFrom phone target h1 h2 count attempt contact firstFree) := by
  induction count generalizing attempt contact firstFree with
  | zero => exact agree_pure _
  | succ count ih =>
      unfold probeFrom
      apply agree_get
      dsimp only
      rw [same.size, same.states, same.ids, same.places]
      generalize (h1 + attempt * h2) % db.htable.size = index
      have bound := inside index
      generalize db.htable.htable index = entry at bound
      cases state : entry.state with
      | empty => exact agree_pure _
      | deleted => exact ih _ _ _
      | occupied =>
          dsimp only
          by_cases tag : entry.id = target
          · rw [if_pos tag]
            apply (same.read_contact (bound state)).bind
            intro answer
            cases answer with
            | ok found =>
                dsimp only
                split
                · exact agree_pure _
                · exact ih _ _ _
            | error ret =>
                dsimp only
                split
                · exact ih _ _ _
                · split
                  · exact agree_pure _
                  · exact ih _ _ _
          · rw [if_neg tag]
            exact ih _ _ _

theorem SameContacts.find (same : SameContacts db other card second)
    (inside : EntriesInside db.htable) (phone : List Byte) :
    Agree db other card second (hashFindEntry phone) (hashFindEntry phone) := by
  unfold hashFindEntry
  apply agree_get
  dsimp only
  rw [same.size]
  exact same.probe inside phone _ _ _ _ _ _ _

end Lookup

section ReadOnly

/-- The program leaves memory and card alone. -/
def ReadOnly {A : Type} (program : DbM A) : Prop :=
  ∀ db card, ∃ answer, out program db card = ((answer, db), [])

theorem read_only_of {A K : Type} {key : Database → K} {program : DbM A}
    (reads : ReadsOf key program) : ReadOnly program := by
  intro db card
  obtain ⟨answer, run, _⟩ := reads db db card rfl
  exact ⟨answer, run⟩

end ReadOnly

/-- The `prev` field of a message sector as stored. -/
def messagePrev (card : Card Sector) (index : Nat) : Nat :=
  (ofSector (card (messageRaw index)) : MessageSector).header.prev.toNat

/-- The phone number that `insert_message_from_sector` takes from a contact. -/
def ownerPhone (record : Contact) : List Byte :=
  ((List.ofFn record.phone).take (min record.phoneLen.toNat maxPhoneLen)).takeWhile (· ≠ 0#8)

/-- The contact slot that the sector names holds a contact whose entry leads back to it. -/
def Owned (machine : Machine) (mSector : MessageSector) : Prop :=
  ∃ record slot,
    out (readContact mSector.header.contactIndex.toNat) machine.db machine.card =
      ((.ok record, machine.db), []) ∧
    out (hashFindEntry (ownerPhone record)) machine.db machine.card =
      ((some slot, machine.db), []) ∧
    (machine.db.htable.htable slot).state = .occupied ∧
    (machine.db.htable.htable slot).sector = mSector.header.contactIndex.toNat

/-- The sectors of the chats without an owner: each chat from its head, for which no
next sector is in use by the bitmap, along the `prev` links. -/
inductive OrphanChain (start : Machine) (bitmap : UsageBitmap) : Nat → Prop
  | head {index : Nat} (bound : index < totalMessageSectorSize)
      (used : usageBit start.db.usageBitmap (messageDataSector index) = true)
      (valid : sectorCrcValid (start.card (messageRaw index)) = true)
      (head : isChatHead bitmap (ofSector (start.card (messageRaw index))) = true)
      (orphan : ¬Owned start (ofSector (start.card (messageRaw index)))) :
      OrphanChain start bitmap index
  | older {index : Nat} (chain : OrphanChain start bitmap index)
      (valid : sectorCrcValid (start.card (messageRaw index)) = true)
      (more : messagePrev start.card index ≠ uint16Max) :
      OrphanChain start bitmap (messagePrev start.card index)

theorem chat_head_mono {bitmap next : UsageBitmap} {mSector : MessageSector}
    (fewer : ∀ dataSector, usageBit next dataSector = true → usageBit bitmap dataSector = true)
    (head : isChatHead bitmap mSector = true) : isChatHead next mSector = true := by
  unfold isChatHead at head ⊢
  dsimp only at head ⊢
  rw [Bool.or_eq_true, Bool.not_eq_true'] at head ⊢
  apply head.imp_right
  intro clear
  rw [Bool.eq_false_iff] at clear ⊢
  exact fun used => clear (fewer _ used)

theorem OrphanChain.mono {start : Machine} {bitmap next : UsageBitmap} {index : Nat}
    (fewer : ∀ dataSector, usageBit next dataSector = true → usageBit bitmap dataSector = true)
    (chain : OrphanChain start bitmap index) : OrphanChain start next index := by
  induction chain with
  | head bound used valid head orphan =>
      exact .head bound used valid (chat_head_mono fewer head) orphan
  | older chain valid more ih => exact .older ih valid more

/-- The scan has passed the indices below `count`. -/
structure MessageScan (start : Machine) (count : Nat) (db : Database) (card : Card Sector) :
    Prop where
  same : SameContacts start.db db start.card card
  card : ∀ target, 12 ≤ target → card target = start.card target
  fewer : ∀ dataSector, usageBit db.usageBitmap dataSector = true →
    usageBit start.db.usageBitmap dataSector = true
  orphans : EntriesInside start.db.htable → ∀ dataSector,
    usageBit start.db.usageBitmap dataSector = true → usageBit db.usageBitmap dataSector = false →
      ∃ index < totalMessageSectorSize, dataSector = messageDataSector index ∧
        OrphanChain start db.usageBitmap index
  free : FreeScanned db.messageAllocator totalMessageSectorSize count fun index =>
    usageBit db.usageBitmap (messageDataSector index)

section MessageScan

variable {start : Machine} {count : Nat} {db : Database} {card : Card Sector}

/-- One sector of an orphaned chat loses its bit, and its index is freed if the scan
has passed it. -/
theorem MessageScan.clear (scan : MessageScan start count db card) {index : Nat}
    (bound : index < totalMessageSectorSize)
    (used : usageBit db.usageBitmap (messageDataSector index) = true)
    (chain : EntriesInside start.db.htable → OrphanChain start db.usageBitmap index)
    {next : Database} {other : Card Sector} (table : next.htable = db.htable)
    (bits : usageBit next.usageBitmap =
      Function.update (usageBit db.usageBitmap) (messageDataSector index) false)
    (sameCard : ∀ target, 12 ≤ target → other target = card target)
    (allocator : next.messageAllocator =
      if index < count then freeListFree db.messageAllocator index else db.messageAllocator) :
    MessageScan start count next other := by
  have fewer : ∀ dataSector, usageBit next.usageBitmap dataSector = true →
      usageBit db.usageBitmap dataSector = true := by
    intro dataSector set
    rw [bits, Function.update_apply] at set
    split at set
    · cases set
    · exact set
  have message : (fun other => usageBit next.usageBitmap (messageDataSector other)) =
      Function.update (fun other => usageBit db.usageBitmap (messageDataSector other)) index
        false := by
    funext other
    rw [bits, Function.update_apply, Function.update_apply]
    simp
  constructor
  · constructor
    · intro physSector inside
      have apart : physSector ≠ messageDataSector index := by
        simp at inside ⊢
        omega
      rw [bits, Function.update_of_ne apart]
      exact scan.same.bits physSector inside
    · intro physSector inside
      rw [sameCard _ (by simp [contactRaw])]
      exact scan.same.sectors physSector inside
    · rw [table]
      exact scan.same.size
    · rw [table]
      exact scan.same.states
    · rw [table]
      exact scan.same.ids
    · rw [table]
      exact scan.same.places
  · intro target high
    rw [sameCard target high, scan.card target high]
  · exact fun dataSector set => scan.fewer dataSector (fewer dataSector set)
  · intro inside dataSector before after
    by_cases still : usageBit db.usageBitmap dataSector = true
    · have here : dataSector = messageDataSector index := by
        by_contra apart
        rw [bits, Function.update_of_ne apart, still] at after
        cases after
      exact ⟨index, bound, here, (chain inside).mono fewer⟩
    · obtain ⟨earlier, low, place, orphan⟩ :=
        scan.orphans inside dataSector before (by simpa using still)
      exact ⟨earlier, low, place, orphan.mono fewer⟩
  · rw [message, allocator]
    by_cases behind : index < count
    · rw [if_pos behind]
      exact scan.free.release behind used
    · rw [if_neg behind]
      exact scan.free.clear_ahead (not_lt.mp behind)

theorem MessageScan.latest (scan : MessageScan start count db card) (slot sector : Nat) :
    MessageScan start count { db with
      htable := db.htable.setEntry slot
        { db.htable.htable slot with latestMsgExtent := sector } } card where
  same :=
    { bits := scan.same.bits
      sectors := scan.same.sectors
      size := scan.same.size
      states := by
        intro other
        rw [← scan.same.states]
        exact @set_latest_field _ db.htable slot sector HashEntry.state rfl other
      ids := by
        intro other
        rw [← scan.same.ids]
        exact @set_latest_field _ db.htable slot sector HashEntry.id rfl other
      places := by
        intro other
        rw [← scan.same.places]
        exact @set_latest_field _ db.htable slot sector HashEntry.sector rfl other }
  card := scan.card
  fewer := scan.fewer
  orphans := scan.orphans
  free := scan.free

end MessageScan

def bitRemoved (db : Database) (index : Nat) : Database :=
  { db with
    journal := (journalDataInit .remove (messageDataSector index)).committed
    usageBitmap := setUsageBit (stampBitmap db.usageBitmap
      (usageBitmapFindSector (messageDataSector index))) (messageDataSector index) false }

def bitRemovalLog (bitmap : UsageBitmap) (index : Nat) : WriteLog Sector :=
  journalAddLog .remove (messageDataSector index) nullContent bitmap ++
    (bitWork (stampBitmap bitmap (usageBitmapFindSector (messageDataSector index)))
      (messageDataSector index) false ++
    [(jrnlHeaderSector,
      sectorCrcStamp (toSector (journalDataInit .remove (messageDataSector index)).committed))])

section RemoveBit

variable (db : Database) (card : Card Sector) {index : Nat}

theorem out_removeMessageBit (bound : index < totalMessageSectorSize) :
    out (removeMessageBit index) db card =
      ((.strgOk, bitRemoved db index), bitRemovalLog db.usageBitmap index) := by
  have narrow := message_narrow bound
  have below : messageDataSector index < 65536 := by
    simp at bound ⊢
    omega
  unfold removeMessageBit bitRemovalLog
  rw [out_bind_of (out_journalAdd db card .remove nullContent below), Bool.not_true,
    if_neg Bool.false_ne_true, out_bind_of (out_updateUsageBit _ _ _ _),
    if_neg (not_not.mpr rfl), out_journalFree, narrow]
  rfl

theorem bit_removed_usage :
    usageBit (bitRemoved db index).usageBitmap =
      Function.update (usageBit db.usageBitmap) (messageDataSector index) false := by
  funext dataSector
  rw [bitRemoved, usage_bit_set, usage_bit_stamp, Function.update_apply]

theorem bit_removal_low (bound : index < totalMessageSectorSize) (target : Nat)
    (high : 12 ≤ target) :
    applyWrites (bitRemovalLog db.usageBitmap index) card target = card target := by
  apply apply_writes_other
  intro entry member
  have sector : usageBitmapFindSector (messageDataSector index) < 8 := by
    simp at bound ⊢
    omega
  rcases List.mem_append.mp member with added | rest
  · simp [journalAddLog, journalCopies, JrnlType.savesBitmap] at added
    rcases added with rfl | rfl <;> simp <;> omega
  · rcases List.mem_append.mp rest with bit | committed
    · rw [List.eq_of_mem_singleton bit]
      simp at sector ⊢
      omega
    · rw [List.eq_of_mem_singleton committed]
      simp
      omega

end RemoveBit

/-- The links of the message sectors end or stay inside the region. -/
def LinksInside (card : Card Sector) : Prop :=
  ∀ index < totalMessageSectorSize,
    messagePrev card index = uint16Max ∨ messagePrev card index < totalMessageSectorSize

/-- At some point of the scan the head of a chat cannot be inserted. -/
def InsertFails (start : Machine) : Prop :=
  ∃ index db card next log, index < totalMessageSectorSize ∧
    MessageScan start (index + 1) db card ∧
    usageBit db.usageBitmap (messageDataSector index) = true ∧
    sectorCrcValid (start.card (messageRaw index)) = true ∧
    out (insertMessageFromSector (ofSector (start.card (messageRaw index))) index) db card =
      ((.strgFail, next), log)

/-- A scan that ended has passed all sectors in use, one that stopped could not insert a head. -/
def MessageScanEnds (start : Machine) (answer : Option Nat) (db : Database) (card : Card Sector) : Prop :=
  match answer with
  | none => InsertFails start
  | some after => MessageScan start after db card ∧
      ∀ index, after ≤ index → index < totalMessageSectorSize →
        usageBit db.usageBitmap (messageDataSector index) = false

section Scan

variable {start : Machine} {count : Nat} {db : Database} {card : Card Sector}
  (links : LinksInside start.card)

include links

theorem remove_orphaned_run (startIndex jumpsLeft curr : Nat)
    (scan : MessageScan start (startIndex + 1) db card)
    (inside : curr = uint16Max ∨ curr < totalMessageSectorSize)
    (chain : curr ≠ uint16Max → EntriesInside start.db.htable →
      OrphanChain start db.usageBitmap curr) :
    ∃ ret next log, out (removeOrphanedFrom startIndex jumpsLeft curr) db card =
        ((ret, next), log) ∧
      MessageScan start (startIndex + 1) next (applyWrites log card) := by
  induction jumpsLeft generalizing curr db card with
  | zero => exact ⟨_, db, [], rfl, scan⟩
  | succ jumpsLeft ih =>
      unfold removeOrphanedFrom
      by_cases ends : curr = uint16Max
      · rw [if_pos ends]
        exact ⟨_, db, [], rfl, scan⟩
      · have bound := inside.resolve_left ends
        rw [if_neg ends, out_bind, out_checkUsageBit, message_narrow bound]
        cases used : usageBit db.usageBitmap (messageDataSector curr) with
        | false => exact ⟨_, db, [], rfl, scan⟩
        | true =>
            simp only [Bool.not_true, Bool.false_eq_true, if_false, apply_writes_nil,
              List.nil_append]
            have read := out_readMessageSector db card bound
            have content : card (messageRaw curr) = start.card (messageRaw curr) :=
              scan.card _ (by simp only [messageRaw]; omega)
            cases valid : sectorCrcValid (card (messageRaw curr)) with
            | false =>
                rw [valid] at read
                rw [out_bind_of read]
                exact ⟨_, db, [], rfl, scan⟩
            | true =>
                rw [valid] at read
                rw [out_bind_of read]
                simp only [if_true, apply_writes_nil, List.nil_append]
                rw [out_bind_of (out_removeMessageBit db card bound)]
                simp only [ne_eq, not_true_eq_false, if_false]
                have prev : (ofSector (card (messageRaw curr)) : MessageSector).header.prev.toNat =
                    messagePrev start.card curr := by
                  rw [messagePrev, content]
                rw [content] at valid
                -- what is left of the walk once the bit is clear, with its index freed or not
                have rest : ∀ middle : Database, middle.htable = db.htable →
                    usageBit middle.usageBitmap = usageBit (bitRemoved db curr).usageBitmap →
                    (middle.messageAllocator = if curr < startIndex + 1 then
                      freeListFree db.messageAllocator curr else db.messageAllocator) →
                    ∃ ret next log, out (if jumpsLeft = 0 then pure .strgFail
                        else removeOrphanedFrom startIndex jumpsLeft
                          (ofSector (card (messageRaw curr)) : MessageSector).header.prev.toNat)
                        middle (applyWrites (bitRemovalLog db.usageBitmap curr) card) =
                          ((ret, next), log) ∧
                      MessageScan start (startIndex + 1) next
                        (applyWrites log (applyWrites (bitRemovalLog db.usageBitmap curr) card)) := by
                  intro middle table bits allocator
                  rw [bit_removed_usage] at bits
                  have cleared := scan.clear bound used (chain ends) table bits
                    (bit_removal_low db card bound) allocator
                  split
                  · exact ⟨_, middle, [], rfl, cleared⟩
                  · rw [prev]
                    apply ih _ cleared (links curr bound)
                    intro more placed
                    refine ((chain ends placed).mono fun dataSector set => ?_).older valid more
                    rw [bits, Function.update_apply] at set
                    split at set
                    · cases set
                    · exact set
                by_cases behind : curr ≤ startIndex
                · obtain ⟨ret, next, log, run, done⟩ := rest
                    { bitRemoved db curr with
                      messageAllocator := freeListFree db.messageAllocator curr } rfl rfl
                    (if_pos (Nat.lt_succ_of_le behind)).symm
                  refine ⟨ret, next, bitRemovalLog db.usageBitmap curr ++ log, ?_, ?_⟩
                  · rw [if_pos behind, out_bind_of (out_modify _ _ _)]
                    exact congrArg (fun outcome =>
                      (outcome.1, bitRemovalLog db.usageBitmap curr ++ ([] ++ outcome.2))) run
                  · rw [apply_writes_append]
                    exact done
                · obtain ⟨ret, next, log, run, done⟩ := rest (bitRemoved db curr) rfl rfl
                    (if_neg (by omega)).symm
                  refine ⟨ret, next, bitRemovalLog db.usageBitmap curr ++ log, ?_, ?_⟩
                  · rw [if_neg behind, run]
                  · rw [apply_writes_append]
                    exact done

omit links in
theorem MessageScan.owner (scan : MessageScan start count db card)
    (placed : EntriesInside start.db.htable) {mSector : MessageSector}
    (owned : Owned start mSector) :
    ∃ record slot,
      out (readContact mSector.header.contactIndex.toNat) db card = ((.ok record, db), []) ∧
      out (hashFindEntry (ownerPhone record)) db card = ((some slot, db), []) ∧
      (db.htable.htable slot).state = .occupied ∧
      (db.htable.htable slot).sector = mSector.header.contactIndex.toNat := by
  obtain ⟨record, slot, found, entry, occupied, place⟩ := owned
  have inside := placed slot occupied
  rw [place] at inside
  obtain ⟨first, left, right⟩ := scan.same.read_contact inside
  obtain ⟨second, searched, again⟩ := scan.same.find placed (ownerPhone record)
  rw [found] at left
  rw [entry] at searched
  simp only [Prod.mk.injEq, and_true] at left searched
  rw [← left] at right
  rw [← searched] at again
  refine ⟨record, slot, right, again, ?_, ?_⟩
  · rw [scan.same.states, occupied]
  · rw [scan.same.places, place]

theorem insert_message_scan {index : Nat} (bound : index < totalMessageSectorSize)
    (scan : MessageScan start (index + 1) db card)
    (used : usageBit db.usageBitmap (messageDataSector index) = true)
    (valid : sectorCrcValid (start.card (messageRaw index)) = true)
    (head : isChatHead db.usageBitmap (ofSector (start.card (messageRaw index))) = true) :
    ∃ ret next log, out (insertMessageFromSector (ofSector (start.card (messageRaw index))) index)
        db card = ((ret, next), log) ∧
      MessageScan start (index + 1) next (applyWrites log card) := by
  generalize content : (ofSector (start.card (messageRaw index)) : MessageSector) = mSector
  have orphaned : (EntriesInside start.db.htable → ¬Owned start mSector) →
      ∃ ret next log, out (removeOrphanedMessageChat index) db card = ((ret, next), log) ∧
        MessageScan start (index + 1) next (applyWrites log card) := by
    intro orphan
    apply remove_orphaned_run links index _ index scan (Or.inr bound)
    intro _ placed
    apply OrphanChain.head bound (scan.fewer _ used) valid head
    rw [content]
    exact orphan placed
  obtain ⟨answer, read⟩ := read_only_of (reads_readContact mSector.header.contactIndex.toNat) db
    card
  have removed : (EntriesInside start.db.htable → ¬Owned start mSector) →
      ∃ ret next log, out (do
          let ret ← removeOrphanedMessageChat index
          return if ret = .strgOk then .strgEmpty else ret : DbM StrgRet) db card =
          ((ret, next), log) ∧
        MessageScan start (index + 1) next (applyWrites log card) := by
    intro orphan
    obtain ⟨ret, next, log, run, done⟩ := orphaned orphan
    refine ⟨_, next, log ++ [], out_bind_both run rfl, ?_⟩
    rw [List.append_nil]
    exact done
  unfold insertMessageFromSector
  dsimp only
  rw [out_bind_of read]
  simp only [apply_writes_nil, List.nil_append]
  cases answer with
  | error ret =>
      have orphan : EntriesInside start.db.htable → ¬Owned start mSector := by
        intro placed owner
        obtain ⟨record, slot, known, _⟩ := scan.owner placed owner
        rw [read] at known
        cases known
      cases ret with
      | strgFail => exact ⟨_, db, [], rfl, scan⟩
      | strgOk => exact removed orphan
      | strgEmpty => exact removed orphan
      | strgExists => exact removed orphan
      | strgFull => exact removed orphan
      | strgCorrupt => exact removed orphan
      | strgNext => exact removed orphan
  | ok contact =>
      obtain ⟨found, search⟩ := read_only_of (reads_hashFindEntry (ownerPhone contact)) db card
      dsimp only
      change ∃ ret next log, out (hashFindEntry (ownerPhone contact) >>= _) db card = _ ∧ _
      rw [out_bind_of search]
      simp only [apply_writes_nil, List.nil_append]
      cases found with
      | none => exact ⟨_, db, [], rfl, scan⟩
      | some slot =>
          dsimp only
          rw [out_bind_of (out_get _ _)]
          simp only [apply_writes_nil, List.nil_append]
          by_cases strange : (db.htable.htable slot).state ≠ .occupied ∨
              (db.htable.htable slot).sector ≠ mSector.header.contactIndex.toNat
          · rw [if_pos strange]
            apply removed
            intro placed owner
            obtain ⟨record, other, known, again, occupied, place⟩ := scan.owner placed owner
            rw [read] at known
            simp only [Prod.mk.injEq, Except.ok.injEq, and_true] at known
            rw [← known, search] at again
            simp only [Prod.mk.injEq, Option.some.injEq, and_true] at again
            rw [again] at strange
            exact strange.elim (fun free => free occupied) fun apart => apart place
          · rw [if_neg strange]
            exact ⟨_, _, _, out_bind_both (out_modify _ _ _) (out_pure _ _ _),
              scan.latest slot index⟩

theorem scan_used_run (inside : count < totalMessageSectorSize)
    (scan : MessageScan start count db card)
    (used : usageBit db.usageBitmap (messageDataSector count) = true) (atEnd : Prop)
    [Decidable atEnd] (after : Nat) (rest : DbM (Option Nat)) :
    ∃ (proceed : Bool) (next : Database) (log : WriteLog Sector),
      out (do
        let proceed ← match ← readMessageSector count with
          | .error ret => pure (ret ≠ .strgFail : Bool)
          | .ok content => do
              let mSector : MessageSector := ofSector content
              if isChatHead (← get).usageBitmap mSector then
                pure ((← insertMessageFromSector mSector count) ≠ .strgFail : Bool)
              else pure true
        if !proceed then
          return none
        if atEnd then
          return some after
        rest) db card =
      ((out (if proceed then if atEnd then pure (some after) else rest else pure none) next
          (applyWrites log card)).1,
        log ++ (out (if proceed then if atEnd then pure (some after) else rest else pure none) next
          (applyWrites log card)).2) ∧
      MessageScan start (count + 1) next (applyWrites log card) ∧
      (proceed = false → InsertFails start) := by
  have passed : MessageScan start (count + 1) db card :=
    ⟨scan.same, scan.card, scan.fewer, scan.orphans, scan.free.skip inside used⟩
  have read := out_readMessageSector db card inside
  have content : card (messageRaw count) = start.card (messageRaw count) :=
    scan.card _ (by simp only [messageRaw]; omega)
  cases valid : sectorCrcValid (card (messageRaw count)) with
  | false =>
      rw [valid] at read
      refine ⟨true, db, [], ?_, passed, fun impossible => by cases impossible⟩
      rw [out_bind_of read]
      rfl
  | true =>
      rw [valid] at read
      rw [content] at valid read
      cases head : isChatHead db.usageBitmap (ofSector (start.card (messageRaw count))) with
      | false =>
          refine ⟨true, db, [], ?_, passed, fun impossible => by cases impossible⟩
          rw [out_bind_of read]
          simp only [if_true, apply_writes_nil, List.nil_append]
          rw [out_bind_of (out_get _ _), head]
          rfl
      | true =>
          obtain ⟨ret, next, log, run, done⟩ :=
            insert_message_scan links inside passed used valid head
          have failing : (decide (ret ≠ .strgFail)) = false → InsertFails start := by
            intro stops
            rw [decide_eq_false_iff_not, not_not] at stops
            rw [stops] at run
            exact ⟨count, db, card, next, log, inside, passed, used, valid, run⟩
          refine ⟨ret ≠ .strgFail, next, log, ?_, done, failing⟩
          rw [out_bind_of read]
          simp only [if_true, apply_writes_nil, List.nil_append]
          rw [out_bind_of (out_get _ _), head]
          simp only [if_true, apply_writes_nil, List.nil_append]
          rw [out_bind_of run]
          cases ret <;> rfl

omit links in
theorem next_used_message (bitmap : UsageBitmap) (count : Nat) :
    (∃ index, count ≤ index ∧ index < totalMessageSectorSize ∧
      getNextBit bitmap (messageDataSector count)
        (messageDataSector (totalMessageSectorSize - 1)) = messageDataSector index ∧
      usageBit bitmap (messageDataSector index) = true ∧
      ∀ other, count ≤ other → other < index →
        usageBit bitmap (messageDataSector other) = false) ∨
    ((getNextBit bitmap (messageDataSector count)
        (messageDataSector (totalMessageSectorSize - 1)) = uint16Max ∨
      messageDataSector (totalMessageSectorSize - 1) < getNextBit bitmap
        (messageDataSector count) (messageDataSector (totalMessageSectorSize - 1))) ∧
      ∀ other, count ≤ other → other < totalMessageSectorSize →
        usageBit bitmap (messageDataSector other) = false) := by
  have last : messageDataSector (totalMessageSectorSize - 1) = 30252 := rfl
  have size : totalMessageSectorSize = 28586 := rfl
  have place : ∀ index, messageDataSector index = 1667 + index := fun _ => rfl
  rw [last, place, size]
  rcases get_next_bit_spec bitmap (1667 + count) 30252 with
    ⟨dataSector, result, used, low, high, least⟩ | ⟨result, none_⟩
  · have region : dataSector < 32512 := by
      simp at high
      omega
    rw [u16_of_lt (by omega)] at result
    have clear : ∀ other, count ≤ other → 1667 + other < dataSector →
        usageBit bitmap (1667 + other) = false := by
      intro other above before
      by_contra set
      have := least (1667 + other) (by simpa using set) (by omega)
      omega
    by_cases inside : dataSector ≤ 30252
    · left
      refine ⟨dataSector - 1667, by omega, by omega, ?_, ?_, ?_⟩
      · rw [result, place]
        omega
      · rw [place, show 1667 + (dataSector - 1667) = dataSector by omega]
        exact used
      · intro other above below
        exact clear other above (by omega)
    · right
      refine ⟨Or.inr (by omega), fun other above below => clear other above (by omega)⟩
  · right
    refine ⟨Or.inl result, fun other above below => none_ _ (by rw [place]; omega) ?_⟩
    simp
    omega

omit links in
theorem MessageScan.free_gap (scan : MessageScan start count db card) {limit : Nat}
    (order : count ≤ limit) (inside : limit ≤ totalMessageSectorSize)
    (unused : ∀ index, count ≤ index → index < limit →
      usageBit db.usageBitmap (messageDataSector index) = false) :
    MessageScan start limit { db with
      messageAllocator := freeListFreeRange db.messageAllocator count limit } card :=
  ⟨⟨scan.same.bits, scan.same.sectors, scan.same.size, scan.same.states, scan.same.ids,
    scan.same.places⟩, scan.card, scan.fewer, scan.orphans, scan.free.free_range order inside unused⟩

omit links in
theorem out_freeMessages (first limit : Nat) (db : Database) (card : Card Sector) :
    out (freeMessages first limit) db card =
      ((PUnit.unit, { db with
        messageAllocator := freeListFreeRange db.messageAllocator first limit }), []) :=
  out_modify _ _ _

theorem scan_messages_run (fuel : Nat) (scan : MessageScan start count db card)
    (enough : totalMessageSectorSize ≤ count + fuel) :
    ∃ answer next log, out (reconstructMessages fuel (getNextBit db.usageBitmap
        (messageDataSector count) (messageDataSector (totalMessageSectorSize - 1))) count) db card =
        ((answer, next), log) ∧
      MessageScanEnds start answer next (applyWrites log card) := by
  induction fuel generalizing count db card with
  | zero =>
      exact ⟨_, db, [], rfl, scan, fun index above below => absurd below (by omega)⟩
  | succ fuel ih =>
      unfold reconstructMessages
      rcases next_used_message db.usageBitmap count with
        ⟨index, low, inside, result, used, clear⟩ | ⟨result, clear⟩
      · have size : totalMessageSectorSize = 28586 := rfl
        have small := inside
        rw [size] at small enough
        have goes : ¬(messageDataSector index = uint16Max ∨
            messageDataSector (totalMessageSectorSize - 1) < messageDataSector index) := by
          simp
          omega
        have back : u16 (messageDataSector index - messageDataStartSector) = index := by
          simp
          exact u16_of_lt (by omega)
        have step : u16 (index + 1) = index + 1 := u16_of_lt (by omega)
        have gap := scan.free_gap low (Nat.le_of_lt inside) clear
        rw [result, if_neg goes, back]
        obtain ⟨proceed, next, log, run, passed, failing⟩ := scan_used_run links inside gap used
          (messageDataSector index = messageDataSector (totalMessageSectorSize - 1))
          (u16 (index + 1)) (do
            reconstructMessages fuel (getNextBit (← get).usageBitmap
              (u16 (messageDataSector index + 1))
              (messageDataSector (totalMessageSectorSize - 1))) (u16 (index + 1)))
        have later : ∃ answer last more, out (if proceed then
              if messageDataSector index = messageDataSector (totalMessageSectorSize - 1) then
                pure (some (u16 (index + 1)))
              else do
                reconstructMessages fuel (getNextBit (← get).usageBitmap
                  (u16 (messageDataSector index + 1))
                  (messageDataSector (totalMessageSectorSize - 1))) (u16 (index + 1))
            else pure none) next (applyWrites log card) = ((answer, last), more) ∧
          MessageScanEnds start answer last (applyWrites more (applyWrites log card)) := by
          rw [step]
          cases proceed with
          | false => exact ⟨none, next, [], rfl, failing rfl⟩
          | true =>
              by_cases atEnd : messageDataSector index =
                  messageDataSector (totalMessageSectorSize - 1)
              · rw [if_pos rfl, if_pos atEnd]
                refine ⟨_, next, [], rfl, passed, fun other above below => ?_⟩
                simp at atEnd
                omega
              · have further : u16 (messageDataSector index + 1) = messageDataSector (index + 1) := by
                  simp
                  rw [u16_of_lt (by omega)]
                  omega
                rw [if_pos rfl, if_neg atEnd, out_bind_of (out_get _ _), further]
                exact ih passed (by omega)
        obtain ⟨answer, last, more, rest, done⟩ := later
        refine ⟨answer, last, log ++ more, ?_, ?_⟩
        · refine (out_bind_of (out_freeMessages count index db card)).trans ?_
          refine (congrArg (fun outcome => (outcome.1, [] ++ outcome.2)) run).trans ?_
          rw [rest]
          rfl
        · rw [apply_writes_append]
          exact done
      · rw [if_pos result]
        exact ⟨_, db, [], rfl, scan, clear⟩

end Scan

/-- What the rebuild leaves behind when it succeeds. -/
structure MessageRebuilt (start after : Machine) : Prop where
  nodup : after.db.messageAllocator.freeStack.Nodup
  mem : ∀ index, index ∈ after.db.messageAllocator.freeStack ↔ index < totalMessageSectorSize ∧
    usageBit after.db.usageBitmap (messageDataSector index) = false
  usedCount : after.db.messageAllocator.usedCount =
    ((List.range totalMessageSectorSize).filter fun index =>
      usageBit after.db.usageBitmap (messageDataSector index)).length
  unchanged : EntriesInside start.db.htable → ∀ dataSector,
    usageBit after.db.usageBitmap dataSector ≠ usageBit start.db.usageBitmap dataSector →
      ∃ index < totalMessageSectorSize, dataSector = messageDataSector index ∧
        OrphanChain start after.db.usageBitmap index

theorem message_rebuild_run (start : Machine)
    (empty : freeListEmptyInit totalMessageSectorSize = some start.db.messageAllocator)
    (links : LinksInside start.card) :
    ((start.run hashReconstructMessage).1 = true ∧
      MessageRebuilt start (start.run hashReconstructMessage).2) ∨
    ((start.run hashReconstructMessage).1 = false ∧ InsertFails start) := by
  have fresh : MessageScan start 0 start.db start.card :=
    { same := ⟨fun _ _ => rfl, fun _ _ => rfl, rfl, fun _ => rfl, fun _ => rfl, fun _ => rfl⟩
      card := fun _ _ => rfl
      fewer := fun _ set => set
      orphans := fun _ dataSector before after => by
        rw [before] at after
        cases after
      free := free_scanned_start empty _ }
  obtain ⟨answer, next, log, run, done⟩ :=
    scan_messages_run links (totalMessageSectorSize + 1) fresh (by omega)
  have empties : log = [] ++ (log ++ []) := by rw [List.append_nil, List.nil_append]
  cases answer with
  | none =>
      have whole : out hashReconstructMessage start.db start.card = ((false, next), log) := by
        rw [empties]
        unfold hashReconstructMessage
        exact out_bind_both (out_get _ _) (out_bind_both run rfl)
      rw [Machine.run, whole]
      exact Or.inr ⟨rfl, done⟩
  | some after =>
      have whole : out hashReconstructMessage start.db start.card = ((true, { next with
          messageAllocator := freeListFreeRange next.messageAllocator after
            totalMessageSectorSize }), log) := by
        rw [empties]
        unfold hashReconstructMessage
        exact out_bind_both (out_get _ _) (out_bind_both run
          (out_bind_both (out_freeMessages _ _ _ _) rfl))
      rw [Machine.run, whole]
      obtain ⟨scan, clear⟩ := done
      have full := scan.free_gap scan.free.order (Nat.le_refl _) clear
      refine Or.inl ⟨rfl, ?_⟩
      exact
        { nodup := full.free.nodup
          mem := full.free.mem
          usedCount := full.free.used_count
          unchanged := fun inside dataSector differs => by
            have before : usageBit start.db.usageBitmap dataSector = true := by
              by_contra unset
              rw [Bool.not_eq_true] at unset
              refine differs (Eq.trans ?_ unset.symm)
              by_contra set
              rw [Bool.not_eq_false] at set
              rw [full.fewer _ set] at unset
              cases unset
            rw [before, ne_eq, Bool.not_eq_true] at differs
            exact full.orphans inside dataSector before differs }

/-- The free list is exact whenever the rebuild of the chats succeeds. -/
theorem message_rebuild_exact (start : Machine)
    (empty : freeListEmptyInit totalMessageSectorSize = some start.db.messageAllocator)
    (links : LinksInside start.card)
    (succeeds : (start.run hashReconstructMessage).1 = true) :
    MessageRebuilt start (start.run hashReconstructMessage).2 := by
  rcases message_rebuild_run start empty links with ⟨_, rebuilt⟩ | ⟨fails, _⟩
  · exact rebuilt
  · rw [succeeds] at fails
    cases fails

/-- The `prev` links from a sector on end within some steps. -/
def PrevEnds (card : Card Sector) : Nat → Nat → Prop
  | 0, curr => curr = uint16Max
  | steps + 1, curr => curr < totalMessageSectorSize ∧ PrevEnds card steps (messagePrev card curr)

section Succeeds

variable {start : Machine} {count : Nat} {db : Database} {card : Card Sector}

theorem MessageScan.inserts_owned (scan : MessageScan start count db card)
    (placed : EntriesInside start.db.htable) {mSector : MessageSector}
    (owned : Owned start mSector) (index : Nat) :
    ∃ next, out (insertMessageFromSector mSector index) db card = ((.strgOk, next), []) := by
  obtain ⟨record, slot, read, search, occupied, place⟩ := scan.owner placed owned
  have known : ¬((db.htable.htable slot).state ≠ .occupied ∨
      (db.htable.htable slot).sector ≠ mSector.header.contactIndex.toNat) := by
    rw [not_or, not_not, not_not]
    exact ⟨occupied, place⟩
  unfold insertMessageFromSector
  dsimp only
  rw [out_bind_of read]
  simp only [apply_writes_nil, List.nil_append]
  change ∃ next, out (hashFindEntry (ownerPhone record) >>= _) db card = _
  rw [out_bind_of search]
  simp only [apply_writes_nil, List.nil_append]
  rw [out_bind_of (out_get _ _)]
  simp only [apply_writes_nil, List.nil_append]
  rw [if_neg known]
  exact ⟨_, out_bind_both (out_modify _ _ _) (out_pure _ _ _)⟩

theorem orphan_not_failing (startIndex : Nat) {steps jumpsLeft curr : Nat}
    (same : ∀ index, card (messageRaw index) = start.card (messageRaw index))
    (ends : PrevEnds start.card steps curr) (jumps : steps < jumpsLeft) :
    ∃ ret next log, out (removeOrphanedFrom startIndex jumpsLeft curr) db card =
      ((ret, next), log) ∧ ret ≠ .strgFail := by
  induction steps generalizing jumpsLeft curr db card with
  | zero =>
      obtain ⟨left, rfl⟩ : ∃ left, jumpsLeft = left + 1 := ⟨jumpsLeft - 1, by omega⟩
      have atEnd : curr = uint16Max := ends
      unfold removeOrphanedFrom
      rw [if_pos atEnd]
      exact ⟨_, db, [], rfl, by decide⟩
  | succ steps ih =>
      obtain ⟨left, rfl⟩ : ∃ left, jumpsLeft = left + 1 := ⟨jumpsLeft - 1, by omega⟩
      obtain ⟨bound, older⟩ := ends
      have more : left ≠ 0 := by omega
      have read := out_readMessageSector db card bound
      unfold removeOrphanedFrom
      rw [if_neg (index_not_end bound), out_bind, out_checkUsageBit, message_narrow bound]
      cases used : usageBit db.usageBitmap (messageDataSector curr) with
      | false => exact ⟨_, db, [], rfl, by decide⟩
      | true =>
          simp only [Bool.not_true, Bool.false_eq_true, if_false, apply_writes_nil,
            List.nil_append]
          cases valid : sectorCrcValid (card (messageRaw curr)) with
          | false =>
              rw [valid] at read
              rw [out_bind_of read]
              exact ⟨_, db, [], rfl, by decide⟩
          | true =>
              rw [valid] at read
              rw [out_bind_of read]
              simp only [if_true, apply_writes_nil, List.nil_append]
              rw [out_bind_of (out_removeMessageBit db card bound)]
              simp only [ne_eq, not_true_eq_false, if_false, more]
              have kept : ∀ index, applyWrites (bitRemovalLog db.usageBitmap curr) card
                  (messageRaw index) = start.card (messageRaw index) := by
                intro index
                rw [bit_removal_low db card bound _ (by simp only [messageRaw]; omega), same]
              have prev : (ofSector (card (messageRaw curr)) : MessageSector).header.prev.toNat =
                  messagePrev start.card curr := by
                rw [messagePrev, same]
              rw [prev]
              by_cases behind : curr ≤ startIndex
              · obtain ⟨ret, next, log, run, goes⟩ := @ih { bitRemoved db curr with
                  messageAllocator := freeListFree db.messageAllocator curr } _ _ _ kept older
                  (Nat.lt_of_succ_lt_succ jumps)
                refine ⟨ret, next, bitRemovalLog db.usageBitmap curr ++ log, ?_, goes⟩
                rw [if_pos behind, out_bind_of (out_modify _ _ _)]
                exact congrArg (fun outcome =>
                  (outcome.1, bitRemovalLog db.usageBitmap curr ++ ([] ++ outcome.2))) run
              · obtain ⟨ret, next, log, run, goes⟩ := @ih (bitRemoved db curr) _ _ _ kept older
                  (Nat.lt_of_succ_lt_succ jumps)
                refine ⟨ret, next, bitRemovalLog db.usageBitmap curr ++ log, ?_, goes⟩
                rw [if_neg behind, run]

theorem MessageScan.inserts_orphan (scan : MessageScan start count db card)
    {mSector : MessageSector} (inside : mSector.header.contactIndex.toNat < hashTableEntries)
    (unused : usageBit start.db.usageBitmap (mSector.header.contactIndex.toNat / 6) = false)
    {index steps : Nat} (ends : PrevEnds start.card steps index)
    (few : steps < totalMessageSectorSize) :
    ∃ ret next log, out (insertMessageFromSector mSector index) db card = ((ret, next), log) ∧
      ret ≠ .strgFail := by
  have read : out (readContact mSector.header.contactIndex.toNat) db card =
      ((.error .strgEmpty, db), []) := by
    unfold readContact
    rw [out_bind, out_checkUsageBit, slot_narrow inside,
      scan.same.bits _ (slot_sector_bound inside), unused]
    rfl
  obtain ⟨ret, next, log, run, goes⟩ := @orphan_not_failing start db card index steps
    (totalMessageSectorSize + 1) index
    (fun other => scan.card _ (by simp only [messageRaw]; omega)) ends (by omega)
  refine ⟨if ret = .strgOk then .strgEmpty else ret, next, [] ++ (log ++ []), ?_, ?_⟩
  · unfold insertMessageFromSector
    exact out_bind_both read (out_bind_both run rfl)
  · split
    · decide
    · exact goes

end Succeeds

section Probe

variable {db : Database} {card : Card Sector}

theorem probe_hits {phone : List Byte} {target h1 h2 count attempt : Nat} {contact : Contact}
    {firstFree : Option Nat} {index : Nat}
    (place : (h1 + attempt * h2) % db.htable.size = index)
    (occupied : (db.htable.htable index).state = .occupied)
    (tag : (db.htable.htable index).id = target) {found : Contact}
    (read : out (readContact (db.htable.htable index).sector) db card = ((.ok found, db), []))
    (same : cstr found.phone = phone) :
    out (probeFrom phone target h1 h2 (count + 1) attempt contact firstFree) db card =
      ((some index, db), []) := by
  unfold probeFrom
  rw [out_bind_of (out_get _ _)]
  dsimp only
  rw [place, occupied, apply_writes_nil]
  dsimp only
  rw [if_pos tag, out_bind_of read]
  dsimp only
  rw [if_pos same]
  rfl

end Probe

/-- A sector with one message and these links. -/
def exampleLinked (contactIndex prev next : Nat) : MessageSector :=
  let mSector := (createNewMessageSector contactIndex prev).push .zero
  { mSector with header := { mSector.header with next := BitVec.ofNat 16 next } }

/-- Sectors 0 and 1 are a chat of contact 1, sectors 3 and 4 one of a contact that is gone. -/
def exampleSector (index : Nat) : MessageSector :=
  match index with
  | 0 => exampleLinked 1 uint16Max 1
  | 1 => exampleLinked 1 0 uint16Max
  | 3 => exampleLinked 7 4 uint16Max
  | 4 => exampleLinked 7 uint16Max 3
  | _ => createNewMessageSector 0 uint16Max

def exampleOwner : Contact := createContact [65#8] exampleText.val

def exampleOwnerSlot : Nat := hashPhone exampleText.val % hashTableSize

def exampleOwnerEntry (slot : Nat) : HashEntry :=
  if slot = exampleOwnerSlot then ⟨hashPhone exampleText.val, 1, uint16Max, .occupied⟩ else .zero

/-- Sector 2 has a bad checksum. -/
def exampleUnscannedCard : Card Sector := fun raw =>
  if raw = contactRaw 0 then sectorCrcStamp (toSector (ContactSector.zero.put 1 exampleOwner))
  else if raw = messageRaw 2 then spoiled (toSector (exampleSector 2))
  else sectorCrcStamp (toSector (exampleSector (raw - messageRaw 0)))

/-- The first contact sector and the first five message sectors are in use. -/
def exampleUnscanned : Machine :=
  ⟨{ blankDatabase with
      htable := ⟨exampleOwnerEntry, 1, hashTableSize⟩
      messageAllocator := ⟨[], totalMessageSectorSize, totalMessageSectorSize⟩
      usageBitmap := [0, 1667, 1668, 1669, 1670, 1671].foldl
        (fun bitmap dataSector => setUsageBit bitmap dataSector true) .zero },
    exampleUnscannedCard⟩

theorem example_unscanned_used {dataSector : Nat} :
    usageBit exampleUnscanned.db.usageBitmap dataSector = true ↔
      dataSector ∈ [0, 1667, 1668, 1669, 1670, 1671] := by
  have blank : usageBit .zero dataSector = false := by
    simp [usageBit, UsageBitmap.zero]
  simp [exampleUnscanned, blank]
  omega

theorem example_unscanned_card (index : Nat) : exampleUnscanned.card (messageRaw index) =
    if index = 2 then spoiled (toSector (exampleSector 2))
    else sectorCrcStamp (toSector (exampleSector index)) := by
  have apart : messageRaw index ≠ contactRaw 0 := by
    simp [messageRaw, contactRaw]
    omega
  have back : messageRaw index - messageRaw 0 = index := by
    simp [messageRaw]
  change exampleUnscannedCard (messageRaw index) = _
  unfold exampleUnscannedCard
  rw [if_neg apart, back]
  by_cases second : index = 2
  · rw [if_pos (by rw [second]), if_pos second]
  · rw [if_neg, if_neg second]
    simp [messageRaw]
    omega

theorem example_unscanned_sector (index : Nat) :
    (ofSector (exampleUnscanned.card (messageRaw index)) : MessageSector) = exampleSector index := by
  rw [example_unscanned_card]
  by_cases second : index = 2
  · rw [if_pos second, ofSector, payload_spoiled, second]
    exact of_to_sector _
  · rw [if_neg second, of_sector_stamp, of_to_sector]

theorem example_unscanned_prev (index : Nat) :
    messagePrev exampleUnscanned.card index = (exampleSector index).header.prev.toNat := by
  rw [messagePrev, example_unscanned_sector]

theorem example_owner_read : out (readContact 1) exampleUnscanned.db exampleUnscanned.card =
    ((.ok exampleOwner, exampleUnscanned.db), []) := by
  have sector : exampleUnscannedCard (contactRaw 0) =
      sectorCrcStamp (toSector (ContactSector.zero.put 1 exampleOwner)) := if_pos rfl
  have place := @stored_contact_position exampleUnscanned.db.usageBitmap exampleUnscannedCard 0 1
    (by decide) (by decide) (example_unscanned_used.mpr (by decide))
    (by rw [sector]; exact stamp_valid _)
  rw [sector, of_sector_stamp, of_to_sector] at place
  exact out_readContact_stored place

/-- The entry of the contact is the first one that is looked at. -/
theorem example_owner_found :
    out (hashFindEntry exampleText.val) exampleUnscanned.db exampleUnscanned.card =
      ((some exampleOwnerSlot, exampleUnscanned.db), []) := by
  have entry : exampleUnscanned.db.htable.htable exampleOwnerSlot =
      ⟨hashPhone exampleText.val, 1, uint16Max, .occupied⟩ := by
    change exampleOwnerEntry exampleOwnerSlot = _
    exact if_pos rfl
  have steps : exampleUnscanned.db.htable.size = hashTableSize - 1 + 1 := rfl
  unfold hashFindEntry
  rw [out_bind_of (out_get _ _)]
  dsimp only
  rw [steps]
  refine congrArg (fun outcome => (outcome.1, [] ++ outcome.2))
    (@probe_hits _ _ _ _ _ _ _ _ _ _ exampleOwnerSlot ?_ ?_ ?_ exampleOwner ?_ ?_)
  · decide
  · rw [entry]
  · rw [entry]
  · rw [entry]
    exact example_owner_read
  · decide

theorem example_unscanned_placed : EntriesInside exampleUnscanned.db.htable := by
  intro slot occupied
  change (exampleOwnerEntry slot).state = .occupied at occupied
  change (exampleOwnerEntry slot).sector < hashTableEntries
  unfold exampleOwnerEntry at occupied ⊢
  split
  · decide
  · next other =>
      rw [if_neg other] at occupied
      cases occupied

theorem example_unscanned_owned {mSector : MessageSector}
    (owner : mSector.header.contactIndex.toNat = 1) : Owned exampleUnscanned mSector := by
  refine ⟨exampleOwner, exampleOwnerSlot, ?_, ?_, ?_, ?_⟩
  · rw [owner]
    exact example_owner_read
  · exact example_owner_found
  · change (exampleOwnerEntry exampleOwnerSlot).state = .occupied
    rw [exampleOwnerEntry, if_pos rfl]
  · change (exampleOwnerEntry exampleOwnerSlot).sector = _
    rw [exampleOwnerEntry, if_pos rfl, owner]

theorem example_unscanned_links : LinksInside exampleUnscanned.card := by
  intro index _
  rw [example_unscanned_prev]
  unfold exampleSector
  split <;> decide

theorem example_unscanned_inserts : ¬InsertFails exampleUnscanned := by
  rintro ⟨index, db, card, next, log, bound, scan, used, valid, run⟩
  have unowned : usageBit exampleUnscanned.db.usageBitmap 1 = false := by
    rw [Bool.eq_false_iff, ne_eq, example_unscanned_used]
    decide
  have owned : (exampleSector index).header.contactIndex.toNat = 1 → False := by
    intro owner
    rw [example_unscanned_sector] at run
    obtain ⟨later, inserted⟩ := scan.inserts_owned example_unscanned_placed
      (example_unscanned_owned owner) index
    rw [inserted] at run
    cases run
  have orphaned : ∀ steps, steps < totalMessageSectorSize →
      PrevEnds exampleUnscanned.card steps index →
      (exampleSector index).header.contactIndex.toNat = 7 → False := by
    intro steps few ends owner
    rw [example_unscanned_sector] at run
    obtain ⟨ret, later, more, removed, goes⟩ := scan.inserts_orphan (by rw [owner]; decide)
      (by rw [owner]; exact unowned) ends few
    rw [removed] at run
    cases run
    exact goes rfl
  have last : PrevEnds exampleUnscanned.card 1 4 := by
    refine ⟨by decide, ?_⟩
    rw [example_unscanned_prev]
    rfl
  have first : PrevEnds exampleUnscanned.card 2 3 := by
    refine ⟨by decide, ?_⟩
    rw [example_unscanned_prev]
    exact last
  have place := example_unscanned_used.mp (scan.fewer _ used)
  have five : index = 0 ∨ index = 1 ∨ index = 2 ∨ index = 3 ∨ index = 4 := by
    simp at place
    omega
  rcases five with rfl | rfl | rfl | rfl | rfl
  · exact owned rfl
  · exact owned rfl
  · rw [example_unscanned_card, if_pos rfl, spoiled_invalid] at valid
    cases valid
  · exact orphaned 2 (by decide) first rfl
  · exact orphaned 1 (by decide) last rfl

/-- A chat of two sectors, a chat of two sectors without an owner and a bad sector. -/
theorem message_rebuild_exact_example :
    (∀ index ∈ [0, 1, 2, 3, 4],
      usageBit exampleUnscanned.db.usageBitmap (messageDataSector index) = true) ∧
    Owned exampleUnscanned (exampleSector 1) ∧ ¬Owned exampleUnscanned (exampleSector 3) ∧
    sectorCrcValid (exampleUnscanned.card (messageRaw 2)) = false ∧
    MessageRebuilt exampleUnscanned (exampleUnscanned.run hashReconstructMessage).2 := by
  refine ⟨?_, example_unscanned_owned rfl, ?_, ?_, ?_⟩
  · intro index member
    apply example_unscanned_used.mpr
    revert index
    decide
  · rintro ⟨record, slot, read, _, _, _⟩
    have unowned : usageBit exampleUnscanned.db.usageBitmap (7 / 6) = false := by
      rw [Bool.eq_false_iff, ne_eq, example_unscanned_used]
      decide
    change out (readContact 7) _ _ = _ at read
    unfold readContact at read
    rw [out_bind, out_checkUsageBit, slot_narrow (by decide), unowned] at read
    cases read
  · rw [example_unscanned_card, if_pos rfl, spoiled_invalid]
  · apply message_rebuild_exact exampleUnscanned rfl example_unscanned_links
    rcases message_rebuild_run exampleUnscanned rfl example_unscanned_links with
      ⟨succeeds, _⟩ | ⟨_, fails⟩
    · exact succeeds
    · exact absurd fails example_unscanned_inserts

end SdDatabase
