import SdDatabase.Contact
import SdDatabase.Message

/-!
# Hash table

`hash_table.c`: contacts are found by a double hash of their phone number in an
open-addressed table whose entries name the contact slot on the card and the
newest sector of the contact's chat. The table is rebuilt from the card at
start-up.
-/

namespace SdDatabase

open Bytes Device BitScan

set_option autoImplicit false

def hashPrimary (key capacity : Nat) : Nat := key % capacity

def hashSecondary (key capacity : Nat) : Nat := 1 + key % (capacity - 1)

/-- One character of `hash_phone`; characters other than digits are ignored. -/
def hashPhoneStep (hash : BitVec 32) (character : Byte) : BitVec 32 :=
  if 48 ≤ character.toNat ∧ character.toNat ≤ 57 then
    ((hash <<< 5) + hash) + character.setWidth 32
  else hash

def hashPhone (phone : List Byte) : Nat :=
  let hash := phone.foldl hashPhoneStep 5381#32
  (hash.setWidth 16 ^^^ (hash >>> 16).setWidth 16).toNat

/-- `hash_init`, on the zeroed array of entries. -/
def hashInit (size : Nat) : HashTable where
  htable _ := .zero
  numElems := 0
  size := size

def HashTable.setEntry (table : HashTable) (slot : Nat) (entry : HashEntry) : HashTable :=
  { table with htable := Function.update table.htable slot entry }

/-- The probe loop of `hash_find_entry`. `contact` is the buffer on its stack,
which keeps its content when a read fails. -/
def probeFrom (phone : List Byte) (target h1 h2 : Nat) :
    Nat → Nat → Contact → Option Nat → DbM (Option Nat)
  | 0, _, _, firstFree => return firstFree
  | count + 1, attempt, contact, firstFree => do
      let table := (← get).htable
      let index := (h1 + attempt * h2) % table.size
      let cur := table.htable index
      match cur.state with
      | .empty => return some (firstFree.getD index)
      | .deleted =>
          probeFrom phone target h1 h2 count (attempt + 1) contact (some (firstFree.getD index))
      | .occupied =>
          if cur.id = target then
            match ← readContact cur.sector with
            | .ok found =>
                if cstr found.phone = phone then return some index
                probeFrom phone target h1 h2 count (attempt + 1) found firstFree
            | .error ret =>
                -- only these two codes count as a miss; the buffer is compared otherwise
                if ret = .strgFail ∨ ret = .strgCorrupt then
                  probeFrom phone target h1 h2 count (attempt + 1) contact firstFree
                else if cstr contact.phone = phone then return some index
                else probeFrom phone target h1 h2 count (attempt + 1) contact firstFree
          else probeFrom phone target h1 h2 count (attempt + 1) contact firstFree

/-- `hash_find_entry`: the matching entry, or the slot to insert into. -/
def hashFindEntry (phone : List Byte) : DbM (Option Nat) := do
  let size := (← get).htable.size
  let target := hashPhone phone
  let h1 := hashPrimary target (u16 size)
  let h2 := hashSecondary target (u16 size)
  probeFrom phone target h1 h2 size 0 .zero none

def modifyTable (step : HashTable → HashTable) : DbM PUnit :=
  modify fun db => { db with htable := step db.htable }

/-- `free_list_allocate` on the contact allocator. -/
def allocateContact : DbM Nat := do
  let (sector, allocator) := freeListAllocate (← get).contactAllocator
  modify fun db => { db with contactAllocator := allocator }
  return sector

/-- `free_list_allocate` on the message allocator. -/
def allocateMessage : DbM Nat := do
  let (sector, allocator) := freeListAllocate (← get).messageAllocator
  modify fun db => { db with messageAllocator := allocator }
  return sector

def occupiedEntry (hash sector : Nat) : HashEntry where
  id := hash
  sector := sector
  latestMsgExtent := uint16Max
  state := .occupied

/-- `hash_insert_contact`, with the hash slot it found. -/
def hashInsertContact (contact : Contact) : DbM (StrgRet × Nat) := do
  let phone := cstr contact.phone
  match ← hashFindEntry phone with
  | none => return (.strgFull, 0)
  | some slot =>
      let temp := (← get).htable.htable slot
      if temp.state = .occupied then
        return (.strgExists, slot)
      let contactAlloc ← allocateContact
      if contactAlloc = uint16Max then
        return (.strgFull, slot)
      modifyTable fun table =>
        { table.setEntry slot (occupiedEntry (hashPhone phone) contactAlloc) with
          numElems := table.numElems + 1 }
      let ret ← writeContact contactAlloc contact
      if ret ≠ .strgOk then
        modify fun db =>
          { db with contactAllocator := freeListFree db.contactAllocator contactAlloc }
        modifyTable fun table => { table.setEntry slot temp with numElems := table.numElems - 1 }
        return (.strgFail, slot)
      return (.strgOk, slot)

def hashUpdatePhone (oldPhone : List Byte) (new : Contact) : DbM StrgRet := do
  match ← hashFindEntry oldPhone with
  | none => return .strgFull
  | some oldSlot =>
      if ((← get).htable.htable oldSlot).state ≠ .occupied then
        return .strgEmpty
      let phone := cstr new.phone
      match ← hashFindEntry phone with
      | none => return .strgFull
      | some newSlot =>
          let temp := (← get).htable.htable newSlot
          if temp.state = .occupied then
            return .strgExists
          modifyTable fun table =>
            table.setEntry newSlot { table.htable oldSlot with id := hashPhone phone }
          let ret ← writeContact ((← get).htable.htable newSlot).sector new
          if ret ≠ .strgOk then
            modifyTable fun table => table.setEntry newSlot temp
            return ret
          modifyTable fun table =>
            table.setEntry oldSlot { table.htable oldSlot with state := .deleted }
          return .strgOk

def hashUpdateContact (old new : Contact) : DbM StrgRet := do
  if cstr old.phone ≠ cstr new.phone then
    hashUpdatePhone (cstr old.phone) new
  else
    match ← hashFindEntry (cstr new.phone) with
    | none => return .strgFull
    | some slot =>
        let entry := (← get).htable.htable slot
        if entry.state ≠ .occupied then
          return .strgEmpty
        writeContact entry.sector new

/-- First half of `hash_insert_message`: make sure the entry has a contact. -/
def claimEntryForMessage (phone : List Byte) (slot : Nat) : DbM Bool := do
  if ((← get).htable.htable slot).state = .occupied then
    return true
  let sector ← allocateContact
  if sector = uint16Max then
    return false
  let ret ← writeContact sector (createContact [] phone)
  if ret ≠ .strgOk then
    return false
  modifyTable fun table =>
    { table.setEntry slot (occupiedEntry (hashPhone phone) sector) with
      numElems := table.numElems + 1 }
  return true

def setLatestMsgExtent (slot sector : Nat) : DbM PUnit :=
  modifyTable fun table =>
    table.setEntry slot { table.htable slot with latestMsgExtent := sector }

/-- Second half of `hash_insert_message`: write the message to the entry's chat. -/
def appendToChat (slot : Nat) (message : Message) : DbM Bool := do
  let entry := (← get).htable.htable slot
  if entry.latestMsgExtent = uint16Max then
    let sector ← allocateMessage
    if sector = uint16Max then
      return false
    let ret ← writeNewMessageSector entry.sector sector message
    if ret ≠ .strgOk then
      return false
    setLatestMsgExtent slot sector
    return true
  else
    let ret ← writeMessage entry.latestMsgExtent message
    if ret = .strgFull then
      let nextSector ← allocateMessage
      let ret ← writeNextMessageSector entry.sector entry.latestMsgExtent nextSector message
      if ret ≠ .strgOk then
        return false
      setLatestMsgExtent slot nextSector
      return true
    else return ret == .strgOk

def hashInsertMessage (phone : List Byte) (message : Message) : DbM Bool := do
  match ← hashFindEntry phone with
  | none => return false
  | some slot =>
      if !(← claimEntryForMessage phone slot) then
        return false
      appendToChat slot message

/-- `hash_find_entry` with this content of its uninitialised buffer. -/
def hashFindEntryFrom (contact : Contact) (phone : List Byte) : DbM (Option Nat) := do
  let size := (← get).htable.size
  let target := hashPhone phone
  let h1 := hashPrimary target (u16 size)
  let h2 := hashSecondary target (u16 size)
  probeFrom phone target h1 h2 size 0 contact none

/-- The checks that `hash_find_contact` and `hash_find_message` begin with; `given` says that
`out` is not null. -/
def lookupEntry (contact : Contact) (phone : Option (List Byte)) (given : Bool) :
    DbM (Option Nat) := do
  match phone with
  | none => return none
  | some phone =>
      if !given || (← get).htable.size == 0 then
        return none
      match ← hashFindEntryFrom contact phone with
      | none => return none
      | some slot =>
          if ((← get).htable.htable slot).state ≠ .occupied then
            return none
          return some slot

/-- `hash_find_contact`, with the record that it writes to `out`. The code of `read_contact`
becomes a `bool`. -/
def hashFindContact (contact : Contact) (phone : Option (List Byte)) (given : Bool) :
    DbM (Bool × Option Contact) := do
  match ← lookupEntry contact phone given with
  | none => return (false, none)
  | some slot =>
      match ← readContact ((← get).htable.htable slot).sector with
      | .error ret => return (ret.toBool, none)
      | .ok found => return (StrgRet.strgOk.toBool, some found)

/-- `hash_find_message`, with the record that it writes to `out`. The code of `read_message`
becomes a `bool`. -/
def hashFindMessage (contact : Contact) (phone : Option (List Byte)) (given : Bool) :
    DbM (Bool × Option Message) := do
  match ← lookupEntry contact phone given with
  | none => return (false, none)
  | some slot =>
      let latest := ((← get).htable.htable slot).latestMsgExtent
      if latest = uint16Max then
        return (false, none)
      match ← readMessage latest 0 with
      | .error ret => return (ret.toBool, none)
      | .ok newest => return (StrgRet.strgOk.toBool, some newest)

def findOccupiedEntry (phone : List Byte) : DbM (Option Nat) := do
  match ← hashFindEntry phone with
  | none => return none
  | some slot =>
      if ((← get).htable.htable slot).state = .occupied then return some slot
      return none

/-- `hash_remove_contact`, with the removed record when it succeeds. -/
def hashRemoveContact (phone : List Byte) : DbM (Option Contact) := do
  match ← findOccupiedEntry phone with
  | none => return none
  | some slot =>
      match ← removeContact ((← get).htable.htable slot).sector with
      | none => return none
      | some removed =>
          modifyTable fun table =>
            { table.setEntry slot
                { table.htable slot with sector := uint16Max, state := .deleted } with
              numElems := table.numElems - 1 }
          return some removed

def hashRemoveMessage (phone : List Byte) : DbM Bool := do
  match ← findOccupiedEntry phone with
  | none => return false
  | some slot =>
      if !(← removeMessageChat ((← get).htable.htable slot).latestMsgExtent) then
        return false
      setLatestMsgExtent slot uint16Max
      return true

def hashRemove (phone : List Byte) : DbM Bool := do
  match ← findOccupiedEntry phone with
  | none => return false
  | some slot =>
      let chatRemoved ← removeMessageChat ((← get).htable.htable slot).latestMsgExtent
      setLatestMsgExtent slot uint16Max
      let contactRemoved ← removeContact ((← get).htable.htable slot).sector
      -- the contact goes even when its chat could not be removed
      if contactRemoved.isNone || !chatRemoved then
        return false
      modifyTable fun table =>
        { table.setEntry slot { table.htable slot with state := .deleted } with
          numElems := table.numElems - 1 }
      return true

def hashSize (table : HashTable) : Nat := table.numElems

/-- `hash_clear`: the table is blank and both allocators give out everything. -/
def hashClear : DbM PUnit :=
  modify fun db =>
    { db with
      contactAllocator := freeListReset db.contactAllocator
      messageAllocator := freeListReset db.messageAllocator
      htable := { db.htable with htable := fun _ => .zero, numElems := 0 } }

def freeContacts (first last : Nat) : DbM PUnit :=
  modify fun db => { db with contactAllocator := freeListFreeRange db.contactAllocator first last }

def freeMessages (first last : Nat) : DbM PUnit :=
  modify fun db => { db with messageAllocator := freeListFreeRange db.messageAllocator first last }

/-- The loop of `insert_contacts_from_sector` over the used slots of a sector. -/
def insertContactsLoop (cSector : ContactSector) (base : Nat) :
    Nat → Byte → Nat → DbM Bool
  | 0, _, nextFree => do
      freeContacts nextFree (u16 (base + contactSectorCapacity))
      return true
  | fuel + 1, usedBits, nextFree => do
      if usedBits = 0#8 then
        freeContacts nextFree (u16 (base + contactSectorCapacity))
        return true
      else
        let position := ctz usedBits
        let slotIndex := u16 (base + position)
        freeContacts nextFree slotIndex
        let phone := cstr (arrayGet cSector.contacts position .zero).phone
        match ← hashFindEntry phone with
        | none => return false
        | some slot =>
            modifyTable fun table =>
              { table.setEntry slot (occupiedEntry (hashPhone phone) slotIndex) with
                numElems := table.numElems + 1 }
            insertContactsLoop cSector base fuel (clearLowest usedBits) (u16 (slotIndex + 1))

/-- `insert_contacts_from_sector`; eight rounds use up the bits of the header. -/
def insertContactsFromSector (cSector : ContactSector) (base : Nat) : DbM Bool :=
  insertContactsLoop cSector base 8 cSector.usedBitmap base

/-- One used sector of `hash_reconstruct_contact`: `none` when the rebuild fails,
else the first slot not yet accounted for. -/
def reconstructContactSector (physSector lastFree : Nat) : DbM (Option Nat) := do
  let slotBase := u16 (physSector * contactSectorCapacity)
  freeContacts (u16 lastFree) slotBase
  match ← readContactSector physSector with
  | .error ret =>
      if ret = .strgFail then
        return none
      -- a corrupt sector is skipped and its slots stay allocated
      return some (slotBase + contactSectorCapacity)
  | .ok content =>
      if !(← insertContactsFromSector (ofSector content) slotBase) then
        return none
      return some (slotBase + contactSectorCapacity)

/-- The set bits of one bitmap word; 32 rounds use up the word. -/
def reconstructContactBits (word : Nat) : Nat → BitVec 32 → Nat → DbM (Option Nat)
  | 0, _, lastFree => return some lastFree
  | fuel + 1, bits, lastFree => do
      if bits = 0#32 then
        return some lastFree
      let physSector := usageBitmapWordToIndex word + ctz bits
      if contactMemorySectorSize ≤ physSector then
        return some lastFree
      match ← reconstructContactSector (u16 physSector) lastFree with
      | none => return none
      | some lastFree => reconstructContactBits word fuel (clearLowest bits) lastFree

/-- The bitmap words of `hash_reconstruct_contact`. -/
def reconstructContactWords (firstWord firstBit : Nat) :
    Nat → Nat → Nat → DbM (Option Nat)
  | 0, _, lastFree => return some lastFree
  | count + 1, word, lastFree => do
      if usageBitmapIsCrcWord word then
        reconstructContactWords firstWord firstBit count (word + 1) lastFree
      else
        let stored := (← get).usageBitmap.word word
        let bits :=
          if word = firstWord ∧ 0 < firstBit then clearBitsTo stored firstBit else stored
        match ← reconstructContactBits word 32 bits lastFree with
        | none => return none
        | some lastFree =>
            reconstructContactWords firstWord firstBit count (word + 1) lastFree

def hashReconstructContact : DbM Bool := do
  let firstWord := usageBitmapFindIndex contactDataStartSector
  let lastWord := usageBitmapFindIndex (contactDataStartSector + contactMemorySectorSize)
  match ← reconstructContactWords firstWord (usageBitmapFindBit contactDataStartSector)
      (lastWord + 1 - firstWord) firstWord 0 with
  | none => return false
  | some lastFree =>
      freeContacts (u16 lastFree) (u16 (usageBitmapStorageSize * bitsPerElement))
      return true

def insertMessageFromSector (mSector : MessageSector) (index : Nat) : DbM StrgRet := do
  let contactIndex := mSector.header.contactIndex.toNat
  match ← readContact contactIndex with
  | .error .strgFail => return .strgFail
  | .error _ =>
      let ret ← removeOrphanedMessageChat index
      return if ret = .strgOk then .strgEmpty else ret
  | .ok contact =>
      let phone := ((List.ofFn contact.phone).take
        (min contact.phoneLen.toNat maxPhoneLen)).takeWhile (· ≠ 0#8)
      match ← hashFindEntry phone with
      | none => return .strgFail
      | some slot =>
          let entry := (← get).htable.htable slot
          if entry.state ≠ .occupied ∨ entry.sector ≠ contactIndex then
            let ret ← removeOrphanedMessageChat index
            return if ret = .strgOk then .strgEmpty else ret
          setLatestMsgExtent slot index
          return .strgOk

/-- A sector heads its chat when its `next` leads to no used sector. -/
def isChatHead (bitmap : UsageBitmap) (mSector : MessageSector) : Bool :=
  let next := mSector.header.next.toNat
  decide (next = uint16Max) || decide (totalMessageSectorSize ≤ next) ||
    !usageBit bitmap (u16 (messageDataSector next))

/-- The loop of `hash_reconstruct_message`, with one round for every message
sector at most; `none` when the rebuild fails. -/
def reconstructMessages : Nat → Nat → Nat → DbM (Option Nat)
  | 0, _, lastFree => return some lastFree
  | fuel + 1, dataSector, lastFree => do
      let last := messageDataSector (totalMessageSectorSize - 1)
      if dataSector = uint16Max ∨ last < dataSector then
        return some lastFree
      let msgIndex := u16 (dataSector - messageDataStartSector)
      freeMessages lastFree msgIndex
      let lastFree := u16 (msgIndex + 1)
      let proceed ← match ← readMessageSector msgIndex with
        | .error ret => pure (ret ≠ .strgFail : Bool)
        | .ok content => do
            let mSector : MessageSector := ofSector content
            if isChatHead (← get).usageBitmap mSector then
              pure ((← insertMessageFromSector mSector msgIndex) ≠ .strgFail : Bool)
            else pure true
      if !proceed then
        return none
      if dataSector = last then
        return some lastFree
      reconstructMessages fuel
        (getNextBit (← get).usageBitmap (u16 (dataSector + 1)) last) lastFree

def hashReconstructMessage : DbM Bool := do
  let first := messageDataSector 0
  let last := messageDataSector (totalMessageSectorSize - 1)
  let dataSector := getNextBit (← get).usageBitmap first last
  match ← reconstructMessages (totalMessageSectorSize + 1) dataSector 0 with
  | none => return false
  | some lastFree =>
      freeMessages lastFree totalMessageSectorSize
      return true

/-- `hash_cleanup`; the second scan, over the messages, is missing in the source. -/
def hashCleanup : DbM Bool := do
  hashClear
  if !(← hashReconstructContact) then
    return false
  return true

end SdDatabase
