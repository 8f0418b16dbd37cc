import SdDatabase.SortedArray
import SdDatabase.ChatOrder
import SdDatabase.History
import SdDatabase.Superheader

/-!
# The database

`database.c`: mounting and formatting, and the calls made by the rest of the
phone. A call works on the card through the hash table and keeps the name index
and the chat order in step with it.
-/

namespace SdDatabase

open Bytes Device

set_option autoImplicit false

/-- A C string, without its terminator. -/
abbrev CString := { text : List Byte // ∀ character ∈ text, character ≠ 0#8 }

/-- `valid_str`; `none` stands for the null pointer. -/
def validStr (s : Option CString) (max : Nat) : Option (List Byte) :=
  match s with
  | none => none
  | some text => if text.val.length ≤ max then some text.val else none

/-- `valid_phone`: not empty, and short enough to keep a terminator. -/
def validPhone (phone : Option CString) : Option (List Byte) :=
  match validStr phone (maxPhoneLen - 1) with
  | none => none
  | some text => if text = [] then none else some text

/-- The struct and the entry array after the `memset`s; the usage bitmap is a
global that keeps its words. -/
def Database.clear (db : Database) : Database where
  journal := .zero
  htable := hashInit 0
  contactAllocator := ⟨[], 0, 0⟩
  messageAllocator := ⟨[], 0, 0⟩
  messageHistory := ⟨0#32, 0, 0, 0⟩
  callHistory := ⟨0#32, 0, 0, 0⟩
  nameIndex := ⟨[]⟩
  chatOrder := ⟨[]⟩
  usageBitmap := db.usageBitmap

def historyInit : DbM StrgRet := do
  match ← initRingBuffer (← get).messageHistory totalMessageHistorySectorSize
      (dataSectorToRaw messageHistoryDataStartSector) with
  | none => return .strgFail
  | some messages =>
      modify fun db => { db with messageHistory := messages }
      match ← initRingBuffer (← get).callHistory totalCallHistorySectorSize
          (dataSectorToRaw callHistoryDataStartSector) with
      | none => return .strgFail
      | some calls =>
          modify fun db => { db with callHistory := calls }
          return .strgOk

/-- Rebuild the structures in memory once the journal is recovered. -/
def databaseRebuild : DbM StrgRet := do
  match freeListEmptyInit hashTableEntries, freeListEmptyInit totalMessageSectorSize with
  | some contacts, some messages =>
      modify fun db =>
        { db with
          contactAllocator := contacts
          messageAllocator := messages
          htable := hashInit hashTableSize }
      if !(← readUsageBitmap) then
        return .strgFail
      if !(← hashReconstructContact) then
        return .strgFail
      if !(← hashReconstructMessage) then
        return .strgFail
      let chats ← chatOrderBuild
      if chats ≠ .strgOk then
        return chats
      let names ← sortedArrayBuild
      if names ≠ .strgOk then
        return names
      historyInit
  | _, _ => return .strgFail

def databaseMount : DbM StrgRet := do
  modify fun db => { db with journal := .zero }
  if !(← journalInit) then
    return .strgFail
  databaseRebuild

def databaseFormat : DbM StrgRet := do
  modify fun db => { db with journal := .zero }
  if !(← journalHeaderInit) then
    return .strgFail
  if !(← initUsageBitmap) then
    return .strgFail
  let messages ← clearRingBuffer (dataSectorToRaw messageHistoryDataStartSector)
    totalMessageHistorySectorSize
  if messages ≠ .strgOk then
    return messages
  let calls ← clearRingBuffer (dataSectorToRaw callHistoryDataStartSector)
    totalCallHistorySectorSize
  if calls ≠ .strgOk then
    return calls
  let superheader ← superheaderInit
  if superheader ≠ .strgOk then
    return superheader
  match freeListInit hashTableEntries, freeListInit totalMessageSectorSize with
  | some contacts, some messages =>
      modify fun db =>
        { db with
          contactAllocator := contacts
          messageAllocator := messages
          htable := hashInit hashTableSize
          nameIndex := ⟨[]⟩
          chatOrder := ⟨[]⟩ }
      historyInit
  | _, _ => return .strgFail

def databaseInit : DbM StrgRet := do
  modify Database.clear
  match ← superheaderCheck with
  | .good => databaseMount
  | .uninitialised => databaseFormat
  | .corrupted | .outdated => return .strgCorrupt
  | .fail => return .strgFail

def findOccupied (phone : List Byte) : DbM (Except StrgRet Nat) := do
  match ← findOccupiedEntry phone with
  | none => return .error .strgEmpty
  | some slot => return .ok slot

def databaseContactAdd (name phone : Option CString) : DbM StrgRet := do
  match validStr name maxNameLen, validPhone phone with
  | some name, some phone =>
      let contact := createContact name phone
      let (ret, slot) ← hashInsertContact contact
      if ret ≠ .strgOk then
        return ret
      let ret ← sortedArrayInsert contact slot
      if ret ≠ .strgOk then
        -- keep hash table and name index consistent
        let _ ← hashRemoveContact phone
      return ret
  | _, _ => return .strgFail

/-- In the calls with output pointers, `out` tells whether these are non-null. -/
def databaseContactGet (phone : Option CString) (out : Bool) :
    DbM (Except StrgRet Contact) := do
  match out, validPhone phone with
  | true, some phone =>
      match ← findOccupied phone with
      | .error ret => return .error ret
      | .ok slot => readContact ((← get).htable.htable slot).sector
  | _, _ => return .error .strgFail

/-- The update of a contact found at `oldSlot` with the record `old`. -/
def updateFoundContact (oldSlot : Nat) (old : Contact) (newName newPhone : List Byte) :
    DbM StrgRet := do
  let new := createContact newName newPhone
  -- name index compares against the stored contact, so remove before it changes
  let ret ← sortedArrayRemove old
  if ret ≠ .strgOk then
    return ret
  let ret ← hashUpdateContact old new
  if ret ≠ .strgOk then
    let _ ← sortedArrayInsert old oldSlot
    return ret
  -- a phone change moves the contact to a new hash slot
  match ← findOccupied newPhone with
  | .error _ => return .strgFail
  | .ok newSlot =>
      let _ ← modifyChatOrder fun order => chatOrderReplace order oldSlot newSlot
      sortedArrayInsert new newSlot

def databaseContactUpdate (phone newName newPhone : Option CString) : DbM StrgRet := do
  match validPhone phone, validStr newName maxNameLen, validPhone newPhone with
  | some phone, some newName, some newPhone =>
      match ← findOccupied phone with
      | .error ret => return ret
      | .ok oldSlot =>
          match ← readContact ((← get).htable.htable oldSlot).sector with
          | .error ret => return ret
          | .ok old => updateFoundContact oldSlot old newName newPhone
  | _, _, _ => return .strgFail

/-- The removal of a contact found at `slot` with the record `contact`. -/
def removeFoundContact (slot : Nat) (contact : Contact) (phone : List Byte) : DbM StrgRet := do
  -- remove from name index while the contact is still readable
  let ret ← sortedArrayRemove contact
  if ret ≠ .strgOk then
    return ret
  if !(← hashRemove phone) then
    let _ ← sortedArrayInsert contact slot
    return .strgFail
  let _ ← modifyChatOrder fun order => chatOrderRemove order slot
  return .strgOk

def databaseContactRemove (phone : Option CString) : DbM StrgRet := do
  match validPhone phone with
  | none => return .strgFail
  | some phone =>
      match ← findOccupied phone with
      | .error ret => return ret
      | .ok slot =>
          match ← readContact ((← get).htable.htable slot).sector with
          | .error ret => return ret
          | .ok contact => removeFoundContact slot contact phone

/-- The loop of `database_contact_list` from one rank on. -/
def listContacts : Nat → Nat → List Contact → DbM (StrgRet × List Contact)
  | 0, _, read => return (.strgOk, read)
  | count + 1, rank, read => do
      match (← get).nameIndex.mem[rank]? with
      | none => return (.strgOk, read)
      | some entry =>
          match ← readContact ((← get).htable.htable entry.hashSlot).sector with
          | .error ret => return (ret, read)
          | .ok contact => listContacts count (rank + 1) (read ++ [contact])

def databaseContactList (start n : Nat) (out : Bool) : DbM (StrgRet × List Contact) := do
  if !out then
    return (.strgFail, [])
  if (← get).nameIndex.mem.length ≤ start then
    return (.strgEmpty, [])
  listContacts n start []

def databaseContactSeek (text : Option CString) (out : Bool) : DbM (Except StrgRet Nat) := do
  match out, validStr text maxNameLen with
  | true, some text => sortedArraySeek text
  | _, _ => return .error .strgFail

def databaseContactCount : DbM Nat := do
  return hashSize (← get).htable

/-- What follows the insertion of a message into the chat at `slot`. -/
def recordMessage (slot : Nat) (isNewContact : Bool) (phone : List Byte) (message : Message) :
    DbM StrgRet := do
  -- the unnamed contact that was created must be in the name index too
  let indexed ← if isNewContact then sortedArrayInsert (createContact [] phone) slot
    else pure .strgOk
  if indexed ≠ .strgOk then
    return indexed
  let ret ← modifyChatOrder fun order => chatOrderTouch order slot
  if ret ≠ .strgOk then
    return ret
  let latest := ((← get).htable.htable slot).latestMsgExtent
  messageHistoryAdd ⟨BitVec.ofNat 16 latest, message⟩

def databaseMessageAdd (phone : Option CString) (timestamp : BitVec 32) (direction : Bool)
    (str : Option CString) : DbM StrgRet := do
  match validPhone phone, str with
  | some phone, some str =>
      if timestamp = 0#32 then
        return .strgFail
      let isNewContact ← match ← findOccupied phone with
        | .error _ => pure true
        | .ok _ => pure false
      let message := createMessage timestamp direction str.val
      if !(← hashInsertMessage phone message) then
        return .strgFail
      match ← findOccupied phone with
      | .error _ => return .strgFail
      | .ok slot => recordMessage slot isNewContact phone message
  | _, _ => return .strgFail

def databaseMessageGetChat (phone : Option CString) (start n : Nat) (out : Bool) :
    DbM (StrgRet × List Message) := do
  match out, validPhone phone with
  | true, some phone =>
      match ← findOccupied phone with
      | .error ret => return (ret, [])
      | .ok slot =>
          let latest := ((← get).htable.htable slot).latestMsgExtent
          if latest = uint16Max then
            return (.strgEmpty, [])
          readNMessages latest start n
  | _, _ => return (.strgFail, [])

def databaseMessageRemoveChat (phone : Option CString) : DbM StrgRet := do
  match validPhone phone with
  | none => return .strgFail
  | some phone =>
      match ← findOccupied phone with
      | .error ret => return ret
      | .ok slot =>
          if ((← get).htable.htable slot).latestMsgExtent = uint16Max then
            return .strgEmpty
          if !(← hashRemoveMessage phone) then
            return .strgFail
          let _ ← modifyChatOrder fun order => chatOrderRemove order slot
          return .strgOk

def databaseMessageRecent (start n : Nat) (out : Bool) :
    DbM (StrgRet × List MessageHistoryEntry) := do
  if !out then
    return (.strgFail, [])
  messageHistoryGetRange start n

structure ChatSummary where
  contact : Contact
  latest : Message
  deriving DecidableEq

/-- The loop of `database_chat_list` from one rank on. -/
def listChats : Nat → Nat → List ChatSummary → DbM (StrgRet × List ChatSummary)
  | 0, _, read => return (.strgOk, read)
  | count + 1, rank, read => do
      match (← get).chatOrder.mem[rank]? with
      | none => return (.strgOk, read)
      | some slot =>
          let entry := (← get).htable.htable slot
          match ← readContact entry.sector with
          | .error ret => return (ret, read)
          | .ok contact =>
              match ← readNMessages entry.latestMsgExtent 0 1 with
              | (.strgOk, latest) =>
                  listChats count (rank + 1) (read ++ [⟨contact, latest.headD .zero⟩])
              | (ret, _) => return (ret, read)

def databaseChatList (start n : Nat) (out : Bool) : DbM (StrgRet × List ChatSummary) := do
  if !out then
    return (.strgFail, [])
  if (← get).chatOrder.mem.length ≤ start then
    return (.strgEmpty, [])
  listChats n start []

def databaseChatCount : DbM Nat := do
  return (← get).chatOrder.mem.length

def databaseCallAdd (phone : Option CString) : DbM StrgRet := do
  match validPhone phone with
  | none => return .strgFail
  | some phone =>
      match ← findOccupied phone with
      | .ok slot =>
          let sector := ((← get).htable.htable slot).sector
          match ← readContact sector with
          | .error ret => return ret
          | .ok contact => callHistoryAdd ⟨BitVec.ofNat 16 sector, contact, 0#8⟩
      | .error _ =>
          -- unknown caller
          callHistoryAdd ⟨BitVec.ofNat 16 uint16Max, createContact [] phone, 0#8⟩

def databaseCallRecent (start n : Nat) (out : Bool) :
    DbM (StrgRet × List CallHistoryEntry) := do
  if !out then
    return (.strgFail, [])
  callHistoryGetRange start n

/-- The calls of `database.h` on a mounted database, with their arguments. -/
inductive Call where
  | contactAdd (name phone : Option CString)
  | contactGet (phone : Option CString) (out : Bool)
  | contactUpdate (phone newName newPhone : Option CString)
  | contactRemove (phone : Option CString)
  | contactList (start n : Nat) (out : Bool)
  | contactSeek (text : Option CString) (out : Bool)
  | contactCount
  | messageAdd (phone : Option CString) (timestamp : BitVec 32) (direction : Bool)
      (str : Option CString)
  | messageGetChat (phone : Option CString) (start n : Nat) (out : Bool)
  | messageRemoveChat (phone : Option CString)
  | messageRecent (start n : Nat) (out : Bool)
  | chatList (start n : Nat) (out : Bool)
  | chatCount
  | callAdd (phone : Option CString)
  | callRecent (start n : Nat) (out : Bool)

/-- What a call returns and writes to its output pointers. -/
inductive Reply where
  | status (ret : StrgRet)
  | contact (result : Except StrgRet Contact)
  | contacts (ret : StrgRet) (read : List Contact)
  | rank (result : Except StrgRet Nat)
  | count (value : Nat)
  | messages (ret : StrgRet) (read : List Message)
  | recent (ret : StrgRet) (read : List MessageHistoryEntry)
  | chats (ret : StrgRet) (read : List ChatSummary)
  | calls (ret : StrgRet) (read : List CallHistoryEntry)

def Call.run : Call → DbM Reply
  | .contactAdd name phone => return .status (← databaseContactAdd name phone)
  | .contactGet phone out => return .contact (← databaseContactGet phone out)
  | .contactUpdate phone newName newPhone =>
      return .status (← databaseContactUpdate phone newName newPhone)
  | .contactRemove phone => return .status (← databaseContactRemove phone)
  | .contactList start n out => do
      let (ret, read) ← databaseContactList start n out
      return .contacts ret read
  | .contactSeek text out => return .rank (← databaseContactSeek text out)
  | .contactCount => return .count (← databaseContactCount)
  | .messageAdd phone timestamp direction str =>
      return .status (← databaseMessageAdd phone timestamp direction str)
  | .messageGetChat phone start n out => do
      let (ret, read) ← databaseMessageGetChat phone start n out
      return .messages ret read
  | .messageRemoveChat phone => return .status (← databaseMessageRemoveChat phone)
  | .messageRecent start n out => do
      let (ret, read) ← databaseMessageRecent start n out
      return .recent ret read
  | .chatList start n out => do
      let (ret, read) ← databaseChatList start n out
      return .chats ret read
  | .chatCount => return .count (← databaseChatCount)
  | .callAdd phone => return .status (← databaseCallAdd phone)
  | .callRecent start n out => do
      let (ret, read) ← databaseCallRecent start n out
      return .calls ret read

end SdDatabase
