import SdDatabase.Journal
import SdDatabase.FreeListStack

/-!
# Message chats

`message.c`: a chat is a chain of message sectors linked from the newest to the
oldest by `prev` and back by `next`. Messages are appended to the newest sector
until it is full; removal frees the sectors one by one from the newest.
-/

namespace SdDatabase

open Bytes Device

set_option autoImplicit false

def readMessageSector (index : Nat) : DbM (Except StrgRet Sector) :=
  readSector (dataSectorToRaw (messageDataSector index))

def writeMessageSector (index : Nat) (content : MessageSector) : DbM StrgRet :=
  writeSector (dataSectorToRaw (messageDataSector index)) (toSector content)

/-- Put a message behind the ones already in the sector. -/
def MessageSector.push (sector : MessageSector) (message : Message) : MessageSector :=
  { sector with
    header := { sector.header with msgCount := sector.header.msgCount + 1#16 }
    messages := arraySet sector.messages sector.header.msgCount.toNat message }

/-- The common tail of the three message writers: set the usage bit of a
journalled sector, write it with the new message and commit. -/
def commitMessage (index : Nat) (sector : MessageSector) (message : Message) : DbM StrgRet := do
  if (← updateUsageBit (messageDataSector index) true) = .strgFail then
    return .strgFail
  if (← writeMessageSector index (sector.push message)) = .strgFail then
    return .strgFail
  if (← journalFree) = .strgFail then
    return .strgFail
  return .strgOk

def writeMessage (index : Nat) (message : Message) : DbM StrgRet := do
  if !(← checkUsageBit (messageDataSector index)) then
    return .strgEmpty
  match ← readMessageSector index with
  | .error ret => return ret
  | .ok content =>
      let mSector : MessageSector := ofSector content
      if messageSectorCapacity ≤ mSector.header.msgCount.toNat then
        return .strgFull
      if !(← journalAdd .message (messageDataSector index) content) then
        return .strgFail
      commitMessage index mSector message

def createNewMessageSector (contactIndex prev : Nat) : MessageSector where
  header :=
    { next := BitVec.ofNat 16 uint16Max
      prev := BitVec.ofNat 16 prev
      msgCount := 0#16
      contactIndex := BitVec.ofNat 16 contactIndex }
  messages := fun _ => .zero
  padding := zeros 2

def writeNewMessageSector (contactIndex index : Nat) (message : Message) : DbM StrgRet := do
  if ← checkUsageBit (messageDataSector index) then
    return .strgFull
  let mSector := createNewMessageSector contactIndex uint16Max
  if !(← journalAdd .message (messageDataSector index) (toSector mSector)) then
    return .strgFail
  commitMessage index mSector message

def pointMessageSectorToNext (next prev : Nat) : DbM StrgRet := do
  match ← readMessageSector prev with
  | .error _ => return .strgFail
  | .ok content =>
      if !(← journalAdd .message (messageDataSector prev) content) then
        return .strgFail
      let mSector : MessageSector := ofSector content
      let updated :=
        { mSector with header := { mSector.header with next := BitVec.ofNat 16 next } }
      if (← writeMessageSector prev updated) = .strgFail then
        return .strgFail
      if (← journalFree) = .strgFail then
        return .strgFail
      return .strgOk

def writeNextMessageSector (contactIndex prev next : Nat) (message : Message) :
    DbM StrgRet := do
  if ← checkUsageBit (messageDataSector next) then
    return .strgFull
  if !(← checkUsageBit (messageDataSector prev)) then
    return .strgEmpty
  let mSector := createNewMessageSector contactIndex prev
  if !(← journalAdd .message (messageDataSector next) (toSector mSector)) then
    return .strgFail
  let ret ← commitMessage next mSector message
  if ret ≠ .strgOk then
    return ret
  pointMessageSectorToNext next prev

/-- `read_message`: position 0 is the newest message of the sector. -/
def readMessage (index pos : Nat) : DbM (Except StrgRet Message) := do
  if messageSectorCapacity < pos then
    return .error .strgFail
  if !(← checkUsageBit (messageDataSector index)) then
    return .error .strgEmpty
  match ← readMessageSector index with
  | .error ret => return .error ret
  | .ok content =>
      let mSector : MessageSector := ofSector content
      let msgCount := mSector.header.msgCount.toNat
      if messageSectorCapacity < msgCount then
        return .error .strgFail
      if msgCount ≤ pos then
        return .error .strgFail
      return .ok (arrayGet mSector.messages (msgCount - pos - 1) .zero)

/-- The sector reached by `find_message_n_index`, with the hops still allowed
and the position to start reading from. -/
structure MessagePosition where
  hopsLeft : Nat
  startOffset : Nat
  mSector : MessageSector

/-- The loop of `find_message_n_index`; `hopsLeft` counts down from the number
of message sectors. -/
def findMessageNIndex (startMsg : Nat) :
    Nat → Nat → Nat → DbM (Except StrgRet MessagePosition)
  | 0, _, _ => return .error .strgFail
  | hopsLeft + 1, prevIndex, msgPassed => do
      if prevIndex = uint16Max then
        return .error .strgFail
      if !(← checkUsageBit (messageDataSector prevIndex)) then
        return .error .strgEmpty
      match ← readMessageSector prevIndex with
      | .error ret => return .error ret
      | .ok content =>
          let mSector : MessageSector := ofSector content
          let passed := msgPassed + mSector.header.msgCount.toNat
          if passed ≤ startMsg then
            findMessageNIndex startMsg hopsLeft mSector.header.prev.toNat passed
          else
            return .ok ⟨hopsLeft, (passed - 1 - startMsg) % 256, mSector⟩

/-- Copy the messages in slots `count - 1, ..., 0` until `n` are read. -/
def copyMessages (n : Nat) (mSector : MessageSector) : Nat → List Message → List Message
  | 0, read => read
  | slot + 1, read =>
      if read.length < n then
        copyMessages n mSector slot (read ++ [arrayGet mSector.messages slot .zero])
      else read

def readMessagesFromPInSector (n p : Nat) (mSector : MessageSector) (read : List Message) :
    Option (List Message) :=
  let msgCount := mSector.header.msgCount.toNat
  if msgCount ≤ p ∨ messageSectorCapacity < msgCount then none
  else some (copyMessages n mSector (p + 1) read)

def readMessagesFromSector (n : Nat) (mSector : MessageSector) (read : List Message) :
    Option (List Message) :=
  let msgCount := mSector.header.msgCount.toNat
  if messageSectorCapacity < msgCount then none
  else some (copyMessages n mSector msgCount read)

/-- The loop of `read_n_messages` over the sectors after the first. -/
def readMessageSectors (n : Nat) :
    Nat → Nat → List Message → DbM (StrgRet × List Message)
  | hopsLeft, prevIndex, read => do
      if n ≤ read.length then
        return (.strgOk, read)
      if prevIndex = uint16Max then
        return (.strgOk, read)
      match hopsLeft with
      | 0 => return (.strgFail, read)
      | hopsLeft + 1 =>
          if !(← checkUsageBit (messageDataSector prevIndex)) then
            return (.strgEmpty, read)
          match ← readMessageSector prevIndex with
          | .error ret => return (ret, read)
          | .ok content =>
              let mSector : MessageSector := ofSector content
              match readMessagesFromSector n mSector read with
              | none => return (.strgFail, read)
              | some longer => readMessageSectors n hopsLeft mSector.header.prev.toNat longer

/-- `read_n_messages`, with the messages written to the output array. -/
def readNMessages (startIndex startMsg n : Nat) : DbM (StrgRet × List Message) := do
  if n = 0 then
    return (.strgOk, [])
  if startIndex = uint16Max then
    return (.strgOk, [])
  match ← findMessageNIndex startMsg totalMessageSectorSize startIndex 0 with
  | .error ret => return (ret, [])
  | .ok found =>
      match readMessagesFromPInSector n found.startOffset found.mSector [] with
      | none => return (.strgFail, [])
      | some read =>
          readMessageSectors n found.hopsLeft found.mSector.header.prev.toNat read

/-- `remove_message_sector`, with the removed sector when it succeeds. -/
def removeMessageSector (index : Nat) : DbM (Except StrgRet MessageSector) := do
  if !(← checkUsageBit (messageDataSector index)) then
    return .error .strgEmpty
  match ← readMessageSector index with
  | .error ret => return .error ret
  | .ok content =>
      if !(← journalAdd .message (messageDataSector index) content) then
        return .error .strgFail
      let cleared ← updateUsageBit (messageDataSector index) false
      if cleared ≠ .strgOk then
        return .error cleared
      let freed ← journalFree
      if freed ≠ .strgOk then
        return .error freed
      modify fun db => { db with messageAllocator := freeListFree db.messageAllocator index }
      return .ok (ofSector content)

/-- The loop of `remove_message_chat`. Every round clears a usage bit that was
set, so one round more than there are 16-bit indices is never reached. -/
def removeMessageChatLoop : Nat → Nat → DbM Bool
  | 0, _ => return false
  | fuel + 1, curIndex => do
      if curIndex = uint16Max then
        return true
      match ← removeMessageSector curIndex with
      | .error _ => return false
      | .ok mSector => removeMessageChatLoop fuel mSector.header.prev.toNat

def removeMessageChat (startIndex : Nat) : DbM Bool :=
  removeMessageChatLoop 65537 startIndex

def removeMessageBit (index : Nat) : DbM StrgRet := do
  if !(← journalAdd .remove (messageDataSector index) nullContent) then
    return .strgFail
  let cleared ← updateUsageBit (messageDataSector index) false
  if cleared ≠ .strgOk then
    return cleared
  journalFree

/-- The loop of `remove_orphaned_message_chat`; `jumpsLeft` counts down from
the number of message sectors plus one. -/
def removeOrphanedFrom (startIndex : Nat) : Nat → Nat → DbM StrgRet
  | 0, _ => return .strgFail
  | jumpsLeft + 1, curr => do
      if curr = uint16Max then
        return .strgOk
      if !(← checkUsageBit (messageDataSector curr)) then
        return .strgEmpty
      match ← readMessageSector curr with
      | .error ret => return ret
      | .ok content =>
          let ret ← removeMessageBit curr
          if ret ≠ .strgOk then
            return ret
          -- sectors ahead of the scan are freed by the scan itself
          if curr ≤ startIndex then
            modify fun db => { db with messageAllocator := freeListFree db.messageAllocator curr }
          let mSector : MessageSector := ofSector content
          if jumpsLeft = 0 then
            return .strgFail
          removeOrphanedFrom startIndex jumpsLeft mSector.header.prev.toNat

def removeOrphanedMessageChat (startIndex : Nat) : DbM StrgRet :=
  removeOrphanedFrom startIndex (totalMessageSectorSize + 1) startIndex

/-- `create_message`; a zero timestamp gives the zero record, a long text is cut. -/
def createMessage (timestamp : BitVec 32) (direction : Bool) (text : List Byte) : Message :=
  if timestamp = 0#32 then .zero
  else
    { timestampHi := (timestamp >>> 16).setWidth 16
      timestampLo := timestamp.setWidth 16
      direction := if direction then 1#8 else 0#8
      str := padded 160 (text.take (smsMaxMessageLength - 1))
      padding := 0#8 }

end SdDatabase
