import SdDatabase.Journal
import SdDatabase.FreeListStack

/-!
# Contact records

`contact.c`: contacts are addressed by slot, six to a sector. A slot is in use
when the usage bit of its sector and its bit in the sector's header are set.
-/

namespace SdDatabase

open Bytes Device

set_option autoImplicit false

def readContactSector (index : Nat) : DbM (Except StrgRet Sector) :=
  readSector (u16 (index + contactDataStartSector + dataRegionStartSector))

def writeContactSector (index : Nat) (content : ContactSector) : DbM StrgRet :=
  writeSector (u16 (index + contactDataStartSector + dataRegionStartSector)) (toSector content)

/-- The bit of a slot in the header of its sector. -/
def slotUsed (sector : ContactSector) (position : Nat) : Bool :=
  sector.usedBitmap &&& (1#8 <<< position) != 0#8

/-- The sector a contact is written into: the stored one when its usage bit is
set, else a blank one. -/
def contactSectorForWrite (index : Nat) : DbM (Except StrgRet Sector) := do
  if ← checkUsageBit (index / contactSectorCapacity) then
    readContactSector (index / contactSectorCapacity)
  else return .ok (toSector ContactSector.zero)

def writeContact (index : Nat) (record : Contact) : DbM StrgRet := do
  match ← contactSectorForWrite index with
  | .error _ => return .strgFail
  | .ok content =>
      if !(← journalAdd .contact (contactDataSector index) content) then
        return .strgFail
      if (← updateUsageBit (index / contactSectorCapacity) true) = .strgFail then
        return .strgFail
      let position := index % contactSectorCapacity
      let cSector : ContactSector := ofSector content
      let updated :=
        { cSector with
          usedBitmap := cSector.usedBitmap ||| (1#8 <<< position)
          contacts := arraySet cSector.contacts position record }
      if (← writeContactSector (index / contactSectorCapacity) updated) = .strgFail then
        return .strgFail
      if (← journalFree) = .strgFail then
        return .strgFail
      -- the source commits a second time
      if (← journalFree) = .strgFail then
        return .strgFail
      return .strgOk

def readContact (index : Nat) : DbM (Except StrgRet Contact) := do
  if !(← checkUsageBit (index / contactSectorCapacity)) then
    return .error .strgEmpty
  match ← readContactSector (index / contactSectorCapacity) with
  | .error ret => return .error ret
  | .ok content =>
      let position := index % contactSectorCapacity
      let cSector : ContactSector := ofSector content
      if !slotUsed cSector position then
        return .error .strgEmpty
      return .ok (arrayGet cSector.contacts position .zero)

/-- The write of `remove_contact`: the usage bit when the sector became empty,
else the sector without the slot. -/
def removeContactSlot (index : Nat) (updated : ContactSector) : DbM StrgRet :=
  if updated.usedBitmap = 0#8 then updateUsageBit (index / contactSectorCapacity) false
  else writeContactSector (index / contactSectorCapacity) updated

/-- `remove_contact`, with the removed record when it succeeds. -/
def removeContact (index : Nat) : DbM (Option Contact) := do
  if !(← checkUsageBit (index / contactSectorCapacity)) then
    return none
  match ← readContactSector (index / contactSectorCapacity) with
  | .error _ => return none
  | .ok content =>
      if !(← journalAdd .contact (contactDataSector index) content) then
        return none
      let position := index % contactSectorCapacity
      let cSector : ContactSector := ofSector content
      if !slotUsed cSector position then
        return none
      let updated :=
        { cSector with usedBitmap := cSector.usedBitmap &&& ~~~(1#8 <<< position) }
      if (← removeContactSlot index updated) = .strgFail then
        return none
      if (← journalFree) = .strgFail then
        return none
      modify fun db => { db with contactAllocator := freeListFree db.contactAllocator index }
      return some (arrayGet cSector.contacts position .zero)

/-- `create_contact`; strings that are too long give the zero record. -/
def createContact (name phone : List Byte) : Contact :=
  if maxNameLen < name.length ∨ maxPhoneLen < phone.length then .zero
  else
    { nameLen := BitVec.ofNat 8 name.length
      name := padded 64 name
      phoneLen := BitVec.ofNat 8 phone.length
      phone := padded 15 phone }

end SdDatabase
