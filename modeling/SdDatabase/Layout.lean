import Mathlib.Data.Nat.Basic

/-!
# Card layout

The constants and address macros of `mem_layout.h`. Three index spaces exist:
record indices (contact slots and message sectors), data sectors counted from
the start of the data region, and raw card sectors. Macros are evaluated in the
wide C types, so they are plain natural numbers; the conversion to `uint16_t`
at a function's parameter is written `u16`.
-/

namespace SdDatabase

set_option autoImplicit false

/-- Conversion to `uint16_t`. -/
def u16 (value : Nat) : Nat := value % 65536

@[simp] theorem u16_of_lt {value : Nat} (bound : value < 65536) : u16 value = value :=
  Nat.mod_eq_of_lt bound

theorem u16_lt (value : Nat) : u16 value < 65536 := Nat.mod_lt _ (by decide)

/-- `UINT16_MAX`, which also stands for no index at all. -/
@[simp] def uint16Max : Nat := 65535

@[simp] def sectorSize : Nat := 512
@[simp] def sectorCrcBytes : Nat := 4
@[simp] def sectorPayloadBytes : Nat := sectorSize - sectorCrcBytes

@[simp] def hashTableSize : Nat := 14293
@[simp] def hashTableEntries : Nat := 10000
@[simp] def sortedArrayEntries : Nat := hashTableEntries
@[simp] def chatOrderEntries : Nat := hashTableEntries

@[simp] def maxNameLen : Nat := 64
@[simp] def maxPhoneLen : Nat := 15
@[simp] def contactRecordBytes : Nat := 81
@[simp] def contactSectorHeaderBytes : Nat := 1

/-- Records that fit in a sector after the type tag, the header and the trailer. -/
@[simp] def contactSectorCapacity : Nat :=
  (sectorPayloadBytes - contactSectorHeaderBytes - 1) / contactRecordBytes

@[simp] def contactMemorySectorSize : Nat :=
  (hashTableEntries + contactSectorCapacity - 1) / contactSectorCapacity

@[simp] def totalContactSectorSize : Nat := contactMemorySectorSize

@[simp] def smsMaxMessageLength : Nat := 160
@[simp] def messageBytes : Nat := 166
@[simp] def messageSectorHeaderBytes : Nat := 8

@[simp] def messageSectorCapacity : Nat :=
  (sectorPayloadBytes - messageSectorHeaderBytes) / messageBytes

@[simp] def totalMessageSectorSize : Nat := hashTableSize * 2

@[simp] def ringBufferHeaderBytes : Nat := 8
@[simp] def ringBufferPayloadBytes : Nat := sectorPayloadBytes - ringBufferHeaderBytes

@[simp] def messageHistoryEntryBytes : Nat := messageBytes + 2

@[simp] def messageHistorySectorCapacity : Nat :=
  ringBufferPayloadBytes / messageHistoryEntryBytes

@[simp] def totalMessageHistorySectorSize : Nat :=
  (hashTableEntries + messageHistorySectorCapacity - 1) / messageHistorySectorCapacity

@[simp] def callHistoryEntryBytes : Nat := 84

@[simp] def callHistorySectorCapacity : Nat := ringBufferPayloadBytes / callHistoryEntryBytes

@[simp] def totalCallHistorySectorSize : Nat := 5000

@[simp] def totalDataSectorSize : Nat := totalContactSectorSize + totalMessageSectorSize

@[simp] def superheaderSector : Nat := 0
@[simp] def superheaderSectorSize : Nat := 1

@[simp] def jrnlHeaderSector : Nat := superheaderSector + superheaderSectorSize
@[simp] def jrnlContentSector : Nat := jrnlHeaderSector + 1
@[simp] def jrnlUsageSector : Nat := jrnlHeaderSector + 2
@[simp] def jrnlSectorSize : Nat := 3

@[simp] def usageBitmapStartSector : Nat := jrnlHeaderSector + jrnlSectorSize
@[simp] def bitsPerElement : Nat := 32
@[simp] def bytesPerElement : Nat := 4
@[simp] def elementsPerSector : Nat := sectorSize / bytesPerElement

/-- The last word of every bitmap sector is its checksum trailer. -/
@[simp] def usageWordsPerSector : Nat := elementsPerSector - sectorCrcBytes / bytesPerElement
@[simp] def usageBitsPerSector : Nat := usageWordsPerSector * bitsPerElement

@[simp] def usageBitmapSectorSize : Nat :=
  (totalDataSectorSize + usageBitsPerSector - 1) / usageBitsPerSector

/-- Words of the bitmap in memory, checksum trailers included. -/
@[simp] def usageBitmapStorageSize : Nat := usageBitmapSectorSize * elementsPerSector

@[simp] def usageBitmapTotalBits : Nat := usageBitmapSectorSize * usageBitsPerSector

@[simp] def usageBitmapFindSector (dataSector : Nat) : Nat := dataSector / usageBitsPerSector

@[simp] def usageBitmapFindElement (dataSector : Nat) : Nat :=
  dataSector % usageBitsPerSector / bitsPerElement

@[simp] def usageBitmapFindIndex (dataSector : Nat) : Nat :=
  usageBitmapFindSector dataSector * elementsPerSector + usageBitmapFindElement dataSector

@[simp] def usageBitmapFindBit (dataSector : Nat) : Nat := dataSector % bitsPerElement

@[simp] def usageBitmapWordToIndex (word : Nat) : Nat :=
  word / elementsPerSector * usageBitsPerSector + word % elementsPerSector * bitsPerElement

@[simp] def usageBitmapIsCrcWord (word : Nat) : Bool :=
  decide (usageWordsPerSector ≤ word % elementsPerSector)

@[simp] def dataRegionStartSector : Nat := usageBitmapStartSector + usageBitmapSectorSize

@[simp] def contactDataStartSector : Nat := 0
@[simp] def messageDataStartSector : Nat := contactDataStartSector + totalContactSectorSize

@[simp] def messageHistoryDataStartSector : Nat :=
  messageDataStartSector + totalMessageSectorSize

@[simp] def callHistoryDataStartSector : Nat :=
  messageHistoryDataStartSector + totalMessageHistorySectorSize

@[simp] def contactDataSector (slot : Nat) : Nat :=
  contactDataStartSector + slot / contactSectorCapacity

@[simp] def messageDataSector (index : Nat) : Nat := messageDataStartSector + index
@[simp] def dataSectorToRaw (dataSector : Nat) : Nat := dataRegionStartSector + dataSector

example : contactSectorCapacity = 6 ∧ messageSectorCapacity = 3 ∧
    messageHistorySectorCapacity = 2 ∧ callHistorySectorCapacity = 5 ∧
    usageBitmapSectorSize = 8 ∧ dataRegionStartSector = 12 := by decide

end SdDatabase
