import SdDatabase.RingBuffer
import SdDatabase.Journal

/-!
# Message and call history

`message_history.c` and `call_history.c` are the same code over two entry types,
each with its own ring buffer. The shared functions take what differs as a
`HistoryLayout`; the functions of the source are their two instances.
-/

namespace SdDatabase

open Bytes Device

set_option autoImplicit false

/-- What distinguishes the two histories. -/
structure HistoryLayout (E : Type) where
  capacity : Nat
  spare : Nat
  record : SectorRecord (RingSector E capacity spare)
  blank : E
  type : JrnlType
  dataStart : Nat
  ring : Database → RingBuffer
  setRing : RingBuffer → Database → Database

variable {E : Type} (layout : HistoryLayout E)

instance : SectorRecord (RingSector E layout.capacity layout.spare) := layout.record

def readHistorySector (sectorIndex : Nat) : DbM (Except StrgRet Sector) :=
  readSector (u16 (sectorIndex + layout.dataStart + dataRegionStartSector))

def writeHistorySector (sectorIndex : Nat) (sector : RingSector E layout.capacity layout.spare) :
    DbM StrgRet :=
  writeSector (u16 (sectorIndex + layout.dataStart + dataRegionStartSector)) (toSector sector)

/-- What an add does with the current sector: write the entry at a position of
the sector with a new header, mark the sector full and move on, or give up. -/
inductive HistoryStep where
  | store (header : RingBufferHeader)
  | moveNext
  | invalid

/-- The `switch` on the sector state. -/
def historyStep (capacity : Nat) (rb : RingBuffer) (header : RingBufferHeader) : HistoryStep :=
  if header.state = rbEmpty ∨ header.state = rbFull then
    .store { header with state := rbOccupied, head := 0#8, seq := rb.seq }
  else if header.state = rbOccupied then
    if header.head.toNat = capacity - 1 then .moveNext
    else .store { header with head := header.head + 1#8 }
  else .invalid

def modifyRing (step : RingBuffer → RingBuffer) : DbM PUnit :=
  modify fun db => layout.setRing (step (layout.ring db)) db

/-- The first entry makes one sector of the ring occupied. -/
def openRing : DbM PUnit := do
  if (layout.ring (← get)).occupancy = 0 then
    modifyRing layout addRingBuffer

def commitHistory (sector : RingSector E layout.capacity layout.spare) : DbM StrgRet := do
  let ret ← writeHistorySector layout (layout.ring (← get)).currentIndex sector
  if ret ≠ .strgOk then
    return ret
  journalFree

/-- The add function with its helper `set_sector_full_move_next`, which calls it
again on the next sector. Every such call has just marked a sector full, so the
calls end after one round through the ring. -/
def historyAddLoop (entry : E) : Nat → DbM StrgRet
  | 0 => return .strgFail
  | fuel + 1 => do
      openRing layout
      let rb := layout.ring (← get)
      match ← readHistorySector layout rb.currentIndex with
      | .error ret => return ret
      | .ok content =>
          if !(← journalAdd layout.type (layout.dataStart + rb.currentIndex) content) then
            return .strgFail
          let sector : RingSector E layout.capacity layout.spare := ofSector content
          match historyStep layout.capacity rb sector.header with
          | .invalid => return .strgFail
          | .store header =>
              commitHistory layout
                { sector with
                  header := header
                  entries := arraySet sector.entries header.head.toNat entry }
          | .moveNext =>
              let ret ← commitHistory layout
                { sector with header := { sector.header with state := rbFull } }
              if ret ≠ .strgOk then
                return ret
              modifyRing layout addRingBuffer
              modifyRing layout moveNextRingBuffer
              modifyRing layout incSeqRingBuffer
              historyAddLoop entry fuel

def historyAdd (entry : E) : DbM StrgRet := do
  historyAddLoop layout entry ((layout.ring (← get)).size + 2)

/-- Copy the entries in slots `count - 1, ..., 0` until `n` are read. -/
def copyEntries (n : Nat) (sector : RingSector E layout.capacity layout.spare) :
    Nat → List E → List E
  | 0, read => read
  | slot + 1, read =>
      if read.length < n then
        copyEntries n sector slot (read ++ [arrayGet sector.entries slot layout.blank])
      else read

/-- `read_message_history` and `read_call_history`. -/
def readHistory (sectorIndex pos n : Nat) (read : List E) : DbM (StrgRet × List E) := do
  match ← readHistorySector layout sectorIndex with
  | .error ret => return (ret, read)
  | .ok content =>
      let sector : RingSector E layout.capacity layout.spare := ofSector content
      if sector.header.state = rbEmpty then
        return (.strgOk, read)
      return (.strgOk, copyEntries layout n sector (pos + 1) read)

/-- The loop over the older sectors; `sectorsLeft` of them are still unread. -/
def readOlderHistory (occupancy n : Nat) : Nat → Nat → List E → DbM (StrgRet × List E)
  | 0, _, read => return (.strgOk, read)
  | sectorsLeft + 1, index, read => do
      if n ≤ read.length then
        return (.strgOk, read)
      match ← readHistory layout index (layout.capacity - 1) n read with
      | (.strgOk, longer) =>
          readOlderHistory occupancy n sectorsLeft (ringIteratorPrev occupancy index) longer
      | failed => return failed

/-- A value stored in a C `int`. Where the arithmetic on one overflows, which C
leaves undefined, it wraps here. -/
def cInt (value : Int) : Int := value.bmod (2 ^ 32)

/-- Where a range starts: sectors to skip and position in the first one. -/
def historyStart (capacity : Nat) (header : RingBufferHeader) (start : Nat) : Int × Nat :=
  let current := header.head.toNat + 1
  if start < current then (0, header.head.toNat - start)
  else
    let rem := start - current
    (cInt ((1 + rem / capacity : Nat) : Int), capacity - 1 - rem % capacity)

/-- `start_rb_index`, as it ends up in the `uint16_t` of the iterator. -/
def startRbIndex (rb : RingBuffer) (skipped : Int) : Nat :=
  let index := cInt (rb.currentIndex - skipped)
  ((if index < 0 then cInt (rb.occupancy + index) else index) % 65536).toNat

/-- `message_history_get_range` and `call_history_get_range`. -/
def historyGetRange (start n : Nat) : DbM (StrgRet × List E) := do
  let rb := layout.ring (← get)
  match ← readHistorySector layout rb.currentIndex with
  | .error ret => return (ret, [])
  | .ok content =>
      let sector : RingSector E layout.capacity layout.spare := ofSector content
      if sector.header.state = rbEmpty then
        return (.strgOk, [])
      let (skipped, startHead) := historyStart layout.capacity sector.header start
      if (rb.occupancy : Int) ≤ skipped then
        return (.strgFail, [])
      let startIndex := startRbIndex rb skipped
      if rb.occupancy - 1 < startIndex then
        return (.strgFail, [])
      match ← readHistory layout startIndex (startHead % 256) n [] with
      | (.strgOk, read) =>
          readOlderHistory layout rb.occupancy n ((cInt (rb.occupancy - skipped)).toNat - 1)
            (ringIteratorPrev rb.occupancy startIndex) read
      | failed => return failed

def messageHistoryLayout : HistoryLayout MessageHistoryEntry where
  capacity := 2
  spare := 164
  record := inferInstance
  blank := ⟨0#16, .zero⟩
  type := .msgHist
  dataStart := messageHistoryDataStartSector
  ring db := db.messageHistory
  setRing rb db := { db with messageHistory := rb }

def callHistoryLayout : HistoryLayout CallHistoryEntry where
  capacity := 5
  spare := 80
  record := inferInstance
  blank := ⟨0#16, .zero, 0#8⟩
  type := .callHist
  dataStart := callHistoryDataStartSector
  ring db := db.callHistory
  setRing rb db := { db with callHistory := rb }

def messageHistoryAdd (entry : MessageHistoryEntry) : DbM StrgRet :=
  historyAdd messageHistoryLayout entry

def messageHistoryGetRange (start n : Nat) : DbM (StrgRet × List MessageHistoryEntry) :=
  historyGetRange messageHistoryLayout start n

def callHistoryAdd (entry : CallHistoryEntry) : DbM StrgRet :=
  historyAdd callHistoryLayout entry

def callHistoryGetRange (start n : Nat) : DbM (StrgRet × List CallHistoryEntry) :=
  historyGetRange callHistoryLayout start n

end SdDatabase
