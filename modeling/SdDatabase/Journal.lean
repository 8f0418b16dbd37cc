import SdDatabase.UsageBitmap

/-!
# Rollback journal

`journal.c`: before a sector is changed, its bitmap sector and its content are
copied to the journal and a header naming it is written. The header is marked
committed once the change is complete; an active header found at start-up is
rolled back.
-/

namespace SdDatabase

open Bytes Device

set_option autoImplicit false

inductive JrnlHeadStatus where
  | readError
  | uninitialized
  | corrupted
  | valid
  | rollback
  deriving DecidableEq

def journalWriteSector (journalSection : Nat) (content : Sector) : DbM StrgRet :=
  writeSector journalSection content

def journalHeaderInit : DbM Bool := do
  let header : JournalHeader := ⟨jrnlMagic, jrnlEmpty, 0#8, 0#16, zeros 500⟩
  return (← journalWriteSector jrnlHeaderSector (toSector header)).toBool

/-- The types whose change also touches the usage bitmap. -/
def JrnlType.savesBitmap : JrnlType → Bool
  | .contact | .message | .remove => true
  | .callHist | .msgHist => false

/-- Write a bitmap sector of the array in memory to the journal; the sector is
stamped in place on the way. -/
def journalWriteUsage (sector : Nat) : DbM StrgRet := do
  modify fun db => { db with usageBitmap := stampBitmap db.usageBitmap sector }
  let db ← get
  journalWriteSector jrnlUsageSector (bitmapSector db.usageBitmap sector)

def journalWrite (header : JournalHeader) (type : JrnlType) (content : Sector)
    (usageSector : Option Nat) : DbM StrgRet := do
  let usage ← match usageSector with
    | some sector => journalWriteUsage sector
    | none => pure .strgOk
  if usage ≠ .strgOk then
    return usage
  let saved ← if type = .remove then pure .strgOk
    else journalWriteSector jrnlContentSector content
  if saved ≠ .strgOk then
    return saved
  journalWriteSector jrnlHeaderSector (toSector header)

/-- Stands for the `NULL` content of a `JRNL_REMOVE` entry, which is never read. -/
def nullContent : Sector := toSector RingBufferSector.zero

def journalDataInit (type : JrnlType) (sectorInd : Nat) : JournalHeader :=
  ⟨jrnlMagic, jrnlActive, type.code, BitVec.ofNat 16 sectorInd, zeros 500⟩

def journalAdd (type : JrnlType) (index : Nat) (content : Sector) : DbM Bool := do
  let index := u16 index
  let header := journalDataInit type index
  modify fun db => { db with journal := header }
  let ret ← journalWrite header type content
    (if type.savesBitmap then some (usageBitmapFindSector index) else none)
  return ret == .strgOk

def journalFree : DbM StrgRet := do
  modify fun db => { db with journal := { db.journal with state := jrnlCommitted } }
  let db ← get
  journalWriteSector jrnlHeaderSector (toSector db.journal)

/-- Second half of `journal_rollback`: the bitmap sector, then the commit. -/
def journalRollbackUsage (header : JournalHeader) : DbM Bool := do
  match ← readSector jrnlUsageSector with
  | .error _ => return false
  | .ok usage =>
      let written ← writeSector
        (usageBitmapStartSector + usageBitmapFindSector header.sector.toNat) usage
      if written ≠ .strgOk then
        return false
      return (← journalFree) == .strgOk

def journalRollback : DbM Bool := do
  let header := (← get).journal
  if header.type ≠ JrnlType.remove.code then
    match ← readSector jrnlContentSector with
    | .error _ => return false
    | .ok content =>
        let written ← writeSector (header.sector.toNat + dataRegionStartSector) content
        if written ≠ .strgOk then
          return false
        if header.type = JrnlType.callHist.code ∨ header.type = JrnlType.msgHist.code then
          return (← journalFree) == .strgOk
        journalRollbackUsage header
  else journalRollbackUsage header

/-- The status of a header sector as read from the card. -/
def journalHeaderStatus (sector : Sector) : JrnlHeadStatus :=
  let header : JournalHeader := ofSector sector
  if !sectorCrcValid sector then
    if header.magic = jrnlHeaderMagicEmpty ∨ header.magic = jrnlHeaderMagicFull then
      .uninitialized
    else .corrupted
  else if header.magic ≠ jrnlMagic then .uninitialized
  else if header.state = jrnlActive then .rollback
  else .valid

def getJournalStatus : DbM JrnlHeadStatus := do
  match ← readSectorRaw jrnlHeaderSector with
  | .error _ => return .readError
  | .ok sector =>
      let status := journalHeaderStatus sector
      if status = .rollback ∨ status = .valid then
        modify fun db => { db with journal := ofSector sector }
      return status

def journalInit : DbM Bool := do
  match ← getJournalStatus with
  | .corrupted | .readError => return false
  | .uninitialized => journalHeaderInit
  | .rollback => journalRollback
  | .valid => return true

/-- The copies that `journal_add` makes. -/
def journalCopies (type : JrnlType) (index : Nat) (content : Sector) (bitmap : UsageBitmap) :
    WriteLog Sector :=
  (if type.savesBitmap then
    [(jrnlUsageSector, sectorCrcStamp (bitmapSector bitmap (usageBitmapFindSector index)))]
  else []) ++
  (if type = .remove then [] else [(jrnlContentSector, sectorCrcStamp content)])

/-- Writes of `journal_add`: the copies first, the header that names them last. -/
def journalAddLog (type : JrnlType) (index : Nat) (content : Sector) (bitmap : UsageBitmap) :
    WriteLog Sector :=
  journalCopies type index content bitmap ++
    [(jrnlHeaderSector, sectorCrcStamp (toSector (journalDataInit type index)))]

def JournalHeader.committed (header : JournalHeader) : JournalHeader :=
  { header with state := jrnlCommitted }

section JournalRuns

variable (db : Database) (card : Card Sector)

theorem out_journalAdd (type : JrnlType) {index : Nat} (content : Sector)
    (bound : index < 65536) :
    out (journalAdd type index content) db card =
      ((true,
        { db with
          journal := journalDataInit type index
          usageBitmap :=
            if type.savesBitmap then stampBitmap db.usageBitmap (usageBitmapFindSector index)
            else db.usageBitmap }),
        journalAddLog type index content db.usageBitmap) := by
  have stamped : sectorCrcStamp (bitmapSector
      (stampBitmap db.usageBitmap (usageBitmapFindSector index)) (usageBitmapFindSector index)) =
      sectorCrcStamp (bitmapSector db.usageBitmap (usageBitmapFindSector index)) := by
    rw [bitmap_sector_stamp]
    exact stamp_of_valid (stamp_valid _)
  have narrow : u16 index = index := u16_of_lt bound
  cases type <;>
    simp [journalAdd, journalWrite, journalWriteUsage, journalWriteSector, out_bind,
      journalAddLog, journalCopies, JrnlType.savesBitmap, narrow] <;>
    simpa using stamped

@[simp] theorem out_journalFree :
    out journalFree db card =
      ((.strgOk, { db with journal := db.journal.committed }),
        [(jrnlHeaderSector, sectorCrcStamp (toSector db.journal.committed))]) := rfl

end JournalRuns

end SdDatabase
