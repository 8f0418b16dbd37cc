import SdDatabase.Records

/-!
# The database in memory

The `Database` struct together with the arrays and the usage bitmap it works
on, which are globals of the program, and the storage access of `storage.c`.
A function of the source becomes a program over the card that threads this
state; pointers into an array become indices of it.
-/

namespace SdDatabase

open Bytes Device

set_option autoImplicit false

inductive StrgRet where
  | strgFail
  | strgOk
  | strgEmpty
  | strgFull
  | strgNext
  | strgCorrupt
  | strgExists
  deriving DecidableEq

/-- `STRG_RET` read as a C `bool`: only `STRG_FAIL` is zero. -/
def StrgRet.toBool (ret : StrgRet) : Bool := ret != .strgFail

/-- A C `bool` read as `STRG_RET`: `true` is `STRG_OK`. -/
def StrgRet.ofBool (success : Bool) : StrgRet := if success then .strgOk else .strgFail

inductive EntryState where
  | empty
  | occupied
  | deleted
  deriving DecidableEq

structure HashEntry where
  id : Nat
  sector : Nat
  latestMsgExtent : Nat
  state : EntryState
  deriving DecidableEq

def HashEntry.zero : HashEntry := ⟨0, 0, 0, .empty⟩

structure HashTable where
  htable : Nat → HashEntry
  numElems : Nat
  size : Nat

/-- The part of the stack array below `stack_top`, top first. -/
structure FreeList where
  freeStack : List Nat
  capacity : Nat
  usedCount : Nat

structure RingBuffer where
  seq : BitVec 32
  size : Nat
  currentIndex : Nat
  occupancy : Nat
  deriving DecidableEq

structure SortedArrayEntry where
  key : Fin 8 → Byte
  hashSlot : Nat
  deriving DecidableEq

/-- The occupied part of the array; `occupancy` is its length. -/
structure SortedArray where
  mem : List SortedArrayEntry

/-- The occupied part of the array; `occupancy` is its length. -/
structure ChatOrder where
  mem : List Nat

/-- The words of the bitmap, checksum trailers included. -/
@[ext]
structure UsageBitmap where
  word : Nat → BitVec 32

structure Database where
  journal : JournalHeader
  htable : HashTable
  contactAllocator : FreeList
  messageAllocator : FreeList
  messageHistory : RingBuffer
  callHistory : RingBuffer
  nameIndex : SortedArray
  chatOrder : ChatOrder
  usageBitmap : UsageBitmap

/-- A program over the card with the database in memory. -/
abbrev DbM := DevM Sector Database

def readSectorRaw (index : Nat) : DbM (Except StrgRet Sector) := do
  match ← readBlock (u16 index) with
  | none => return .error .strgFail
  | some sector => return .ok sector

def readSector (index : Nat) : DbM (Except StrgRet Sector) := do
  match ← readSectorRaw index with
  | .error ret => return .error ret
  | .ok sector =>
      if sectorCrcValid sector then return .ok sector
      return .error .strgCorrupt

def writeSector (index : Nat) (sector : Sector) : DbM StrgRet := do
  return .ofBool (← writeBlock (u16 index) (sectorCrcStamp sector))

section StorageRuns

variable (db : Database) (card : Card Sector)

@[simp] theorem out_readSectorRaw (index : Nat) :
    out (readSectorRaw index) db card = ((.ok (card (u16 index)), db), []) := rfl

theorem out_readSector (index : Nat) :
    out (readSector index) db card =
      ((if sectorCrcValid (card (u16 index)) then .ok (card (u16 index))
        else .error .strgCorrupt, db), []) := by
  rw [readSector, out_bind, out_readSectorRaw]
  dsimp only
  split <;> simp [applyWrites, *]

/-- One block is read, whatever the card answers. -/
theorem trace_readSector (faults : Faults Sector) (index : Nat) :
    readTrace (readSector index) db faults card = [u16 index] := by
  have raw : readTrace (readSectorRaw index) db faults card = [u16 index] := by
    unfold readSectorRaw
    rw [read_trace_bind]
    change u16 index :: readTrace (match (faults.reads 0).answer (card (u16 index)) with
      | none => _ | some sector => _) db faults.afterRead card = _
    cases (faults.reads 0).answer (card (u16 index)) <;> rfl
  unfold readSector
  rw [read_trace_bind, raw]
  generalize exec (readSectorRaw index) db faults card = outcome
  rcases outcome with ⟨⟨answer | sector, db⟩, rest⟩
  · rfl
  · dsimp only
    split <;> rfl

@[simp] theorem out_writeSector (index : Nat) (sector : Sector) :
    out (writeSector index sector) db card =
      ((.strgOk, db), [(u16 index, sectorCrcStamp sector)]) := rfl

end StorageRuns

theorem reads_readSector {K : Type} (key : Database → K) (index : Nat) :
    ReadsOf key (readSector index) := by
  unfold readSector readSectorRaw
  refine ((reads_readBlock _).bind fun got => ?_).bind fun got => ?_
  · cases got <;> exact reads_pure _
  · cases got with
    | error ret => exact reads_pure _
    | ok sector => exact ReadsOf.ite (reads_pure _) (reads_pure _)

end SdDatabase
