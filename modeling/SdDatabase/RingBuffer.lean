import SdDatabase.State

/-!
# Ring buffers

`ring_buffer.c`: the position of a ring buffer is kept in memory only and found
again at start-up by a binary search over the sequence numbers of its sectors.
-/

namespace SdDatabase

open Bytes Device

set_option autoImplicit false

def readRingBufferSector (rawSectorStart index : Nat) : DbM (Except StrgRet RingBufferSector) := do
  match ← readSector (u16 (index + rawSectorStart)) with
  | .error ret => return .error ret
  | .ok content => return .ok (ofSector content)

/-- `seq_and_state_at`, with the whole header. -/
def seqAndStateAt (rawSectorStart index : Nat) : DbM (Except StrgRet RingBufferHeader) := do
  match ← readRingBufferSector rawSectorStart (u16 index) with
  | .error ret => return .error ret
  | .ok sector => return .ok sector.header

def isRingBufferWrapped (rawSectorStart head : Nat) : DbM StrgRet := do
  match ← seqAndStateAt rawSectorStart (head + 1) with
  | .error _ => return .strgFail
  | .ok header => if header.state = rbEmpty then return .strgEmpty else return .strgOk

def binarySearchTargetRight (header : RingBufferHeader) (seqStart : BitVec 32) (mid : Nat) : Bool :=
  header.state ≠ rbEmpty && (header.seq - seqStart).toNat == mid

/-- The loop of `binary_search_head` on `[lo, hi)`; every round shrinks the range. -/
def searchHeadLoop (rawSectorStart : Nat) (seqStart : BitVec 32) :
    Nat → Nat → Nat → DbM (Option Nat)
  | 0, lo, _ => return some lo
  | fuel + 1, lo, hi => do
      if 1 < hi - lo then
        let mid := lo + (hi - lo) / 2
        match ← seqAndStateAt rawSectorStart mid with
        | .error _ => return none
        | .ok header =>
            if binarySearchTargetRight header seqStart mid then
              searchHeadLoop rawSectorStart seqStart fuel mid hi
            else searchHeadLoop rawSectorStart seqStart fuel lo mid
      else return some lo

/-- `binary_search_head`: head index and sequence number. -/
def binarySearchHead (rawSectorStart memSize : Nat) :
    DbM (Except StrgRet (Nat × BitVec 32)) := do
  match ← seqAndStateAt rawSectorStart 0 with
  | .error _ => return .error .strgFail
  | .ok first =>
      if first.state = rbEmpty then
        return .error .strgEmpty
      match ← searchHeadLoop rawSectorStart first.seq memSize 0 memSize with
      | none => return .error .strgFail
      | some head =>
          match ← seqAndStateAt rawSectorStart head with
          | .error _ => return .error .strgFail
          | .ok header => return .ok (head, header.seq)

/-- `reconstruct_ring_buffer`; `none` when it fails. -/
def reconstructRingBuffer (rb : RingBuffer) (rawSectorStart : Nat) : DbM (Option RingBuffer) := do
  match ← binarySearchHead rawSectorStart rb.size with
  | .error .strgEmpty => return some { rb with currentIndex := 0, seq := 0#32, occupancy := 0 }
  | .error _ => return none
  | .ok (head, seq) =>
      let found := { rb with seq := seq, currentIndex := head }
      if head = rb.size - 1 then
        return some { found with occupancy := rb.size }
      match ← isRingBufferWrapped rawSectorStart head with
      | .strgOk => return some { found with occupancy := rb.size }
      | .strgEmpty => return some { found with occupancy := head + 1 }
      | _ => return none

def initRingBuffer (rb : RingBuffer) (size rawSectorStart : Nat) : DbM (Option RingBuffer) := do
  if size = 0 then return none
  reconstructRingBuffer { rb with size := size } rawSectorStart

/-- `clear_ring_buffer` on the sectors `index, index + 1, ...` of the region. -/
def clearRingBufferFrom (rawSectorStart : Nat) : Nat → Nat → DbM StrgRet
  | 0, _ => return .strgOk
  | count + 1, index => do
      let ret ← writeSector (u16 (rawSectorStart + index)) (toSector RingBufferSector.zero)
      if ret ≠ .strgOk then
        return ret
      clearRingBufferFrom rawSectorStart count (index + 1)

def clearRingBuffer (rawSectorStart size : Nat) : DbM StrgRet :=
  clearRingBufferFrom rawSectorStart size 0

/-- `move_next_ring_buffer`: wrap behind the last occupied sector. -/
def moveNextRingBuffer (rb : RingBuffer) : RingBuffer :=
  if rb.currentIndex < rb.occupancy - 1 then { rb with currentIndex := rb.currentIndex + 1 }
  else { rb with currentIndex := 0 }

def addRingBuffer (rb : RingBuffer) : RingBuffer :=
  if rb.occupancy < rb.size then { rb with occupancy := rb.occupancy + 1 } else rb

def incSeqRingBuffer (rb : RingBuffer) : RingBuffer := { rb with seq := rb.seq + 1#32 }

/-- `ring_iterator_prev` on an iterator over `[0, occupancy)`. -/
def ringIteratorPrev (occupancy current : Nat) : Nat :=
  if 0 < current then current - 1 else occupancy - 1

end SdDatabase
