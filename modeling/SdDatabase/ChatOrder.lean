import SdDatabase.HashTable
import SdDatabase.Lib.Heapsort

/-!
# Chat order

`chat_order.c`: the hash slots of the contacts with a chat, most recent message
first. It is kept by moving slots to the front and rebuilt at start-up by
sorting the chats by the time of their newest message.
-/

namespace SdDatabase

open Bytes Device Heapsort

set_option autoImplicit false

def chatOrderFind (order : ChatOrder) (hashSlot : Nat) : Option Nat :=
  order.mem.findIdx? (· == hashSlot)

def chatOrderTouch (order : ChatOrder) (hashSlot : Nat) : StrgRet × ChatOrder :=
  match chatOrderFind order hashSlot with
  | some rank => (.strgOk, ⟨hashSlot :: order.mem.eraseIdx rank⟩)
  | none =>
      if chatOrderEntries ≤ order.mem.length then (.strgFull, order)
      else (.strgOk, ⟨hashSlot :: order.mem⟩)

def chatOrderRemove (order : ChatOrder) (hashSlot : Nat) : StrgRet × ChatOrder :=
  match chatOrderFind order hashSlot with
  | some rank => (.strgOk, ⟨order.mem.eraseIdx rank⟩)
  | none => (.strgEmpty, order)

def chatOrderReplace (order : ChatOrder) (oldSlot newSlot : Nat) : StrgRet × ChatOrder :=
  match chatOrderFind order oldSlot with
  | some rank => (.strgOk, ⟨order.mem.set rank newSlot⟩)
  | none => (.strgEmpty, order)

def modifyChatOrder (step : ChatOrder → StrgRet × ChatOrder) : DbM StrgRet := do
  let (ret, order) := step (← get).chatOrder
  modify fun db => { db with chatOrder := order }
  return ret

structure ChatOrderScratch where
  timestampHi : BitVec 16
  timestampLo : BitVec 16
  hashSlot : Nat
  deriving DecidableEq

/-- The 32-bit timestamp kept in two halves. -/
def joinTimestamp (high low : BitVec 16) : Nat := high.toNat * 65536 + low.toNat

/-- `chat_scratch_cmp`: later message first, then the smaller slot. -/
def chatScratchCmp (left right : ChatOrderScratch) : Int :=
  let leftTime := joinTimestamp left.timestampHi left.timestampLo
  let rightTime := joinTimestamp right.timestampHi right.timestampLo
  if leftTime ≠ rightTime then
    if rightTime < leftTime then -1 else 1
  else (left.hashSlot : Int) - right.hashSlot

/-- `chat_scratch_sort`; this comparison reads nothing and cannot fail. -/
def chatScratchSort (scratch : List ChatOrderScratch) : DbM (Except StrgRet (List ChatOrderScratch)) :=
  heapsort (fun left right => return .ok (chatScratchCmp left right)) scratch

/-- The collecting loop of `chat_order_build` over the hash slots. -/
def collectChats : Nat → Nat → List ChatOrderScratch →
    DbM (Except StrgRet (List ChatOrderScratch))
  | 0, _, scratch => return .ok scratch
  | count + 1, slot, scratch => do
      let entry := (← get).htable.htable slot
      if entry.state ≠ .occupied ∨ entry.latestMsgExtent = uint16Max then
        collectChats count (slot + 1) scratch
      else if chatOrderEntries ≤ scratch.length then
        return .error .strgFull
      else
        match ← readNMessages entry.latestMsgExtent 0 1 with
        | (.strgOk, read) =>
            let latest := read.headD .zero
            collectChats count (slot + 1)
              (scratch ++ [⟨latest.timestampHi, latest.timestampLo, slot⟩])
        | (ret, _) => return .error ret

def chatOrderBuild : DbM StrgRet := do
  modify fun db => { db with chatOrder := ⟨[]⟩ }
  match ← collectChats hashTableSize 0 [] with
  | .error ret => return ret
  | .ok scratch =>
      match ← chatScratchSort scratch with
      | .error ret => return ret
      | .ok sorted =>
          modify fun db =>
            { db with chatOrder := ⟨(sorted.map (·.hashSlot)).take chatOrderEntries⟩ }
          return .strgOk

end SdDatabase
