import SdDatabase.HashTable
import SdDatabase.Lib.Heapsort

/-!
# Name index

`sorted_array.c`: the hash slots of all contacts in the order of their names.
An eight-byte case-folded key decides most comparisons in memory; ties read the
contact from the card.
-/

namespace SdDatabase

open Bytes Device Heapsort

set_option autoImplicit false

def removeCase (character : Byte) : Byte :=
  if 65 ≤ character.toNat ∧ character.toNat ≤ 90 then character + 32#8 else character

/-- `bytes_cmp`: the first different byte decides, else the lengths. -/
def bytesCmp (ignoreCase : Bool) : List Byte → List Byte → Int
  | left :: leftRest, right :: rightRest =>
      let leftFolded := if ignoreCase then removeCase left else left
      let rightFolded := if ignoreCase then removeCase right else right
      if leftFolded ≠ rightFolded then (leftFolded.toNat : Int) - rightFolded.toNat
      else bytesCmp ignoreCase leftRest rightRest
  | left, right => (left.length : Int) - right.length

/-- `sorted_array_make_key`: the folded start of the name, zero padded. -/
def sortedArrayMakeKey (name : List Byte) : Fin 8 → Byte :=
  fun index => ((name[index.val]?).map removeCase).getD 0#8

structure SortedArrayProbe where
  key : Fin 8 → Byte
  name : List Byte
  phone : List Byte
  nameOnly : Bool

/-- The name and phone bytes of a record, as long as its length fields say. -/
def Contact.nameBytes (contact : Contact) : List Byte :=
  (List.ofFn contact.name).take contact.nameLen.toNat

def Contact.phoneBytes (contact : Contact) : List Byte :=
  (List.ofFn contact.phone).take contact.phoneLen.toNat

def probeFromContact (contact : Contact) : SortedArrayProbe where
  key := sortedArrayMakeKey contact.nameBytes
  name := contact.nameBytes
  phone := contact.phoneBytes
  nameOnly := false

def probeFromString (text : List Byte) : SortedArrayProbe where
  key := sortedArrayMakeKey text
  name := text
  phone := []
  nameOnly := true

/-- The comparison of `tiebreak_fn` once the contact is read. -/
def tiebreakOrder (probe : SortedArrayProbe) (contact : Contact) : Int :=
  let folded := bytesCmp true probe.name contact.nameBytes
  if folded ≠ 0 then folded
  else if probe.nameOnly then folded
  else
    let exact := bytesCmp false probe.name contact.nameBytes
    if exact ≠ 0 then exact
    else bytesCmp false probe.phone contact.phoneBytes

/-- The length fields of a stored contact are checked before they are used. -/
def Contact.lengthsValid (contact : Contact) : Bool :=
  decide (contact.nameLen.toNat ≤ maxNameLen) && decide (contact.phoneLen.toNat ≤ maxPhoneLen)

def tiebreakFn (probe : SortedArrayProbe) (entry : SortedArrayEntry) :
    DbM (Except StrgRet Int) := do
  match ← readContact ((← get).htable.htable entry.hashSlot).sector with
  | .error ret => return .error ret
  | .ok contact =>
      if !contact.lengthsValid then
        return .error .strgCorrupt
      return .ok (tiebreakOrder probe contact)

/-- `memcmp` on two keys. -/
def keyCmp (left right : Fin 8 → Byte) : Int :=
  bytesCmp false (List.ofFn left) (List.ofFn right)

/-- `cmp`. -/
def probeCmp (probe : SortedArrayProbe) (entry : SortedArrayEntry) :
    DbM (Except StrgRet Int) := do
  let order := keyCmp probe.key entry.key
  if order = 0 then tiebreakFn probe entry
  else return .ok order

/-- The loop of `binary_search_lower_bound` on `[lo, hi)`; every round shrinks
the range. -/
def lowerBoundLoop (array : SortedArray) (probe : SortedArrayProbe) :
    Nat → Nat → Nat → Bool → DbM (Except StrgRet (Nat × Bool))
  | 0, lo, _, isMatch => return .ok (lo, isMatch)
  | fuel + 1, lo, hi, isMatch => do
      if lo < hi then
        let mid := lo + (hi - lo) / 2
        match array.mem[mid]? with
        | none => return .error .strgFail
        | some entry =>
            match ← probeCmp probe entry with
            | .error ret => return .error ret
            | .ok order =>
                if 0 < order then lowerBoundLoop array probe fuel (mid + 1) hi isMatch
                else lowerBoundLoop array probe fuel lo mid (order == 0)
      else return .ok (lo, isMatch)

def binarySearchLowerBound (array : SortedArray) (probe : SortedArrayProbe) :
    DbM (Except StrgRet (Nat × Bool)) :=
  lowerBoundLoop array probe (array.mem.length + 1) 0 array.mem.length false

def sortedArraySeek (text : List Byte) : DbM (Except StrgRet Nat) := do
  if maxNameLen < text.length then
    return .error .strgFail
  match ← binarySearchLowerBound (← get).nameIndex (probeFromString text) with
  | .error ret => return .error ret
  | .ok (rank, _) => return .ok rank

def sortedArrayFind (contact : Contact) : DbM (Except StrgRet (Nat × Bool)) := do
  binarySearchLowerBound (← get).nameIndex (probeFromContact contact)

def sortedArrayInsert (contact : Contact) (hashSlot : Nat) : DbM StrgRet := do
  if hashTableEntries ≤ (← get).nameIndex.mem.length then
    return .strgFull
  match ← sortedArrayFind contact with
  | .error ret => return ret
  | .ok (rank, found) =>
      if found then
        return .strgFail
      let entry := ⟨sortedArrayMakeKey contact.nameBytes, hashSlot⟩
      modify fun db =>
        { db with nameIndex := ⟨db.nameIndex.mem.insertIdx rank entry⟩ }
      return .strgOk

def sortedArrayRemove (contact : Contact) : DbM StrgRet := do
  if (← get).nameIndex.mem.length = 0 then
    return .strgFull
  match ← sortedArrayFind contact with
  | .error ret => return ret
  | .ok (rank, found) =>
      if !found then
        return .strgFail
      modify fun db => { db with nameIndex := ⟨db.nameIndex.mem.eraseIdx rank⟩ }
      return .strgOk

/-- `entry_cmp`: the first entry is turned into a probe only on a key tie. -/
def entryCmp (left right : SortedArrayEntry) : DbM (Except StrgRet Int) := do
  let order := keyCmp left.key right.key
  if order ≠ 0 then
    return .ok order
  match ← readContact ((← get).htable.htable left.hashSlot).sector with
  | .error ret => return .error ret
  | .ok contact =>
      if !contact.lengthsValid then
        return .error .strgCorrupt
      tiebreakFn (probeFromContact contact) right

def sortedArraySort : DbM StrgRet := do
  match ← heapsort entryCmp (← get).nameIndex.mem with
  | .error ret => return ret
  | .ok sorted =>
      modify fun db => { db with nameIndex := ⟨sorted⟩ }
      return .strgOk

/-- The append loop of `sorted_array_build` over the hash slots. -/
def appendContacts : Nat → Nat → DbM StrgRet
  | 0, _ => return .strgOk
  | count + 1, slot => do
      let entry := (← get).htable.htable slot
      if entry.state ≠ .occupied then
        appendContacts count (slot + 1)
      else
        match ← readContact entry.sector with
        | .error ret => return ret
        | .ok contact =>
            if sortedArrayEntries ≤ (← get).nameIndex.mem.length then
              return .strgFull
            let appended := ⟨sortedArrayMakeKey contact.nameBytes, slot⟩
            modify fun db => { db with nameIndex := ⟨db.nameIndex.mem ++ [appended]⟩ }
            appendContacts count (slot + 1)

def sortedArrayBuild : DbM StrgRet := do
  modify fun db => { db with nameIndex := ⟨[]⟩ }
  let ret ← appendContacts hashTableSize 0
  if ret ≠ .strgOk then
    return ret
  sortedArraySort

end SdDatabase
