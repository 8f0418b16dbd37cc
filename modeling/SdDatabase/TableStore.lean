import SdDatabase.Chat
import SdDatabase.PhoneTable
import Mathlib.Tactic.NormNum.Prime

/-!
# The hash table and the contacts on the card

Every contact on the card has one occupied entry, which its phone number leads
to. The search is the search of open addressing with the phone numbers as keys;
the operations change at most two entries and none back to empty.
-/

namespace SdDatabase

open Bytes Device OpenAddressing

set_option autoImplicit false

/-- The phone numbers of the contacts are distinct. -/
def Distinct (contact : Nat → Option Identity) : Prop :=
  ∀ first second left right, contact first = some left → contact second = some right →
    left.phone = right.phone → first = second

/-- The table as its search sees it: an occupied entry counts as its phone number. -/
def tableCell (table : HashTable) (contact : Nat → Option Identity) (slot : Nat) :
    Cell (List Byte) :=
  match (table.htable slot).state with
  | .empty => .empty
  | .deleted => .deleted
  | .occupied => .occupied
      (match contact (table.htable slot).sector with
        | some identity => identity.phone
        | none => [])

/-- The slots probed for a phone number. -/
def tablePath (phone : List Byte) : List Nat :=
  doubleHashPath (hashPrimary (hashPhone phone) hashTableSize)
    (hashSecondary (hashPhone phone) hashTableSize) hashTableSize

/-- The entry of a contact: where it is stored, its hash and its newest message sector. -/
structure EntryHolds (table : HashTable) (contact : Nat → Option Identity) (latest : Nat → Nat)
    (slot : Nat) (identity : Identity) : Prop where
  stored : contact (table.htable slot).sector = some identity
  id : (table.htable slot).id = hashPhone identity.phone
  latest : (table.htable slot).latestMsgExtent = latest (table.htable slot).sector
  reaches : Reaches (tableCell table contact) (tablePath identity.phone) slot

structure TableHolds (table : HashTable) (contact : Nat → Option Identity)
    (latest : Nat → Nat) : Prop where
  size : table.size = hashTableSize
  inside : ∀ slot, (table.htable slot).state ≠ .empty → slot < hashTableSize
  entry : ∀ slot, (table.htable slot).state = .occupied →
    ∃ identity, EntryHolds table contact latest slot identity
  placed : ∀ sector, contact sector ≠ none →
    ∃ slot, (table.htable slot).state = .occupied ∧ (table.htable slot).sector = sector
  separate : ∀ first second, (table.htable first).state = .occupied →
    (table.htable second).state = .occupied →
    (table.htable first).sector = (table.htable second).sector → first = second

theorem table_size_prime : Nat.Prime hashTableSize := by norm_num

def contactPhones (contact : Nat → Option Identity) (sector : Nat) : Option (List Byte) :=
  (contact sector).map Identity.phone

section Phones

variable {table : HashTable} {contact : Nat → Option Identity} {latest : Nat → Nat}

theorem contact_phones_some {sector : Nat} {identity : Identity}
    (stored : contact sector = some identity) :
    contactPhones contact sector = some identity.phone := by
  rw [contactPhones, stored, Option.map_some]

theorem contact_phones_ne_none {sector : Nat} :
    contactPhones contact sector ≠ none ↔ contact sector ≠ none :=
  not_congr Option.map_eq_none_iff

theorem contact_phones_update (sector : Nat) (value : Option Identity) :
    contactPhones (Function.update contact sector value) =
      Function.update (contactPhones contact) sector (value.map Identity.phone) := by
  funext other
  by_cases same : other = sector
  · rw [same, contactPhones, Function.update_self, Function.update_self]
  · rw [contactPhones, Function.update_of_ne same, Function.update_of_ne same, contactPhones]

theorem contact_phones_cell : phoneCell table (contactPhones contact) = tableCell table contact := by
  funext slot
  unfold phoneCell tableCell contactPhones
  cases (table.htable slot).state with
  | empty => rfl
  | deleted => rfl
  | occupied => cases contact (table.htable slot).sector <;> rfl

theorem Distinct.phones (distinct : Distinct contact) : PhonesDistinct (contactPhones contact) := by
  intro first second number firstStored secondStored
  obtain ⟨left, leftStored, leftIs⟩ := Option.map_eq_some_iff.mp firstStored
  obtain ⟨right, rightStored, rightIs⟩ := Option.map_eq_some_iff.mp secondStored
  exact distinct first second left right leftStored rightStored (leftIs.trans rightIs.symm)

theorem TableHolds.phones (holds : TableHolds table contact latest) :
    PhoneTable table (contactPhones contact) where
  inside := by
    rw [holds.size]
    exact holds.inside
  entry slot occupied := by
    obtain ⟨identity, entry⟩ := holds.entry slot occupied
    refine ⟨identity.phone, contact_phones_some entry.stored, entry.id, ?_⟩
    rw [contact_phones_cell, holds.size]
    exact entry.reaches
  placed sector given := holds.placed sector (contact_phones_ne_none.mp given)
  separate := holds.separate

theorem PhoneTable.holds (phones : PhoneTable table (contactPhones contact))
    (size : table.size = hashTableSize)
    (newest : ∀ slot, (table.htable slot).state = .occupied →
      (table.htable slot).latestMsgExtent = latest (table.htable slot).sector) :
    TableHolds table contact latest where
  size := size
  inside := by
    rw [← size]
    exact phones.inside
  entry slot occupied := by
    obtain ⟨number, entry⟩ := phones.entry slot occupied
    obtain ⟨identity, stored, same⟩ := Option.map_eq_some_iff.mp entry.stored
    have reaches := entry.reaches
    rw [contact_phones_cell, size, ← same] at reaches
    exact ⟨identity, stored, by rw [same, entry.id], newest slot occupied, reaches⟩
  placed sector given := phones.placed sector (contact_phones_ne_none.mpr given)
  separate := phones.separate

theorem TableHolds.newest (holds : TableHolds table contact latest) (slot : Nat)
    (occupied : (table.htable slot).state = .occupied) :
    (table.htable slot).latestMsgExtent = latest (table.htable slot).sector := by
  obtain ⟨identity, entry⟩ := holds.entry slot occupied
  exact entry.latest

end Phones

section Search

variable {db : Database} {card : Card Sector} {view : View} {latest : Nat → Nat}

section Part

-- the table may know only some of the contacts, as it does while it is rebuilt
variable {known : Nat → Option Identity} (holds : TableHolds db.htable known latest)
  (contacts : ContactsHold db.usageBitmap card view.contact)
  (part : ∀ sector identity, known sector = some identity → view.contact sector = some identity)

include contacts part

theorem contact_phones_read : PhonesRead (fun _ => false) db card (contactPhones known) := by
  intro sector number stored
  obtain ⟨identity, found, same⟩ := Option.map_eq_some_iff.mp stored
  have given := part sector identity found
  have read := out_readContact contacts (contacts.bound sector (by
    rw [given]
    exact Option.some_ne_none _))
  rw [given] at read
  refine ⟨identity.record, ?_, ?_⟩
  · rw [lossy_none, read]
  · rw [record_phone_cstr, same]

include holds

theorem find_absent_part {phone : List Byte}
    (absent : ∀ sector identity, known sector = some identity → identity.phone ≠ phone) :
    ∃ slot, out (hashFindEntry phone) db card = ((some slot, db), []) ∧
      slot < hashTableSize ∧ (db.htable.htable slot).state ≠ .occupied ∧
      Reaches (tableCell db.htable known) (tablePath phone) slot := by
  have bound : ∀ sector, contactPhones known sector ≠ none → sector < hashTableEntries := by
    intro sector given
    obtain ⟨identity, stored⟩ := Option.ne_none_iff_exists'.mp (contact_phones_ne_none.mp given)
    exact contacts.bound sector (by rw [part _ _ stored]; exact Option.some_ne_none _)
  have room := holds.phones.room (by rw [holds.size]; decide) bound
  have find := lossy_find_absent holds.phones (contact_phones_read contacts part)
    (by rw [holds.size]; decide) (by rw [holds.size]; exact table_size_prime)
    (fun sector stored => by
      obtain ⟨identity, found, same⟩ := Option.map_eq_some_iff.mp stored
      exact absent sector identity found same) room
  rw [lossy_none, contact_phones_cell, holds.size] at find
  exact find

theorem find_present_part (distinct : Distinct known) {slot : Nat} {identity : Identity}
    (occupied : (db.htable.htable slot).state = .occupied)
    (stored : known (db.htable.htable slot).sector = some identity) :
    out (hashFindEntry identity.phone) db card = ((some slot, db), []) := by
  rw [← lossy_none]
  exact lossy_find_present holds.phones (contact_phones_read contacts part)
    distinct.phones (by rw [holds.size]; decide) occupied (contact_phones_some stored)

theorem out_findOccupied_present (distinct : Distinct known) {slot : Nat} {identity : Identity}
    (occupied : (db.htable.htable slot).state = .occupied)
    (stored : known (db.htable.htable slot).sector = some identity) :
    out (findOccupiedEntry identity.phone) db card = ((some slot, db), []) := by
  rw [findOccupiedEntry,
    out_bind_of (find_present_part holds contacts part distinct occupied stored)]
  simp only [apply_writes_nil, List.nil_append]
  rw [out_bind_of (out_get _ _)]
  simp only [occupied, if_true, out_pure, apply_writes_nil, List.nil_append]

theorem out_findOccupied_absent {phone : List Byte}
    (absent : ∀ sector identity, known sector = some identity → identity.phone ≠ phone) :
    out (findOccupiedEntry phone) db card = ((none, db), []) := by
  obtain ⟨slot, run, _, free, _⟩ := find_absent_part holds contacts part absent
  rw [findOccupiedEntry, out_bind_of run]
  simp only [apply_writes_nil, List.nil_append]
  rw [out_bind_of (out_get _ _)]
  simp only [free, if_false, out_pure, apply_writes_nil, List.nil_append]

end Part

theorem find_present (holds : TableHolds db.htable view.contact latest)
    (contacts : ContactsHold db.usageBitmap card view.contact) (distinct : Distinct view.contact)
    {slot : Nat} {identity : Identity} (occupied : (db.htable.htable slot).state = .occupied)
    (stored : view.contact (db.htable.htable slot).sector = some identity) :
    out (hashFindEntry identity.phone) db card = ((some slot, db), []) :=
  find_present_part holds contacts (fun _ _ => id) distinct occupied stored

theorem find_absent (holds : TableHolds db.htable view.contact latest)
    (contacts : ContactsHold db.usageBitmap card view.contact) {phone : List Byte}
    (absent : ∀ sector identity, view.contact sector = some identity → identity.phone ≠ phone) :
    ∃ slot, out (hashFindEntry phone) db card = ((some slot, db), []) ∧
      slot < hashTableSize ∧ (db.htable.htable slot).state ≠ .occupied ∧
      Reaches (tableCell db.htable view.contact) (tablePath phone) slot :=
  find_absent_part holds contacts (fun _ _ => id) absent

end Search

section Changes

variable {table : HashTable} {contact : Nat → Option Identity} {latest : Nat → Nat}

theorem TableHolds.insert (holds : TableHolds table contact latest) {slot sector : Nat}
    (identity : Identity) (bound : slot < hashTableSize)
    (free : (table.htable slot).state ≠ .occupied)
    (reaches : Reaches (tableCell table contact) (tablePath identity.phone) slot)
    (fresh : contact sector = none) (noChat : latest sector = uint16Max) (count : Nat) :
    TableHolds
      { table.setEntry slot (occupiedEntry (hashPhone identity.phone) sector) with
        numElems := count }
      (Function.update contact sector (some identity)) latest := by
  have phones := holds.phones.insert identity.phone (by rwa [holds.size]) free
    (by rwa [contact_phones_cell, holds.size]) (Option.map_eq_none_iff.mpr fresh) count
  rw [← Option.map_some, ← contact_phones_update] at phones
  apply phones.holds holds.size
  simp only [HashTable.setEntry]
  intro index occupied
  by_cases same : index = slot
  · rw [same, Function.update_self]
    exact noChat.symm
  · rw [Function.update_of_ne same] at occupied ⊢
    exact holds.newest index occupied

theorem TableHolds.rename (holds : TableHolds table contact latest) {sector : Nat}
    {old identity : Identity} (stored : contact sector = some old)
    (same : identity.phone = old.phone) :
    TableHolds table (Function.update contact sector (some identity)) latest := by
  have phones := holds.phones
  rw [← Function.update_eq_self sector (contactPhones contact), contact_phones_some stored, ← same,
    ← Option.map_some, ← contact_phones_update] at phones
  exact phones.holds holds.size holds.newest

/-- A contact whose entry moves to another one because its phone number changes. -/
theorem TableHolds.move (holds : TableHolds table contact latest) {oldSlot newSlot : Nat}
    {identity : Identity} (occupied : (table.htable oldSlot).state = .occupied)
    (bound : newSlot < hashTableSize) (free : (table.htable newSlot).state ≠ .occupied)
    (reaches : Reaches (tableCell table contact) (tablePath identity.phone) newSlot) :
    TableHolds
      ((table.setEntry newSlot { table.htable oldSlot with id := hashPhone identity.phone }).setEntry
        oldSlot { table.htable oldSlot with state := .deleted })
      (Function.update contact (table.htable oldSlot).sector (some identity)) latest := by
  have phones := holds.phones.move occupied (by rwa [holds.size]) free
    (by rwa [contact_phones_cell, holds.size])
  rw [← Option.map_some, ← contact_phones_update] at phones
  apply phones.holds holds.size
  simp only [HashTable.setEntry]
  intro index state
  by_cases isOld : index = oldSlot
  · rw [isOld, Function.update_self] at state
    cases state
  · rw [Function.update_of_ne isOld] at state ⊢
    by_cases isNew : index = newSlot
    · rw [isNew, Function.update_self]
      exact holds.newest oldSlot occupied
    · rw [Function.update_of_ne isNew] at state ⊢
      exact holds.newest index state

/-- A contact that is removed leaves a tombstone, whatever else its entry says. -/
theorem TableHolds.delete (holds : TableHolds table contact latest) {slot : Nat}
    (occupied : (table.htable slot).state = .occupied) (entry : HashEntry)
    (deleted : entry.state = .deleted) (count : Nat) :
    TableHolds { table.setEntry slot entry with numElems := count }
      (Function.update contact (table.htable slot).sector none) latest := by
  have phones := holds.phones.delete occupied entry deleted count
  rw [← Option.map_none Identity.phone, ← contact_phones_update] at phones
  apply phones.holds holds.size
  simp only [HashTable.setEntry]
  intro index state
  by_cases same : index = slot
  · rw [same, Function.update_self, deleted] at state
    cases state
  · rw [Function.update_of_ne same] at state ⊢
    exact holds.newest index state

theorem TableHolds.setLatest (holds : TableHolds table contact latest) {slot : Nat}
    (occupied : (table.htable slot).state = .occupied) (newest : Nat) :
    TableHolds (table.setEntry slot { table.htable slot with latestMsgExtent := newest }) contact
      (Function.update latest (table.htable slot).sector newest) := by
  have kept := fun (A : Type) (field : HashEntry → A)
      (same : field { table.htable slot with latestMsgExtent := newest } =
        field (table.htable slot)) => set_latest_field field same
  have phones : PhoneTable
      (table.setEntry slot { table.htable slot with latestMsgExtent := newest })
      (contactPhones contact) :=
    holds.phones.same_entries rfl (kept _ HashEntry.state rfl) (kept _ HashEntry.id rfl)
      (kept _ HashEntry.sector rfl)
  apply phones.holds holds.size
  intro index state
  rw [kept _ HashEntry.state rfl] at state
  rw [kept _ HashEntry.sector rfl]
  by_cases same : index = slot
  · rw [same, Function.update_self]
    simp only [HashTable.setEntry, Function.update_self]
  · rw [Function.update_of_ne fun at_ => same (holds.separate index slot state occupied at_)]
    simp only [HashTable.setEntry]
    rw [Function.update_of_ne same]
    exact holds.newest index state

end Changes

end SdDatabase
