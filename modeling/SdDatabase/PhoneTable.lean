import SdDatabase.HashTable
import SdDatabase.Lib.LostBlocks
import SdDatabase.Lib.OpenAddressing

/-!
# Tables of phone numbers

The hash table of any prime size, over the phone numbers of the contact slots.
An occupied entry counts as the number of the contact it names. Its search is
the search of open addressing, on a card that may have lost blocks, and every
change of the table keeps each number on its probe path.
-/

namespace SdDatabase

open Bytes Device OpenAddressing

set_option autoImplicit false

def phonePath (size : Nat) (number : List Byte) : List Nat :=
  doubleHashPath (hashPrimary (hashPhone number) size) (hashSecondary (hashPhone number) size) size

def phoneCell (table : HashTable) (phone : Nat → Option (List Byte)) (slot : Nat) :
    Cell (List Byte) :=
  match (table.htable slot).state with
  | .empty => .empty
  | .deleted => .deleted
  | .occupied => .occupied ((phone (table.htable slot).sector).getD [])

/-- The entry of a contact slot with this phone number. -/
structure PhoneEntry (table : HashTable) (phone : Nat → Option (List Byte)) (slot : Nat)
    (number : List Byte) : Prop where
  stored : phone (table.htable slot).sector = some number
  id : (table.htable slot).id = hashPhone number
  reaches : Reaches (phoneCell table phone) (phonePath table.size number) slot

structure PhoneTable (table : HashTable) (phone : Nat → Option (List Byte)) : Prop where
  inside : ∀ slot, (table.htable slot).state ≠ .empty → slot < table.size
  entry : ∀ slot, (table.htable slot).state = .occupied →
    ∃ number, PhoneEntry table phone slot number
  placed : ∀ sector, phone sector ≠ none →
    ∃ slot, (table.htable slot).state = .occupied ∧ (table.htable slot).sector = sector
  separate : ∀ first second, (table.htable first).state = .occupied →
    (table.htable second).state = .occupied →
    (table.htable first).sector = (table.htable second).sector → first = second

def PhonesDistinct (phone : Nat → Option (List Byte)) : Prop :=
  ∀ first second number, phone first = some number → phone second = some number → first = second

theorem PhonesDistinct.replace {phone : Nat → Option (List Byte)} (distinct : PhonesDistinct phone)
    {slot : Nat} {value : Option (List Byte)}
    (fresh : ∀ sector, sector ≠ slot → ∀ number, phone sector = some number →
      value ≠ some number) : PhonesDistinct (Function.update phone slot value) := by
  intro first second number firstStored secondStored
  by_cases atFirst : first = slot
  · by_cases atSecond : second = slot
    · rw [atFirst, atSecond]
    · rw [atFirst, Function.update_self] at firstStored
      rw [Function.update_of_ne atSecond] at secondStored
      exact absurd firstStored (fresh second atSecond number secondStored)
  · rw [Function.update_of_ne atFirst] at firstStored
    by_cases atSecond : second = slot
    · rw [atSecond, Function.update_self] at secondStored
      exact absurd secondStored (fresh first atFirst number firstStored)
    · rw [Function.update_of_ne atSecond] at secondStored
      exact distinct first second number firstStored secondStored

theorem mem_phonePath {size slot : Nat} (prime : size.Prime) (number : List Byte)
    (bound : slot < size) : slot ∈ phonePath size number := by
  apply mem_double_hash_path _ bound
  have atLeast := prime.two_le
  have below : hashPhone number % (size - 1) < size - 1 := Nat.mod_lt _ (by omega)
  apply Nat.Coprime.symm
  apply (Nat.Prime.coprime_iff_not_dvd prime).mpr
  unfold hashSecondary
  exact Nat.not_dvd_of_pos_of_lt (by omega) (by omega)

section Cells

variable {table next : HashTable} {phone changed : Nat → Option (List Byte)}

theorem phone_cell_empty_iff {slot : Nat} :
    phoneCell table phone slot = .empty ↔ (table.htable slot).state = .empty := by
  unfold phoneCell
  cases (table.htable slot).state <;> simp

theorem phone_cell_free_iff {slot : Nat} :
    (phoneCell table phone slot).IsFree ↔ (table.htable slot).state ≠ .occupied := by
  unfold phoneCell
  cases (table.htable slot).state <;> simp [Cell.IsFree]

theorem PhoneEntry.cell {slot : Nat} {number : List Byte}
    (entry : PhoneEntry table phone slot number)
    (occupied : (table.htable slot).state = .occupied) :
    phoneCell table phone slot = .occupied number := by
  unfold phoneCell
  rw [occupied, entry.stored]
  rfl

/-- Paths are cut only by entries that become empty. -/
theorem phone_reaches_next {path : List Nat} {slot : Nat}
    (reaches : Reaches (phoneCell table phone) path slot)
    (kept : ∀ index, (table.htable index).state ≠ .empty → (next.htable index).state ≠ .empty) :
    Reaches (phoneCell next changed) path slot := by
  apply reaches.update
  intro index full
  rw [ne_eq, phone_cell_empty_iff] at full ⊢
  exact kept index full

theorem PhoneTable.of_cell (holds : PhoneTable table phone) {slot : Nat} {number : List Byte}
    (cell : phoneCell table phone slot = .occupied number) :
    (table.htable slot).state = .occupied ∧ PhoneEntry table phone slot number := by
  have occupied : (table.htable slot).state = .occupied := by
    by_contra free
    have isFree := (@phone_cell_free_iff _ phone _).mpr free
    rw [cell] at isFree
    exact isFree
  obtain ⟨found, entry⟩ := holds.entry slot occupied
  rw [entry.cell occupied, Cell.occupied.injEq] at cell
  rw [cell] at entry
  exact ⟨occupied, entry⟩

theorem PhoneTable.unique (holds : PhoneTable table phone) (distinct : PhonesDistinct phone)
    {slot other : Nat} {number : List Byte}
    (cell : phoneCell table phone slot = .occupied number)
    (same : phoneCell table phone other = .occupied number) : other = slot := by
  have first := holds.of_cell cell
  have second := holds.of_cell same
  exact holds.separate other slot second.1 first.1
    (distinct _ _ number second.2.stored first.2.stored)

theorem PhoneTable.room (holds : PhoneTable table phone) {slots : Nat}
    (few : slots < table.size) (bound : ∀ sector, phone sector ≠ none → sector < slots) :
    ∃ slot < table.size, (phoneCell table phone slot).IsFree := by
  apply @exists_free _ _ _ slots (fun slot => (table.htable slot).sector) few
  · intro slot _ full
    rw [phone_cell_free_iff, not_not] at full
    obtain ⟨number, entry⟩ := holds.entry slot full
    exact bound _ (by rw [entry.stored]; exact Option.some_ne_none _)
  · intro first _ second _ firstFull secondFull same
    rw [phone_cell_free_iff, not_not] at firstFull secondFull
    exact holds.separate first second firstFull secondFull same

end Cells

/-- Reading a slot that has a phone number gives a record with this number. -/
def PhonesRead (lost : Nat → Bool) (db : Database) (card : Card Sector)
    (phone : Nat → Option (List Byte)) : Prop :=
  ∀ sector number, phone sector = some number →
    ∃ record, lossy lost (readContact sector) db card = ((.ok record, db), []) ∧
      cstr record.phone = number

section Search

variable {db : Database} {card : Card Sector} {lost : Nat → Bool}
  {phone : Nat → Option (List Byte)} (holds : PhoneTable db.htable phone)
  (reads : PhonesRead lost db card phone)

include holds reads

theorem lossy_probeFrom (number : List Byte) (h1 h2 : Nat) (count attempt : Nat)
    (buffer : Contact) (firstFree : Option Nat) :
    lossy lost (probeFrom number (hashPhone number) h1 h2 count attempt buffer firstFree) db card =
      ((probe (phoneCell db.htable phone) number
        ((List.range' attempt count).map fun step => (h1 + step * h2) % db.htable.size) firstFree,
        db), []) := by
  induction count generalizing attempt buffer firstFree with
  | zero => rfl
  | succ count ih =>
      rw [probeFrom, lossy_bind_read (lossy_get db card), List.range'_succ, List.map_cons, probe]
      dsimp only
      generalize (h1 + attempt * h2) % db.htable.size = index
      cases state : (db.htable.htable index).state with
      | empty =>
          simp only [phoneCell, state]
          rfl
      | deleted =>
          simp only [phoneCell, state]
          exact ih (attempt + 1) buffer _
      | occupied =>
          obtain ⟨found, entry⟩ := holds.entry index state
          obtain ⟨record, read, same⟩ := reads _ _ entry.stored
          rw [entry.cell state]
          dsimp only
          by_cases tag : (db.htable.htable index).id = hashPhone number
          · rw [if_pos tag, lossy_bind_read read]
            dsimp only
            rw [same]
            by_cases match_ : found = number
            · rw [if_pos match_, if_pos match_]
              rfl
            · rw [if_neg match_, if_neg match_]
              exact ih (attempt + 1) record firstFree
          · have different : found ≠ number := by
              intro same
              rw [same] at entry
              exact tag entry.id
            rw [if_neg tag, if_neg different]
            exact ih (attempt + 1) buffer firstFree

theorem lossy_hashFindEntry (small : db.htable.size < 65536) (number : List Byte) :
    lossy lost (hashFindEntry number) db card =
      ((probe (phoneCell db.htable phone) number (phonePath db.htable.size number) none, db),
        []) := by
  rw [hashFindEntry, lossy_bind_read (lossy_get db card)]
  dsimp only
  rw [u16_of_lt small, lossy_probeFrom holds reads, ← List.range_eq_range']
  rfl

theorem lossy_find_present (distinct : PhonesDistinct phone) (small : db.htable.size < 65536)
    {slot : Nat} {number : List Byte} (occupied : (db.htable.htable slot).state = .occupied)
    (stored : phone (db.htable.htable slot).sector = some number) :
    lossy lost (hashFindEntry number) db card = ((some slot, db), []) := by
  obtain ⟨found, entry⟩ := holds.entry slot occupied
  have same : found = number := Option.some_injective _ (entry.stored.symm.trans stored)
  rw [same] at entry
  rw [lossy_hashFindEntry holds reads small, probe_present none (entry.cell occupied)
    (fun index cell => holds.unique distinct (entry.cell occupied) cell) entry.reaches]

omit reads in
theorem PhoneTable.absent_cell {number : List Byte}
    (absent : ∀ sector, phone sector ≠ some number) (slot : Nat) :
    phoneCell db.htable phone slot ≠ .occupied number :=
  fun cell => absent _ (holds.of_cell cell).2.stored

theorem lossy_find_absent (small : db.htable.size < 65536) (prime : db.htable.size.Prime)
    {number : List Byte} (absent : ∀ sector, phone sector ≠ some number)
    (room : ∃ slot < db.htable.size, (phoneCell db.htable phone slot).IsFree) :
    ∃ slot, lossy lost (hashFindEntry number) db card = ((some slot, db), []) ∧
      slot < db.htable.size ∧ (db.htable.htable slot).state ≠ .occupied ∧
      Reaches (phoneCell db.htable phone) (phonePath db.htable.size number) slot := by
  obtain ⟨free, inside, isFree⟩ := room
  obtain ⟨slot, result, slotFree, reaches⟩ := probe_absent
    (fun index _ => holds.absent_cell absent index) ⟨free, mem_phonePath prime number inside, isFree⟩
  refine ⟨slot, ?_, double_hash_path_lt reaches.mem, phone_cell_free_iff.mp slotFree, reaches⟩
  rw [lossy_hashFindEntry holds reads small, result]

theorem lossy_find_full (small : db.htable.size < 65536) {number : List Byte}
    (absent : ∀ sector, phone sector ≠ some number)
    (full : ∀ slot < db.htable.size, (db.htable.htable slot).state = .occupied) :
    lossy lost (hashFindEntry number) db card = ((none, db), []) := by
  rw [lossy_hashFindEntry holds reads small]
  cases result : probe (phoneCell db.htable phone) number (phonePath db.htable.size number)
      none with
  | none => rfl
  | some slot =>
      have inside : slot < db.htable.size := by
        rcases probe_mem result with member | impossible
        · exact double_hash_path_lt member
        · cases impossible
      rcases probe_some result (fun first impossible => by cases impossible) with cell | free
      · exact absurd cell (holds.absent_cell absent slot)
      · exact absurd (full slot inside) (phone_cell_free_iff.mp free)

theorem lossy_find_occupied (small : db.htable.size < 65536) {slot : Nat} {number : List Byte}
    (find : lossy lost (hashFindEntry number) db card = ((some slot, db), []))
    (occupied : (db.htable.htable slot).state = .occupied) :
    PhoneEntry db.htable phone slot number := by
  rw [lossy_hashFindEntry holds reads small, Prod.mk.injEq, Prod.mk.injEq] at find
  rcases probe_some find.1.1 (fun first impossible => by cases impossible) with cell | free
  · exact (holds.of_cell cell).2
  · exact absurd occupied (phone_cell_free_iff.mp free)

end Search

theorem set_latest_field {A : Type} {table : HashTable} {slot sector : Nat}
    (field : HashEntry → A)
    (kept : field { table.htable slot with latestMsgExtent := sector } = field (table.htable slot))
    (other : Nat) :
    field ((table.setEntry slot { table.htable slot with latestMsgExtent := sector }).htable other)
      = field (table.htable other) := by
  unfold HashTable.setEntry
  by_cases same : other = slot
  · rw [same]
    dsimp only
    rw [Function.update_self, kept]
  · dsimp only
    rw [Function.update_of_ne same]

section Changes

variable {table next : HashTable} {phone changed : Nat → Option (List Byte)}

theorem PhoneTable.change (holds : PhoneTable table phone) (size : next.size = table.size)
    (kept : ∀ slot, (table.htable slot).state ≠ .empty → (next.htable slot).state ≠ .empty)
    (inside : ∀ slot, (next.htable slot).state ≠ .empty → slot < table.size)
    (entry : ∀ slot, (next.htable slot).state = .occupied →
      (next.htable slot = table.htable slot ∧
        changed (next.htable slot).sector = phone (next.htable slot).sector) ∨
      ∃ number, changed (next.htable slot).sector = some number ∧
        (next.htable slot).id = hashPhone number ∧
        Reaches (phoneCell table phone) (phonePath table.size number) slot)
    (placed : ∀ sector, changed sector ≠ none →
      ∃ slot, (next.htable slot).state = .occupied ∧ (next.htable slot).sector = sector)
    (separate : ∀ first second, (next.htable first).state = .occupied →
      (next.htable second).state = .occupied →
      (next.htable first).sector = (next.htable second).sector → first = second) :
    PhoneTable next changed where
  inside := by
    rw [size]
    exact inside
  entry slot occupied := by
    rcases entry slot occupied with ⟨same, samePhone⟩ | ⟨number, stored, id, reaches⟩
    · rw [same] at occupied samePhone
      obtain ⟨number, old⟩ := holds.entry slot occupied
      refine ⟨number, by rw [same, samePhone, old.stored], by rw [same, old.id], ?_⟩
      rw [size]
      exact phone_reaches_next old.reaches kept
    · refine ⟨number, stored, id, ?_⟩
      rw [size]
      exact phone_reaches_next reaches kept
  placed := placed
  separate := separate

theorem PhoneTable.insert (holds : PhoneTable table phone) {slot sector : Nat}
    (number : List Byte) (bound : slot < table.size)
    (free : (table.htable slot).state ≠ .occupied)
    (reaches : Reaches (phoneCell table phone) (phonePath table.size number) slot)
    (fresh : phone sector = none) (count : Nat) :
    PhoneTable
      { table.setEntry slot (occupiedEntry (hashPhone number) sector) with numElems := count }
      (Function.update phone sector (some number)) := by
  have other : ∀ index, index ≠ slot → Function.update table.htable slot
      (occupiedEntry (hashPhone number) sector) index = table.htable index :=
    fun index different => Function.update_of_ne different _ _
  have apart : ∀ index, (table.htable index).state = .occupied →
      (table.htable index).sector ≠ sector := by
    intro index occupied same
    obtain ⟨old, entry⟩ := holds.entry index occupied
    have stored := entry.stored
    rw [same, fresh] at stored
    cases stored
  refine holds.change rfl ?_ ?_ ?_ ?_ ?_ <;> simp only [HashTable.setEntry]
  · intro index full
    by_cases same : index = slot
    · rw [same, Function.update_self]
      simp [occupiedEntry]
    · rwa [other index same]
  · intro index full
    by_cases same : index = slot
    · rwa [same]
    · rw [other index same] at full
      exact holds.inside index full
  · intro index occupied
    by_cases same : index = slot
    · right
      rw [same, Function.update_self]
      exact ⟨number, Function.update_self _ _ _, rfl, reaches⟩
    · left
      rw [other index same] at occupied ⊢
      exact ⟨rfl, Function.update_of_ne (apart index occupied) _ _⟩
  · intro place given
    by_cases same : place = sector
    · exact ⟨slot, by rw [Function.update_self]; rfl, by rw [Function.update_self, same]; rfl⟩
    · rw [Function.update_of_ne same] at given
      obtain ⟨index, occupied, at_⟩ := holds.placed place given
      have different : index ≠ slot := fun same => free (by rw [← same]; exact occupied)
      exact ⟨index, by rwa [other index different], by rwa [other index different]⟩
  · intro first second firstOccupied secondOccupied same
    by_cases atFirst : first = slot
    · by_cases atSecond : second = slot
      · rw [atFirst, atSecond]
      · rw [other second atSecond] at secondOccupied same
        rw [atFirst, Function.update_self] at same
        exact absurd same.symm (apart second secondOccupied)
    · rw [other first atFirst] at firstOccupied same
      by_cases atSecond : second = slot
      · rw [atSecond, Function.update_self] at same
        exact absurd same (apart first firstOccupied)
      · rw [other second atSecond] at secondOccupied same
        exact holds.separate first second firstOccupied secondOccupied same

/-- A contact whose entry moves to another one because its phone number changes. -/
theorem PhoneTable.move (holds : PhoneTable table phone) {oldSlot newSlot : Nat}
    {number : List Byte} (occupied : (table.htable oldSlot).state = .occupied)
    (bound : newSlot < table.size) (free : (table.htable newSlot).state ≠ .occupied)
    (reaches : Reaches (phoneCell table phone) (phonePath table.size number) newSlot) :
    PhoneTable
      ((table.setEntry newSlot { table.htable oldSlot with id := hashPhone number }).setEntry
        oldSlot { table.htable oldSlot with state := .deleted })
      (Function.update phone (table.htable oldSlot).sector (some number)) := by
  have different : newSlot ≠ oldSlot := by
    rintro rfl
    exact free occupied
  generalize whole : (table.setEntry newSlot
    { table.htable oldSlot with id := hashPhone number }).setEntry oldSlot
    { table.htable oldSlot with state := .deleted } = next
  have atOld : next.htable oldSlot = { table.htable oldSlot with state := .deleted } := by
    rw [← whole]
    exact Function.update_self _ _ _
  have atNew : next.htable newSlot =
      { table.htable oldSlot with id := hashPhone number } := by
    rw [← whole]
    simp only [HashTable.setEntry]
    rw [Function.update_of_ne different, Function.update_self]
  have other : ∀ index, index ≠ oldSlot → index ≠ newSlot →
      next.htable index = table.htable index := by
    intro index notOld notNew
    rw [← whole]
    simp only [HashTable.setEntry]
    rw [Function.update_of_ne notOld, Function.update_of_ne notNew]
  have size : next.size = table.size := by rw [← whole]; rfl
  have apart : ∀ index, index ≠ oldSlot → (table.htable index).state = .occupied →
      (table.htable index).sector ≠ (table.htable oldSlot).sector :=
    fun index notOld occupied_ same => notOld (holds.separate index oldSlot occupied_ occupied same)
  refine holds.change size ?_ ?_ ?_ ?_ ?_
  · intro index full
    by_cases isOld : index = oldSlot
    · rw [isOld, atOld]
      simp
    · by_cases isNew : index = newSlot
      · rw [isNew, atNew]
        simp [occupied]
      · rwa [other index isOld isNew]
  · intro index full
    by_cases isOld : index = oldSlot
    · rw [isOld]
      exact holds.inside oldSlot (by simp [occupied])
    · by_cases isNew : index = newSlot
      · rwa [isNew]
      · rw [other index isOld isNew] at full
        exact holds.inside index full
  · intro index occupied_
    by_cases isOld : index = oldSlot
    · rw [isOld, atOld] at occupied_
      cases occupied_
    · by_cases isNew : index = newSlot
      · right
        rw [isNew, atNew]
        exact ⟨number, Function.update_self _ _ _, rfl, reaches⟩
      · left
        rw [other index isOld isNew] at occupied_ ⊢
        exact ⟨rfl, Function.update_of_ne (apart index isOld occupied_) _ _⟩
  · intro place given
    by_cases at_ : place = (table.htable oldSlot).sector
    · exact ⟨newSlot, by rw [atNew]; exact occupied, by rw [atNew, at_]⟩
    · rw [Function.update_of_ne at_] at given
      obtain ⟨index, occupied_, sector⟩ := holds.placed place given
      have notOld : index ≠ oldSlot := by
        rintro rfl
        exact at_ sector.symm
      have notNew : index ≠ newSlot := by
        rintro rfl
        exact free occupied_
      exact ⟨index, by rwa [other index notOld notNew], by rwa [other index notOld notNew]⟩
  · have sectorOf : ∀ index, (next.htable index).state = .occupied →
        (index = newSlot ∧ (next.htable index).sector = (table.htable oldSlot).sector) ∨
        (index ≠ oldSlot ∧ (table.htable index).state = .occupied ∧
          (next.htable index).sector = (table.htable index).sector) := by
      intro index occupied_
      by_cases isOld : index = oldSlot
      · rw [isOld, atOld] at occupied_
        cases occupied_
      · by_cases isNew : index = newSlot
        · left
          exact ⟨isNew, by rw [isNew, atNew]⟩
        · right
          rw [other index isOld isNew] at occupied_ ⊢
          exact ⟨isOld, occupied_, rfl⟩
    intro first second firstOccupied secondOccupied same
    rcases sectorOf first firstOccupied with ⟨firstNew, firstAt⟩ | ⟨firstOld, firstIs, firstAt⟩ <;>
      rcases sectorOf second secondOccupied with
        ⟨secondNew, secondAt⟩ | ⟨secondOld, secondIs, secondAt⟩
    · rw [firstNew, secondNew]
    · rw [firstAt, secondAt] at same
      exact absurd same.symm (apart second secondOld secondIs)
    · rw [firstAt, secondAt] at same
      exact absurd same (apart first firstOld firstIs)
    · rw [firstAt, secondAt] at same
      exact holds.separate first second firstIs secondIs same

/-- A contact that is removed leaves a tombstone, whatever else its entry says. -/
theorem PhoneTable.delete (holds : PhoneTable table phone) {slot : Nat}
    (occupied : (table.htable slot).state = .occupied) (entry : HashEntry)
    (deleted : entry.state = .deleted) (count : Nat) :
    PhoneTable { table.setEntry slot entry with numElems := count }
      (Function.update phone (table.htable slot).sector none) := by
  have other : ∀ index, index ≠ slot → Function.update table.htable slot entry index =
      table.htable index :=
    fun index different => Function.update_of_ne different _ _
  have occupiedOther : ∀ index, (Function.update table.htable slot entry index).state = .occupied →
      index ≠ slot := by
    rintro index state rfl
    rw [Function.update_self, deleted] at state
    cases state
  refine holds.change rfl ?_ ?_ ?_ ?_ ?_ <;> simp only [HashTable.setEntry]
  · intro index full
    by_cases same : index = slot
    · rw [same, Function.update_self, deleted]
      simp
    · rwa [other index same]
  · intro index full
    by_cases same : index = slot
    · rw [same]
      exact holds.inside slot (by simp [occupied])
    · rw [other index same] at full
      exact holds.inside index full
  · intro index state
    have different := occupiedOther index state
    left
    rw [other index different] at state ⊢
    exact ⟨rfl, Function.update_of_ne
      (fun same => different (holds.separate index slot state occupied same)) _ _⟩
  · intro place given
    have notHere : place ≠ (table.htable slot).sector := by
      rintro rfl
      exact given (Function.update_self _ _ _)
    rw [Function.update_of_ne notHere] at given
    obtain ⟨index, state, at_⟩ := holds.placed place given
    have different : index ≠ slot := by
      rintro rfl
      exact notHere at_.symm
    exact ⟨index, by rwa [other index different], by rwa [other index different]⟩
  · intro first second firstState secondState same
    have firstOther := occupiedOther first firstState
    have secondOther := occupiedOther second secondState
    rw [other first firstOther] at firstState same
    rw [other second secondOther] at secondState same
    exact holds.separate first second firstState secondState same

theorem PhoneTable.same_entries (holds : PhoneTable table phone) (size : next.size = table.size)
    (states : ∀ slot, (next.htable slot).state = (table.htable slot).state)
    (ids : ∀ slot, (next.htable slot).id = (table.htable slot).id)
    (places : ∀ slot, (next.htable slot).sector = (table.htable slot).sector) :
    PhoneTable next phone := by
  apply holds.change size <;> simp only [states, ids, places]
  · exact fun _ => id
  · exact holds.inside
  · intro slot occupied
    obtain ⟨number, entry⟩ := holds.entry slot occupied
    exact Or.inr ⟨number, entry.stored, entry.id, entry.reaches⟩
  · exact holds.placed
  · exact holds.separate

end Changes

/-- The part of the memory that a lookup depends on. -/
def lookupKey (db : Database) : HashTable × UsageBitmap := (db.htable, db.usageBitmap)

theorem reads_checkUsageBit (dataSector : Nat) : ReadsOf lookupKey (checkUsageBit dataSector) := by
  apply reads_get
  · intro first second same
    have bitmaps : first.usageBitmap = second.usageBitmap := congrArg Prod.snd same
    rw [bitmaps]
  · intro db
    exact reads_pure _

theorem reads_readContact (index : Nat) : ReadsOf lookupKey (readContact index) := by
  unfold readContact
  apply (reads_checkUsageBit _).bind
  intro used
  apply ReadsOf.ite (reads_pure _)
  apply (reads_readSector lookupKey _).bind
  intro answer
  cases answer with
  | error ret => exact reads_pure _
  | ok content => exact ReadsOf.ite (reads_pure _) (reads_pure _)

theorem reads_probeFrom (phone : List Byte) (target h1 h2 count attempt : Nat)
    (contact : Contact) (firstFree : Option Nat) :
    ReadsOf lookupKey (probeFrom phone target h1 h2 count attempt contact firstFree) := by
  induction count generalizing attempt contact firstFree with
  | zero => exact reads_pure _
  | succ count ih =>
      unfold probeFrom
      apply reads_get
      · intro first second same
        have tables : first.htable = second.htable := congrArg Prod.fst same
        dsimp only
        rw [tables]
      · intro db
        dsimp only
        generalize db.htable.htable ((h1 + attempt * h2) % db.htable.size) = entry
        cases entry.state with
        | empty => exact reads_pure _
        | deleted => exact ih _ _ _
        | occupied =>
            apply ReadsOf.ite _ (ih _ _ _)
            apply (reads_readContact _).bind
            intro answer
            cases answer with
            | ok found => exact ReadsOf.ite (reads_pure _) (ih _ _ _)
            | error ret =>
                exact ReadsOf.ite (ih _ _ _) (ReadsOf.ite (reads_pure _) (ih _ _ _))

theorem reads_hashFindEntry (phone : List Byte) : ReadsOf lookupKey (hashFindEntry phone) := by
  unfold hashFindEntry
  apply reads_get
  · intro first second same
    have tables : first.htable = second.htable := congrArg Prod.fst same
    dsimp only
    rw [tables]
  · intro db
    exact reads_probeFrom _ _ _ _ _ _ _ _

end SdDatabase
