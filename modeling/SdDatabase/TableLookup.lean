import SdDatabase.ContactRecords
import SdDatabase.ContactUpdate
import SdDatabase.Run

/-!
# Lookups in a table of any prime size

The calls of `hash_table.c` that change contacts, from an empty table on. They
keep the table one of the phone numbers on the card, which makes every lookup
right: the search gives the entry of a stored number, a free entry that a new
number can be put into, or nothing when all entries are occupied.
-/

namespace SdDatabase

open Bytes Device OpenAddressing

set_option autoImplicit false

/-- A call that changes contacts through the table. -/
inductive TableCall where
  | insertContact (contact : Contact)
  | updatePhone (oldPhone : List Byte) (new : Contact)
  | updateContact (old new : Contact)
  | remove (phone : List Byte)
  | removeContact (phone : List Byte)

def Machine.tableCall (machine : Machine) : TableCall → Machine
  | .insertContact contact => (machine.run (hashInsertContact contact)).2
  | .updatePhone oldPhone new => (machine.run (hashUpdatePhone oldPhone new)).2
  | .updateContact old new => (machine.run (hashUpdateContact old new)).2
  | .remove phone => (machine.run (hashRemove phone)).2
  | .removeContact phone => (machine.run (hashRemoveContact phone)).2

def Machine.tableCalls (machine : Machine) (calls : List TableCall) : Machine :=
  calls.foldl Machine.tableCall machine

def Machine.phones (machine : Machine) : Nat → Option (List Byte) :=
  storedPhone machine.db.usageBitmap machine.card

/-- What the calls keep. -/
structure TableReached (size : Nat) (machine : Machine) : Prop where
  size : machine.db.htable.size = size
  table : PhoneTable machine.db.htable machine.phones
  distinct : PhonesDistinct machine.phones
  noChats : ∀ slot, (machine.db.htable.htable slot).state = .occupied →
    (machine.db.htable.htable slot).latestMsgExtent = uint16Max
  intact : SectorsIntact machine.db.usageBitmap machine.card
  bound : ∀ slot, storedContact machine.db.usageBitmap machine.card slot ≠ none →
    slot < hashTableEntries
  nodup : machine.db.contactAllocator.freeStack.Nodup
  free : ∀ slot ∈ machine.db.contactAllocator.freeStack, slot < hashTableEntries ∧
    storedContact machine.db.usageBitmap machine.card slot = none

section Reached

variable {size : Nat} {machine : Machine} (reached : TableReached size machine)

include reached

omit reached in
theorem phones_read : PhonesRead (fun _ => false) machine.db machine.card machine.phones :=
  stored_phones_read fun _ _ stored => ⟨stored, rfl⟩

theorem TableReached.find (prime : size.Prime) (small : size ≤ 46337) (number : List Byte) :
    (∃ slot, out (hashFindEntry number) machine.db machine.card =
        ((some slot, machine.db), []) ∧
      (machine.db.htable.htable slot).state = .occupied ∧
      machine.phones (machine.db.htable.htable slot).sector = some number) ∨
    (∀ sector, machine.phones sector ≠ some number) ∧
      ((∃ slot, out (hashFindEntry number) machine.db machine.card =
          ((some slot, machine.db), []) ∧ slot < size ∧
        (machine.db.htable.htable slot).state ≠ .occupied ∧
        Reaches (phoneCell machine.db.htable machine.phones) (phonePath size number) slot) ∨
      out (hashFindEntry number) machine.db machine.card = ((none, machine.db), []) ∧
        ∀ slot < size, (machine.db.htable.htable slot).state = .occupied) := by
  have whole := reached.size
  have narrow : machine.db.htable.size < 65536 := by omega
  by_cases present : ∃ sector, machine.phones sector = some number
  · left
    obtain ⟨sector, stored⟩ := present
    obtain ⟨slot, occupied, place⟩ := reached.table.placed sector (by
      rw [stored]
      exact Option.some_ne_none _)
    rw [← place] at stored
    refine ⟨slot, ?_, occupied, stored⟩
    rw [← lossy_none]
    exact lossy_find_present reached.table phones_read reached.distinct narrow occupied stored
  · rw [not_exists] at present
    refine Or.inr ⟨present, ?_⟩
    by_cases room : ∃ slot < machine.db.htable.size,
        (phoneCell machine.db.htable machine.phones slot).IsFree
    · left
      have found := lossy_find_absent reached.table phones_read narrow
        (by rw [whole]; exact prime) present room
      rw [lossy_none, whole] at found
      exact found
    · right
      have full : ∀ slot < machine.db.htable.size,
          (machine.db.htable.htable slot).state = .occupied := by
        intro slot inside
        by_contra free
        exact room ⟨slot, inside, phone_cell_free_iff.mpr free⟩
      refine ⟨?_, by rwa [whole] at full⟩
      rw [← lossy_none]
      exact lossy_find_full reached.table phones_read narrow present full

theorem TableReached.stored_bound {slot : Nat} {number : List Byte}
    (stored : machine.phones slot = some number) : slot < hashTableEntries := by
  obtain ⟨record, place, _⟩ := stored_phone_some stored
  exact reached.bound slot (by rw [place]; exact Option.some_ne_none _)

theorem TableReached.changed {next : Database} {other : Card Sector} {slot : Nat}
    {value : Option Contact}
    (changed : SlotChanged machine.db.usageBitmap next.usageBitmap machine.card other slot value)
    (inside : slot < hashTableEntries) (whole : next.htable.size = size)
    (table : PhoneTable next.htable
      (Function.update machine.phones slot (value.map fun record => cstr record.phone)))
    (fresh : ∀ record, value = some record → ∀ sector, sector ≠ slot →
      machine.phones sector ≠ some (cstr record.phone))
    (noChats : ∀ index, (next.htable.htable index).state = .occupied →
      (next.htable.htable index).latestMsgExtent = uint16Max)
    (nodup : next.contactAllocator.freeStack.Nodup)
    (free : ∀ index ∈ next.contactAllocator.freeStack, index < hashTableEntries ∧
      Function.update (storedContact machine.db.usageBitmap machine.card) slot value index =
        none) :
    TableReached size ⟨next, other⟩ := by
  have phones : Machine.phones ⟨next, other⟩ =
      Function.update machine.phones slot (value.map fun record => cstr record.phone) :=
    changed.phones
  refine ⟨whole, ?_, ?_, noChats, changed.intact, ?_, nodup, ?_⟩
  · rw [phones]
    exact table
  · rw [phones]
    refine reached.distinct.replace fun sector differs number stored new => ?_
    obtain ⟨record, given, same⟩ := Option.map_eq_some_iff.mp new
    exact fresh record given sector differs (by rw [same, stored])
  · intro index given
    dsimp only at given
    rw [changed.stored] at given
    by_cases same : index = slot
    · rw [same]
      exact inside
    · rw [Function.update_of_ne same] at given
      exact reached.bound index given
  · intro index member
    dsimp only
    rw [changed.stored]
    exact free index member

theorem TableReached.unchanged {A : Type} {program : DbM A} (answer : A)
    (run : out program machine.db machine.card = ((answer, machine.db), [])) :
    TableReached size (machine.run program).2 := by
  rw [Machine.run_of run]
  exact reached

theorem TableReached.insert_contact (prime : size.Prime) (small : size ≤ 46337)
    (contact : Contact) : TableReached size (machine.run (hashInsertContact contact)).2 := by
  rcases reached.find prime small (cstr contact.phone) with
    ⟨slot, find, occupied, _⟩ | ⟨absent, ⟨slot, find, bound, free, reaches⟩ | ⟨find, _⟩⟩
  · apply reached.unchanged (.strgExists, slot)
    rw [hashInsertContact, out_bind_of find]
    simp only [apply_writes_nil, List.nil_append]
    rw [out_bind_of (out_get _ _)]
    simp only [occupied, if_true, apply_writes_nil, List.nil_append]
    rfl
  · cases stack : machine.db.contactAllocator.freeStack with
    | nil =>
        apply reached.unchanged (.strgFull, slot)
        rw [hashInsertContact, out_bind_of find]
        simp only [apply_writes_nil, List.nil_append]
        rw [out_bind_of (out_get _ _)]
        simp only [free, if_false, apply_writes_nil, List.nil_append]
        rw [out_bind_of (out_allocateContact_empty stack)]
        rfl
    | cons sector rest =>
        have top := reached.free sector (by rw [stack]; exact List.mem_cons_self)
        have nodup := reached.nodup
        rw [stack, List.nodup_cons] at nodup
        have notEnd : sector ≠ uint16Max := by
          have inside := top.1
          simp at inside ⊢
          omega
        have popped : (freeListAllocate machine.db.contactAllocator).2.freeStack = rest := by
          rw [freeListAllocate, stack]
        obtain ⟨journal, bitmap, log, write, changed⟩ := @write_contact_stored
          (claimedDatabase machine.db slot sector (cstr contact.phone))
          machine.card sector reached.intact (slot_sector_bound top.1) contact
        have run := out_hashInsertContact find free stack notEnd write
        rw [Machine.run_of run]
        refine reached.changed changed top.1 reached.size ?_ ?_ ?_ ?_ ?_
        · exact reached.table.insert _ (by rw [reached.size]; exact bound) free
            (by rw [reached.size]; exact reaches) (stored_phone_none.mpr top.2) _
        · intro record given other _
          rw [← Option.some.inj given]
          exact absent other
        · intro index occupied
          simp only [claimedDatabase, HashTable.setEntry] at occupied ⊢
          by_cases same : index = slot
          · rw [same, Function.update_self]
            rfl
          · rw [Function.update_of_ne same] at occupied ⊢
            exact reached.noChats index occupied
        · dsimp only [claimedDatabase]
          rw [popped]
          exact nodup.2
        · intro index member
          dsimp only [claimedDatabase] at member
          rw [popped] at member
          have before := reached.free index (by rw [stack]; exact List.mem_cons_of_mem sector member)
          have differs : index ≠ sector := fun same => nodup.1 (by rw [← same]; exact member)
          rw [Function.update_of_ne differs]
          exact before
  · apply reached.unchanged (.strgFull, 0)
    rw [hashInsertContact, out_bind_of find]
    rfl

theorem TableReached.rewritten {next : Database} {other : Card Sector} {slot : Nat}
    {number : List Byte} {record : Contact}
    (changed : SlotChanged machine.db.usageBitmap next.usageBitmap machine.card other slot
      (some record))
    (stored : machine.phones slot = some number) (whole : next.htable.size = size)
    (table : PhoneTable next.htable
      (Function.update machine.phones slot (some (cstr record.phone))))
    (fresh : ∀ sector, sector ≠ slot → machine.phones sector ≠ some (cstr record.phone))
    (noChats : ∀ index, (next.htable.htable index).state = .occupied →
      (next.htable.htable index).latestMsgExtent = uint16Max)
    (allocator : next.contactAllocator = machine.db.contactAllocator) :
    TableReached size ⟨next, other⟩ := by
  apply reached.changed changed (reached.stored_bound stored) whole table _ noChats
  · rw [allocator]
    exact reached.nodup
  · intro index member
    rw [allocator] at member
    have before := reached.free index member
    have differs : index ≠ slot := by
      intro same
      obtain ⟨old, place, _⟩ := stored_phone_some stored
      rw [same, place] at before
      cases before.2
    rw [Function.update_of_ne differs]
    exact before
  · intro given same sector differs
    rw [← Option.some.inj same]
    exact fresh sector differs

theorem TableReached.update_phone (prime : size.Prime) (small : size ≤ 46337)
    (oldPhone : List Byte) (new : Contact) :
    TableReached size (machine.run (hashUpdatePhone oldPhone new)).2 := by
  rcases reached.find prime small oldPhone with
    ⟨oldSlot, found, occupied, stored⟩ | ⟨_, ⟨slot, found, _, vacant, _⟩ | ⟨found, _⟩⟩
  · rcases reached.find prime small (cstr new.phone) with
      ⟨slot, find, taken, _⟩ | ⟨absent, ⟨newSlot, find, bound, free, reaches⟩ | ⟨find, _⟩⟩
    · apply reached.unchanged .strgExists
      rw [hashUpdatePhone, out_bind_of found]
      simp only [apply_writes_nil, List.nil_append]
      rw [out_bind_of (out_get _ _)]
      simp only [occupied, ne_eq, not_true_eq_false, if_false, apply_writes_nil, List.nil_append]
      rw [out_bind_of find]
      simp only [apply_writes_nil, List.nil_append]
      rw [out_bind_of (out_get _ _)]
      simp only [taken, if_true, apply_writes_nil, List.nil_append]
      rfl
    · have different : newSlot ≠ oldSlot := fun same => free (by rw [same]; exact occupied)
      obtain ⟨journal, bitmap, log, write, changed⟩ := @write_contact_stored
        { machine.db with
          htable := machine.db.htable.setEntry newSlot
            { machine.db.htable.htable oldSlot with id := hashPhone (cstr new.phone) } }
        machine.card _ reached.intact (slot_sector_bound (reached.stored_bound stored)) new
      have placed : ((machine.db.htable.setEntry newSlot
          { machine.db.htable.htable oldSlot with id := hashPhone (cstr new.phone) }).htable
          newSlot).sector = (machine.db.htable.htable oldSlot).sector := by
        simp [HashTable.setEntry]
      have kept : (machine.db.htable.setEntry newSlot
          { machine.db.htable.htable oldSlot with id := hashPhone (cstr new.phone) }).htable
          oldSlot = machine.db.htable.htable oldSlot :=
        Function.update_of_ne (Ne.symm different) _ _
      have run : out (hashUpdatePhone oldPhone new) machine.db machine.card =
          ((.strgOk,
            { machine.db with
              journal := journal
              usageBitmap := bitmap
              htable := movedTable machine.db.htable oldSlot newSlot
                (hashPhone (cstr new.phone)) }), log) := by
        rw [hashUpdatePhone, out_bind_of found]
        simp only [apply_writes_nil, List.nil_append]
        rw [out_bind_of (out_get _ _)]
        simp only [occupied, ne_eq, not_true_eq_false, if_false, apply_writes_nil,
          List.nil_append]
        rw [out_bind_of find]
        simp only [apply_writes_nil, List.nil_append]
        rw [out_bind_of (out_get _ _)]
        simp only [free, if_false, apply_writes_nil, List.nil_append]
        rw [modifyTable, out_bind_of (out_modify _ _ _)]
        simp only [apply_writes_nil, List.nil_append]
        rw [out_bind_of (out_get _ _)]
        simp only [placed, apply_writes_nil, List.nil_append]
        rw [out_bind_of write]
        simp only [not_true_eq_false, if_false]
        rw [modifyTable, out_bind_of (out_modify _ _ _)]
        simp only [kept, out_pure, List.append_nil]
        rfl
      rw [Machine.run_of run]
      refine reached.rewritten changed stored reached.size ?_ ?_ ?_ ?_
      · exact reached.table.move occupied (by rw [reached.size]; exact bound) free
          (by rw [reached.size]; exact reaches)
      · exact fun sector _ => absent sector
      · intro index state
        simp only [movedTable, HashTable.setEntry] at state ⊢
        by_cases isOld : index = oldSlot
        · rw [isOld, Function.update_self] at state
          cases state
        · rw [Function.update_of_ne isOld] at state ⊢
          by_cases isNew : index = newSlot
          · rw [isNew, Function.update_self]
            exact reached.noChats oldSlot occupied
          · rw [Function.update_of_ne isNew] at state ⊢
            exact reached.noChats index state
      · rfl
    · apply reached.unchanged .strgFull
      rw [hashUpdatePhone, out_bind_of found]
      simp only [apply_writes_nil, List.nil_append]
      rw [out_bind_of (out_get _ _)]
      simp only [occupied, ne_eq, not_true_eq_false, if_false, apply_writes_nil, List.nil_append]
      rw [out_bind_of find]
      rfl
  · apply reached.unchanged .strgEmpty
    rw [hashUpdatePhone, out_bind_of found]
    simp only [apply_writes_nil, List.nil_append]
    rw [out_bind_of (out_get _ _)]
    simp only [vacant, ne_eq, not_false_eq_true, if_true, apply_writes_nil, List.nil_append]
    rfl
  · apply reached.unchanged .strgFull
    rw [hashUpdatePhone, out_bind_of found]
    rfl

theorem TableReached.update_contact (prime : size.Prime) (small : size ≤ 46337)
    (old new : Contact) : TableReached size (machine.run (hashUpdateContact old new)).2 := by
  by_cases same : cstr old.phone = cstr new.phone
  · have begins := not_not.mpr same
    rcases reached.find prime small (cstr new.phone) with
      ⟨slot, find, occupied, stored⟩ | ⟨_, ⟨slot, find, _, vacant, _⟩ | ⟨find, _⟩⟩
    · obtain ⟨journal, bitmap, log, write, changed⟩ := @write_contact_stored machine.db
        machine.card _ reached.intact (slot_sector_bound (reached.stored_bound stored)) new
      have run : out (hashUpdateContact old new) machine.db machine.card =
          ((.strgOk, { machine.db with journal := journal, usageBitmap := bitmap }), log) := by
        rw [hashUpdateContact, if_neg begins, out_bind_of find]
        simp only [apply_writes_nil, List.nil_append]
        rw [out_bind_of (out_get _ _)]
        simp only [occupied, ne_eq, not_true_eq_false, if_false, apply_writes_nil, List.nil_append]
        rw [write]
      rw [Machine.run_of run]
      refine reached.rewritten changed stored reached.size ?_ ?_ reached.noChats rfl
      · rw [← stored, Function.update_eq_self]
        exact reached.table
      · intro sector differs known
        exact differs (reached.distinct _ _ _ known stored)
    · apply reached.unchanged .strgEmpty
      rw [hashUpdateContact, if_neg begins, out_bind_of find]
      simp only [apply_writes_nil, List.nil_append]
      rw [out_bind_of (out_get _ _)]
      simp only [vacant, ne_eq, not_false_eq_true, if_true, apply_writes_nil, List.nil_append]
      rfl
    · apply reached.unchanged .strgFull
      rw [hashUpdateContact, if_neg begins, out_bind_of find]
      rfl
  · rw [hashUpdateContact, if_pos same]
    exact reached.update_phone prime small _ new

theorem TableReached.find_occupied (prime : size.Prime) (small : size ≤ 46337)
    (number : List Byte) :
    (∃ slot, out (findOccupiedEntry number) machine.db machine.card =
        ((some slot, machine.db), []) ∧
      (machine.db.htable.htable slot).state = .occupied ∧
      machine.phones (machine.db.htable.htable slot).sector = some number) ∨
    out (findOccupiedEntry number) machine.db machine.card = ((none, machine.db), []) := by
  rcases reached.find prime small number with
    ⟨slot, find, occupied, stored⟩ | ⟨_, ⟨slot, find, _, vacant, _⟩ | ⟨find, _⟩⟩
  · refine Or.inl ⟨slot, ?_, occupied, stored⟩
    rw [findOccupiedEntry, out_bind_of find]
    simp only [apply_writes_nil, List.nil_append]
    rw [out_bind_of (out_get _ _)]
    simp only [occupied, if_true, out_pure, apply_writes_nil, List.nil_append]
  · right
    rw [findOccupiedEntry, out_bind_of find]
    simp only [apply_writes_nil, List.nil_append]
    rw [out_bind_of (out_get _ _)]
    simp only [vacant, if_false, out_pure, apply_writes_nil, List.nil_append]
  · right
    rw [findOccupiedEntry, out_bind_of find]
    rfl

theorem TableReached.removed {next : Database} {other : Card Sector} {slot : Nat}
    {number : List Byte} {entry : HashEntry} {count : Nat}
    (occupied : (machine.db.htable.htable slot).state = .occupied)
    (stored : machine.phones (machine.db.htable.htable slot).sector = some number)
    (changed : SlotChanged machine.db.usageBitmap next.usageBitmap machine.card other
      (machine.db.htable.htable slot).sector none) (deleted : entry.state = .deleted)
    (table : next.htable = { machine.db.htable.setEntry slot entry with numElems := count })
    (allocator : next.contactAllocator = freeListFree machine.db.contactAllocator
      (machine.db.htable.htable slot).sector) : TableReached size ⟨next, other⟩ := by
  obtain ⟨record, place, _⟩ := stored_phone_some stored
  have bound := reached.stored_bound stored
  have apart : (machine.db.htable.htable slot).sector ∉
      machine.db.contactAllocator.freeStack := by
    intro member
    have nothing := (reached.free _ member).2
    rw [place] at nothing
    cases nothing
  have stack : next.contactAllocator.freeStack = machine.db.contactAllocator.freeStack ∨
      next.contactAllocator.freeStack =
        (machine.db.htable.htable slot).sector :: machine.db.contactAllocator.freeStack := by
    rw [allocator]
    unfold freeListFree
    split
    · exact Or.inl rfl
    · exact Or.inr rfl
  refine reached.changed changed bound (by rw [table]; exact reached.size) ?_ ?_ ?_ ?_ ?_
  · rw [table]
    exact reached.table.delete occupied entry deleted count
  · intro record impossible
    cases impossible
  · intro index state
    rw [table] at state ⊢
    simp only [HashTable.setEntry] at state ⊢
    by_cases same : index = slot
    · rw [same, Function.update_self, deleted] at state
      cases state
    · rw [Function.update_of_ne same] at state ⊢
      exact reached.noChats index state
  · rcases stack with same | pushed
    · rw [same]
      exact reached.nodup
    · rw [pushed]
      exact List.nodup_cons.mpr ⟨apart, reached.nodup⟩
  · intro index member
    by_cases same : index = (machine.db.htable.htable slot).sector
    · rw [same, Function.update_self]
      exact ⟨bound, rfl⟩
    · rw [Function.update_of_ne same]
      rcases stack with old | pushed
      · rw [old] at member
        exact reached.free index member
      · rw [pushed] at member
        rcases List.mem_cons.mp member with here | before
        · exact absurd here same
        · exact reached.free index before

theorem TableReached.remove_contact (prime : size.Prime) (small : size ≤ 46337)
    (number : List Byte) : TableReached size (machine.run (hashRemoveContact number)).2 := by
  rcases reached.find_occupied prime small number with ⟨slot, find, occupied, stored⟩ | find
  · obtain ⟨record, place, _⟩ := stored_phone_some stored
    obtain ⟨journal, bitmap, log, remove, changed⟩ :=
      remove_contact_stored reached.intact (reached.stored_bound stored) place
    let entry : HashEntry :=
      { machine.db.htable.htable slot with sector := uint16Max, state := .deleted }
    have run : out (hashRemoveContact number) machine.db machine.card =
        ((some record,
          { machine.db with
            journal := journal
            usageBitmap := bitmap
            contactAllocator := freeListFree machine.db.contactAllocator
              (machine.db.htable.htable slot).sector
            htable :=
              { machine.db.htable.setEntry slot entry with
                numElems := machine.db.htable.numElems - 1 } }), log) := by
      rw [hashRemoveContact, out_bind_of find]
      simp only [apply_writes_nil, List.nil_append]
      rw [out_bind_of (out_get _ _)]
      simp only [apply_writes_nil, List.nil_append]
      rw [out_bind_of remove]
      dsimp only
      rw [modifyTable, out_bind_of (out_modify _ _ _)]
      simp only [out_pure, List.append_nil]
      rfl
    rw [Machine.run_of run]
    exact reached.removed occupied stored changed rfl rfl rfl
  · apply reached.unchanged none
    rw [hashRemoveContact, out_bind_of find]
    rfl

theorem TableReached.remove (prime : size.Prime) (small : size ≤ 46337) (number : List Byte) :
    TableReached size (machine.run (hashRemove number)).2 := by
  rcases reached.find_occupied prime small number with ⟨slot, find, occupied, stored⟩ | find
  · obtain ⟨record, place, _⟩ := stored_phone_some stored
    have noChat := reached.noChats slot occupied
    have emptyChat : out (removeMessageChat uint16Max) machine.db machine.card =
        ((true, machine.db), []) := by
      rw [removeMessageChat, removeMessageChatLoop, if_pos rfl]
      rfl
    have same : machine.db.htable.setEntry slot
        { machine.db.htable.htable slot with latestMsgExtent := uint16Max } =
        machine.db.htable := by
      rw [← noChat]
      unfold HashTable.setEntry
      rw [Function.update_eq_self]
    obtain ⟨journal, bitmap, log, remove, changed⟩ :=
      remove_contact_stored reached.intact (reached.stored_bound stored) place
    let entry : HashEntry := { machine.db.htable.htable slot with state := .deleted }
    have run : out (hashRemove number) machine.db machine.card =
        ((true,
          { machine.db with
            journal := journal
            usageBitmap := bitmap
            contactAllocator := freeListFree machine.db.contactAllocator
              (machine.db.htable.htable slot).sector
            htable :=
              { machine.db.htable.setEntry slot entry with
                numElems := machine.db.htable.numElems - 1 } }), log) := by
      rw [hashRemove, out_bind_of find]
      simp only [apply_writes_nil, List.nil_append]
      rw [out_bind_of (out_get _ _)]
      simp only [noChat, apply_writes_nil, List.nil_append]
      rw [out_bind_of emptyChat]
      simp only [apply_writes_nil, List.nil_append]
      rw [setLatestMsgExtent, modifyTable, out_bind_of (out_modify _ _ _)]
      simp only [same, apply_writes_nil, List.nil_append]
      rw [out_bind_of (out_get _ _)]
      simp only [apply_writes_nil, List.nil_append]
      rw [out_bind_of remove]
      simp only [Option.isNone_some, Bool.not_true, Bool.or_self, Bool.false_eq_true, if_false]
      rw [modifyTable, out_bind_of (out_modify _ _ _)]
      simp only [out_pure, List.append_nil]
      rfl
    rw [Machine.run_of run]
    exact reached.removed occupied stored changed rfl rfl rfl
  · apply reached.unchanged false
    rw [hashRemove, out_bind_of find]
    rfl

theorem TableReached.call (prime : size.Prime) (small : size ≤ 46337) (call : TableCall) :
    TableReached size (machine.tableCall call) := by
  cases call with
  | insertContact contact => exact reached.insert_contact prime small contact
  | updatePhone oldPhone new => exact reached.update_phone prime small oldPhone new
  | updateContact old new => exact reached.update_contact prime small old new
  | remove phone => exact reached.remove prime small phone
  | removeContact phone => exact reached.remove_contact prime small phone

theorem TableReached.calls (prime : size.Prime) (small : size ≤ 46337) (calls : List TableCall) :
    TableReached size (machine.tableCalls calls) := by
  induction calls generalizing machine with
  | nil => exact reached
  | cons call rest ih => exact ih (reached.call prime small call)

end Reached

/-- An occupied entry whose contact on the card has this phone number. -/
def Machine.EntryPhone (machine : Machine) (slot : Nat) (number : List Byte) : Prop :=
  (machine.db.htable.htable slot).state = .occupied ∧
    ∃ record, out (readContact (machine.db.htable.htable slot).sector) machine.db machine.card =
        ((.ok record, machine.db), []) ∧ cstr record.phone = number

/-- The result of `hash_find_entry`. -/
def Machine.finds (machine : Machine) (number : List Byte) : Option Nat :=
  (machine.run (hashFindEntry number)).1

/-- Once the slot is occupied by a contact with this number, and as long as the contacts
of the other entries stay, the number and all others are found. -/
def Machine.KeepsFindable (machine : Machine) (slot : Nat) (number : List Byte) : Prop :=
  ∀ (next : Machine) (sector count : Nat),
    next.db.htable =
      { machine.db.htable.setEntry slot (occupiedEntry (hashPhone number) sector) with
        numElems := count } →
    next.EntryPhone slot number →
    (∀ other known, machine.EntryPhone other known → next.EntryPhone other known) →
    next.finds number = some slot ∧
      ∀ other known, machine.EntryPhone other known → next.finds known = some other

structure Machine.FindsRight (machine : Machine) (size : Nat) (number : List Byte) : Prop where
  unchanged : (machine.run (hashFindEntry number)).2 = machine
  present : (∃ slot, machine.EntryPhone slot number) →
    ∃ slot, machine.finds number = some slot ∧ machine.EntryPhone slot number ∧
      ∀ other, machine.EntryPhone other number → other = slot
  absent : (∀ slot, ¬machine.EntryPhone slot number) →
    ∀ slot, machine.finds number = some slot → slot < size ∧
      ((machine.db.htable.htable slot).state = .empty ∨
        (machine.db.htable.htable slot).state = .deleted) ∧
      machine.KeepsFindable slot number
  full : machine.finds number = none →
    (∀ slot, ¬machine.EntryPhone slot number) ∧
      ∀ slot < size, (machine.db.htable.htable slot).state = .occupied

theorem Machine.reads_once {machine : Machine} {sector : Nat} {first second : Contact}
    (once : out (readContact sector) machine.db machine.card = ((.ok first, machine.db), []))
    (again : out (readContact sector) machine.db machine.card = ((.ok second, machine.db), [])) :
    first = second := by
  rw [once] at again
  simpa only [Prod.mk.injEq, Except.ok.injEq, and_true] using again

section FindsRight

variable {size : Nat} {machine : Machine} (reached : TableReached size machine)

include reached

theorem TableReached.entry_phone {slot : Nat} {number : List Byte} :
    machine.EntryPhone slot number ↔ (machine.db.htable.htable slot).state = .occupied ∧
      machine.phones (machine.db.htable.htable slot).sector = some number := by
  constructor
  · intro ⟨occupied, record, read, same⟩
    obtain ⟨found, entry⟩ := reached.table.entry slot occupied
    obtain ⟨other, again, is⟩ := phones_read _ found entry.stored
    rw [lossy_none, read] at again
    have records : record = other := by
      simpa only [Prod.mk.injEq, Except.ok.injEq, and_true] using again
    refine ⟨occupied, ?_⟩
    rw [entry.stored, ← is, ← records, same]
  · intro ⟨occupied, stored⟩
    obtain ⟨record, read, same⟩ := phones_read _ number stored
    rw [lossy_none] at read
    exact ⟨occupied, record, read, same⟩

/-- The contact of every stored number is read on the next machine as well. -/
theorem TableReached.stays {next : Machine} {slot sector count : Nat} {number : List Byte}
    (free : (machine.db.htable.htable slot).state ≠ .occupied)
    (table : next.db.htable =
      { machine.db.htable.setEntry slot (occupiedEntry (hashPhone number) sector) with
        numElems := count })
    (kept : ∀ other known, machine.EntryPhone other known → next.EntryPhone other known)
    {place : Nat} {known : List Byte} (stored : machine.phones place = some known) :
    ∃ found, out (readContact place) next.db next.card = ((.ok found, next.db), []) ∧
      cstr found.phone = known := by
  obtain ⟨other, occupied, at_⟩ := reached.table.placed place (by
    rw [stored]
    exact Option.some_ne_none _)
  have differs : other ≠ slot := fun same => free (by rw [← same]; exact occupied)
  have same : next.db.htable.htable other = machine.db.htable.htable other := by
    rw [table]
    exact Function.update_of_ne differs _ _
  rw [← at_] at stored ⊢
  obtain ⟨_, found, again, is⟩ := kept other known (reached.entry_phone.mpr ⟨occupied, stored⟩)
  rw [same] at again
  exact ⟨found, again, is⟩

theorem TableReached.keeps_findable (small : size ≤ 46337) {slot : Nat} {number : List Byte}
    (absent : ∀ sector, machine.phones sector ≠ some number) (bound : slot < size)
    (free : (machine.db.htable.htable slot).state ≠ .occupied)
    (reaches : Reaches (phoneCell machine.db.htable machine.phones) (phonePath size number) slot) :
    machine.KeepsFindable slot number := by
  intro next sector count table placed kept
  have here : next.db.htable.htable slot = occupiedEntry (hashPhone number) sector := by
    rw [table]
    exact Function.update_self _ _ _
  have others : ∀ other, (machine.db.htable.htable other).state = .occupied →
      next.db.htable.htable other = machine.db.htable.htable other := by
    intro other occupied
    have differs : other ≠ slot := fun same => free (by rw [← same]; exact occupied)
    rw [table]
    exact Function.update_of_ne differs _ _
  obtain ⟨_, record, read, same⟩ := placed
  rw [here] at read
  have entered : out (readContact sector) next.db next.card = ((.ok record, next.db), []) := read
  have fresh : machine.phones sector = none := by
    cases stored : machine.phones sector with
    | none => rfl
    | some known =>
        obtain ⟨found, again, is⟩ := reached.stays free table kept stored
        rw [← is, ← Machine.reads_once entered again, same] at stored
        exact absurd stored (absent sector)
  have holds : PhoneTable next.db.htable (Function.update machine.phones sector (some number)) := by
    rw [table]
    exact reached.table.insert number (by rw [reached.size]; exact bound) free
      (by rw [reached.size]; exact reaches) fresh count
  have reads : PhonesRead (fun _ => false) next.db next.card
      (Function.update machine.phones sector (some number)) := by
    intro place known stored
    rw [lossy_none]
    by_cases new : place = sector
    · rw [new, Function.update_self, Option.some.injEq] at stored
      rw [new, ← stored]
      exact ⟨record, entered, same⟩
    · rw [Function.update_of_ne new] at stored
      exact reached.stays free table kept stored
  have distinct : PhonesDistinct (Function.update machine.phones sector (some number)) :=
    reached.distinct.replace fun place _ known stored new => by
      rw [Option.some.injEq] at new
      rw [← new] at stored
      exact absent place stored
  have narrow : next.db.htable.size < 65536 := by
    have whole : next.db.htable.size = machine.db.htable.size := by
      rw [table]
      rfl
    rw [whole, reached.size]
    omega
  have found : ∀ other known, (next.db.htable.htable other).state = .occupied →
      Function.update machine.phones sector (some number)
        (next.db.htable.htable other).sector = some known → next.finds known = some other := by
    intro other known occupied stored
    have find := lossy_find_present holds reads distinct narrow occupied stored
    rw [lossy_none] at find
    rw [Machine.finds, Machine.run_of find]
  constructor
  · apply found slot
    · rw [here]
      rfl
    · rw [here]
      exact Function.update_self _ _ _
  · intro other known entry
    obtain ⟨occupied, stored⟩ := reached.entry_phone.mp entry
    apply found other
    · rw [others other occupied]
      exact occupied
    · rw [others other occupied, Function.update_of_ne]
      · exact stored
      · intro at_
        rw [at_, fresh] at stored
        cases stored

theorem TableReached.finds_right (prime : size.Prime) (small : size ≤ 46337)
    (number : List Byte) : machine.FindsRight size number := by
  rcases reached.find prime small number with
    ⟨slot, find, occupied, stored⟩ | ⟨absent, rest⟩
  · have entry := reached.entry_phone.mpr ⟨occupied, stored⟩
    have result : machine.finds number = some slot := by
      rw [Machine.finds, Machine.run_of find]
    refine ⟨by rw [Machine.run_of find]; rfl, fun _ => ?_, fun absent => ?_, fun nothing => ?_⟩
    · refine ⟨slot, result, entry, fun other same => ?_⟩
      obtain ⟨otherOccupied, otherStored⟩ := reached.entry_phone.mp same
      exact reached.table.separate other slot otherOccupied occupied
        (reached.distinct _ _ number otherStored stored)
    · exact absurd entry (absent slot)
    · rw [result] at nothing
      cases nothing
  · have none_ : ∀ slot, ¬machine.EntryPhone slot number :=
      fun slot entry => absent _ (reached.entry_phone.mp entry).2
    rcases rest with ⟨slot, find, bound, free, reaches⟩ | ⟨find, full⟩
    · have result : machine.finds number = some slot := by
        rw [Machine.finds, Machine.run_of find]
      refine ⟨by rw [Machine.run_of find]; rfl, fun ⟨other, entry⟩ => absurd entry (none_ other),
        fun _ other given => ?_, fun nothing => ?_⟩
      · rw [result, Option.some.injEq] at given
        rw [← given]
        refine ⟨bound, ?_, reached.keeps_findable small absent bound free reaches⟩
        cases state : (machine.db.htable.htable slot).state with
        | empty => exact Or.inl rfl
        | deleted => exact Or.inr rfl
        | occupied => exact absurd state free
      · rw [result] at nothing
        cases nothing
    · have result : machine.finds number = none := by
        rw [Machine.finds, Machine.run_of find]
      refine ⟨by rw [Machine.run_of find]; rfl, fun ⟨other, entry⟩ => absurd entry (none_ other),
        fun _ other given => ?_, fun _ => ⟨none_, full⟩⟩
      rw [result] at given
      cases given

end FindsRight

/-- An empty table of the size and an allocator of contact slots, with no contact sector
in use. -/
structure Machine.EmptyTable (machine : Machine) (size : Nat) : Prop where
  table : machine.db.htable = hashInit size
  unused : ∀ physSector < totalContactSectorSize,
    usageBit machine.db.usageBitmap physSector = false
  nodup : machine.db.contactAllocator.freeStack.Nodup
  inside : ∀ slot ∈ machine.db.contactAllocator.freeStack, slot < hashTableEntries

theorem Machine.EmptyTable.reached {machine : Machine} {size : Nat}
    (empty : machine.EmptyTable size) : TableReached size machine := by
  have nothing : ∀ slot, storedContact machine.db.usageBitmap machine.card slot = none := by
    intro slot
    by_cases inside : slot / 6 < totalContactSectorSize
    · exact stored_contact_unused (empty.unused _ inside)
    · exact stored_contact_outside inside
  have noPhone : ∀ slot, machine.phones slot = none :=
    fun slot => stored_phone_none.mpr (nothing slot)
  have blank : ∀ slot, (machine.db.htable.htable slot).state = .empty := by
    intro slot
    rw [empty.table]
    rfl
  refine ⟨by rw [empty.table]; rfl, ?_, ?_, ?_, ?_, ?_, empty.nodup, ?_⟩
  · refine ⟨fun slot full => absurd (blank slot) full, fun slot occupied => ?_,
      fun sector given => absurd (noPhone sector) given, fun first _ occupied => ?_⟩
    · rw [blank slot] at occupied
      cases occupied
    · rw [blank first] at occupied
      cases occupied
  · intro first second number stored
    rw [noPhone first] at stored
    cases stored
  · intro slot occupied
    rw [blank slot] at occupied
    cases occupied
  · intro physSector inside used
    rw [empty.unused physSector inside] at used
    cases used
  · exact fun slot given => absurd (nothing slot) given
  · exact fun slot member => ⟨empty.inside slot member, nothing slot⟩

/-- After any calls from an empty table on, every lookup is right. -/
theorem hash_find_entry_right (start : Machine) (size : Nat) (prime : size.Prime)
    (small : size ≤ 46337) (empty : start.EmptyTable size) (calls : List TableCall)
    (number : List Byte) : (start.tableCalls calls).FindsRight size number :=
  (empty.reached.calls prime small calls).finds_right prime small number

/-- Five entries and three contact slots. -/
def exampleTable : Machine :=
  ⟨{ blankDatabase with htable := hashInit 5, contactAllocator := ⟨[2, 1, 0], 3, 0⟩ },
    fun _ => nullContent⟩

theorem hash_find_entry_right_example :
    (exampleTable.tableCalls
      [.insertContact (createContact [65#8] [49#8]), .insertContact (createContact [66#8] [50#8]),
        .updatePhone [49#8] (createContact [65#8] [51#8]), .remove [50#8]]).FindsRight 5 [51#8] := by
  apply hash_find_entry_right exampleTable 5 (by norm_num) (by decide)
  refine ⟨rfl, ?_, by decide, by decide⟩
  intro physSector _
  simp [exampleTable, blankDatabase, usageBit, UsageBitmap.zero]

end SdDatabase
