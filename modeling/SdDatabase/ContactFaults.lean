import SdDatabase.HistoryFaults
import SdDatabase.Reboot

/-!
# Adding a contact under failing writes

An add that fails gives back the slot and the entry. A failed write of the bitmap
puts the usage bit back as well; after that write nobody does, so what is left
depends on whether the sector of the slot was in use before.
-/

namespace SdDatabase

open Bytes Device OpenAddressing

set_option autoImplicit false

section Stops

variable {db : Database} {card : Card Sector} {view : View}

/-- A write of `journal_add` for a contact fails. -/
theorem refused_contact_journalAdd (index : Nat) (content : Sector) {count : Nat}
    (within : count < 3) :
    refused (journalAdd .contact index content) db card count =
      .done (false, { db with
        journal := journalDataInit .contact (u16 index)
        usageBitmap := stampBitmap db.usageBitmap (usageBitmapFindSector (u16 index)) }) := by
  have either : count = 0 ∨ count = 1 ∨ count = 2 := by omega
  obtain rfl | rfl | rfl := either <;> rfl

theorem refused_updateUsageBit {dataSector : Nat} (narrow : u16 dataSector = dataSector)
    (used : Bool) (valid : sectorCrcValid
      (bitmapSector db.usageBitmap (usageBitmapFindSector dataSector)) = true) :
    refused (updateUsageBit dataSector used) db card 0 = .done (.strgFail, db) := by
  have left : refused (updateUsageBit dataSector used) db card 0 =
      .done (.strgFail, { db with
        usageBitmap :=
          if usageBit db.usageBitmap dataSector != used then
            setUsageBit (setUsageBit db.usageBitmap dataSector used) dataSector (!used)
          else setUsageBit db.usageBitmap dataSector used }) := by
    unfold updateUsageBit
    rw [narrow]
    cases differs : usageBit db.usageBitmap dataSector != used <;>
      simp only [refused_bind_pure (out_get _ _), differs] <;> rfl
  rw [left]
  cases differs : usageBit db.usageBitmap dataSector != used with
  | true =>
      have changed : usageBit db.usageBitmap dataSector = !used := by
        rw [bne_iff_ne] at differs
        exact Bool.eq_not_of_ne differs
      rw [if_pos rfl, set_undone valid changed]
  | false =>
      have present : usageBit db.usageBitmap dataSector = used := by simpa using differs
      rw [if_neg Bool.false_ne_true, set_present present valid]

/-- A write of a contact ends at its first failed write. The usage bit stays set from the
write behind that of the bitmap on. -/
theorem refused_writeContact (holds : Holds db.usageBitmap card view) {slot : Nat}
    (bound : slot < hashTableEntries) (record : Contact) {content : Sector}
    (read : out (contactSectorForWrite slot) db card = ((.ok content, db), [])) {count : Nat}
    (within : count < 7) :
    ∃ journal, refused (writeContact slot record) db card count =
      .done (.strgFail, { db with
        journal := journal
        usageBitmap :=
          if count < 4 then db.usageBitmap
          else setUsageBit db.usageBitmap (slot / 6) true }) := by
  have inside := slot_sector_bound bound
  have capacity : contactSectorCapacity = 6 := by simp
  have dataSector : contactDataSector slot = slot / 6 := by simp
  have narrow : u16 (slot / 6) = slot / 6 := u16_of_lt (by simp at inside; omega)
  have stamped := contact_stamped holds.bits bound
  have valid := holds.bits.stamped (usageBitmapFindSector (slot / 6)) (by
    simp at bound ⊢
    omega)
  have saved := out_journalAdd db card .contact content (show slot / 6 < 65536 by
    simp at inside
    omega)
  have copies : (journalAddLog .contact (slot / 6) content db.usageBitmap).length = 3 := rfl
  simp only [JrnlType.savesBitmap, if_true, stamped] at saved
  unfold writeContact
  rw [refused_bind_pure read]
  dsimp only
  rw [dataSector, capacity]
  by_cases early : count < 3
  · have stops := @refused_contact_journalAdd db card (slot / 6) content count early
    rw [narrow, stamped] at stops
    have soon : count < 4 := by omega
    rw [refused_bind_stops (by rw [saved, copies]; exact early) stops]
    simp only [soon, if_true]
    exact ⟨_, rfl⟩
  · obtain ⟨later, rfl⟩ : ∃ later, count = 3 + later := ⟨count - 3, by omega⟩
    rw [refused_bind_of saved copies]
    simp only [Bool.not_true, Bool.false_eq_true, if_false]
    by_cases first : later = 0
    · subst first
      have stops := @refused_updateUsageBit
        { db with journal := journalDataInit .contact (slot / 6) }
        (applyWrites (journalAddLog .contact (slot / 6) content db.usageBitmap) card) _ narrow true
        valid
      rw [refused_bind_stops Nat.zero_lt_one stops]
      exact ⟨_, rfl⟩
    · obtain ⟨late, rfl⟩ : ∃ late, later = 1 + late := ⟨later - 1, by omega⟩
      have either : late = 0 ∨ late = 1 ∨ late = 2 := by omega
      have soon : ¬3 + (1 + late) < 4 := by omega
      rw [refused_bind_one (out_updateUsageBit _ _ _ _), narrow]
      simp only [soon, if_false, reduceCtorEq]
      obtain rfl | rfl | rfl := either <;> exact ⟨_, rfl⟩

end Stops

theorem FreeHold.returned {list : FreeList} {size : Nat} {used : Nat → Prop}
    (free : FreeHold list size used) {index : Nat} {rest : List Nat}
    (stack : list.freeStack = index :: rest) :
    freeListFree (freeListAllocate list).2 index = list := by
  have taken : (freeListAllocate list).2 =
      { list with freeStack := rest, usedCount := list.usedCount + 1 } := by
    rw [freeListAllocate, stack]
  have members : list.freeStack ⊆ List.range size := by
    intro other member
    exact List.mem_range.mpr ((free.mem other).mp member).1
  have length := (List.subperm_of_subset free.nodup members).length_le
  rw [List.length_range, stack, List.length_cons] at length
  have room : ¬list.capacity ≤ rest.length := by
    rw [free.capacity]
    omega
  rw [taken, freeListFree, if_neg room]
  dsimp only
  rw [Nat.add_sub_cancel, ← stack]

theorem entry_put_back (table : HashTable) (slot : Nat) (entry : HashEntry) :
    { ({ table.setEntry slot entry with numElems := table.numElems + 1 } : HashTable).setEntry slot
        (table.htable slot) with
      numElems := table.numElems + 1 - 1 } = table := by
  unfold HashTable.setEntry
  dsimp only
  rw [Function.update_idem, Function.update_eq_self, Nat.add_sub_cancel]

section Adding

variable {db : Database} {card : Card Sector} {view : View} {chain : Nat → List Nat}
  {listing : Listing} {identity : Identity} {sector : Nat} {rest : List Nat}

def failedDatabase (db : Database) (sector count : Nat) (journal : JournalHeader) : Database :=
  { db with
    journal := journal
    usageBitmap :=
      if count < 4 then db.usageBitmap else setUsageBit db.usageBitmap (sector / 6) true }

section Claimed

variable (core : Core db card view chain) (stack : db.contactAllocator.freeStack = sector :: rest)
  {hashSlot : Nat} (find : out (hashFindEntry identity.phone) db card = ((some hashSlot, db), []))
  (free : (db.htable.htable hashSlot).state ≠ .occupied) {content : Sector}
  (read : out (contactSectorForWrite sector) (claimedDatabase db hashSlot sector identity.phone)
    card = ((.ok content, claimedDatabase db hashSlot sector identity.phone), []))

include core stack find free read

theorem refused_hashInsertContact {count : Nat} (within : count < 7) :
    count < (out (hashInsertContact identity.record) db card).2.length ∧
      ∃ journal, refused (hashInsertContact identity.record) db card count =
        .done ((.strgFail, hashSlot), failedDatabase db sector count journal) := by
  obtain ⟨inside, _⟩ := core.contactFree.top stack
  have notEnd : sector ≠ uint16Max := by
    simp at inside ⊢
    omega
  obtain ⟨journal, stops⟩ := @refused_writeContact
    (claimedDatabase db hashSlot sector identity.phone) card view core.holds sector inside
    identity.record content read count within
  have write := @out_writeContact (claimedDatabase db hashSlot sector identity.phone) card view
    core.holds sector inside identity.record content read
  have insert := @out_hashInsertContact db card identity.record hashSlot sector rest _ _
    (by rw [record_phone_cstr]; exact find) free stack notEnd
    (by rw [record_phone_cstr]; exact write)
  refine ⟨by rw [insert]; exact within, journal, ?_⟩
  rw [hashInsertContact, record_phone_cstr, refused_bind_pure find]
  dsimp only
  rw [refused_bind_pure (out_get _ _)]
  simp only [free, if_false]
  rw [refused_bind_pure (out_allocateContact stack)]
  simp only [notEnd, if_false]
  rw [modifyTable, refused_modify]
  rw [claimedDatabase] at stops write
  rw [refused_bind_stops _ stops]
  · have table := entry_put_back db.htable hashSlot
      (occupiedEntry (hashPhone identity.phone) sector)
    have undone : ({ failedDatabase db sector count journal with
        contactAllocator := freeListFree (freeListAllocate db.contactAllocator).2 sector
        htable :=
          { ({ db.htable.setEntry hashSlot (occupiedEntry (hashPhone identity.phone) sector) with
                numElems := db.htable.numElems + 1 } : HashTable).setEntry hashSlot
              (db.htable.htable hashSlot) with
            numElems := db.htable.numElems + 1 - 1 } } : Database) =
        failedDatabase db sector count journal := by
      rw [core.contactFree.returned stack, table]
      rfl
    exact congrArg (fun next : Database =>
      (Prog.done ((StrgRet.strgFail, hashSlot), next) : Prog Sector _)) undone
  · rw [write]
    exact within

end Claimed

/-- The writes of an add: three to the journal, the bitmap, the sector, two commits. -/
def contactAddLog (db : Database) (sector : Nat) (identity : Identity) (content : Sector) :
    WriteLog Sector :=
  transactionLog .contact (sector / 6) content db.usageBitmap
    (contactWork db.usageBitmap sector
      ((ofSector content : ContactSector).put (sector % 6) identity.record)) 2

/-- An add that has a slot to write to, on a card that shows at least the contacts of the
table and perhaps a left-over in that slot. -/
theorem out_contact_add (mounted : Mounted db card view chain listing)
    {name phone : Option CString} (checked : checkedIdentity name phone = some identity)
    (absent : ∀ slot other, view.contact slot = some other → other.phone ≠ identity.phone)
    (stack : db.contactAllocator.freeStack = sector :: rest) (journal : JournalHeader)
    {other : Card Sector} {seen : View} (holds : Holds db.usageBitmap other seen)
    (part : ∀ slot identity, view.contact slot = some identity → seen.contact slot = some identity)
    (slot : seen.setContact sector (some identity) = view.setContact sector (some identity)) :
    let memory := { db with journal := journal }
    ∃ hashSlot content next,
      out (hashFindEntry identity.phone) memory other = ((some hashSlot, memory), []) ∧
      (db.htable.htable hashSlot).state ≠ .occupied ∧
      out (contactSectorForWrite sector) (claimedDatabase memory hashSlot sector identity.phone)
        other = ((.ok content, claimedDatabase memory hashSlot sector identity.phone), []) ∧
      SlotsHold (ofSector content) (fun position => seen.contact (sector / 6 * 6 + position)) ∧
      out (databaseContactAdd name phone) memory other =
        ((.strgOk, next), contactAddLog db sector identity content) := by
  intro memory
  obtain ⟨nameValid, phoneValid⟩ := checked_identity_some checked
  obtain ⟨inside, unused⟩ := mounted.core.contactFree.top stack
  have fresh : view.contact sector = none := not_not.mp unused
  have notEnd : sector ≠ uint16Max := by
    simp at inside ⊢
    omega
  obtain ⟨hashSlot, find, bound, free, reaches⟩ := @find_absent_part memory other seen _ _
    mounted.core.table holds.contacts part _ absent
  let claimed := claimedDatabase memory hashSlot sector identity.phone
  obtain ⟨content, read, slots, _⟩ := @out_contactSectorForWrite claimed other seen holds.contacts
    sector inside
  have write := @out_writeContact claimed other seen holds sector inside identity.record content read
  have insert := @out_hashInsertContact memory other identity.record hashSlot sector rest _ _
    (by rw [record_phone_cstr]; exact find) free stack notEnd
    (by rw [record_phone_cstr]; exact write)
  have written := @write_contact_holds claimed other seen holds sector inside identity _ slots
  rw [slot] at written
  have shown := written.same_data (transaction_final .contact (sector / 6) content db.usageBitmap
    (contactWork db.usageBitmap sector
      ((ofSector content : ContactSector).put (sector % 6) identity.record)) other Nat.two_pos).2
  have room : listing.length < hashTableEntries := by
    have count := mounted.room
    rw [stack, List.length_cons] at count
    omega
  obtain ⟨insertRun, _⟩ := @index_insert
    (enteredDatabase db hashSlot sector identity (journalDataInit .contact (sector / 6)).committed
      (setUsageBit db.usageBitmap (sector / 6) true)) _ _ listing shown.contacts _ mounted.names
    hashSlot identity (contact_at_free free)
    (contact_at_entered mounted.core fresh hashSlot _ _) (fresh_phone mounted absent) room
  have run : ∃ next, out (databaseContactAdd name phone) memory other =
      ((.strgOk, next), contactAddLog db sector identity content) := by
    unfold databaseContactAdd
    simp only [nameValid, phoneValid]
    rw [← List.append_nil (contactAddLog db sector identity content)]
    exact ⟨_, out_bind_both insert (out_bind_both insertRun rfl)⟩
  obtain ⟨next, run⟩ := run
  exact ⟨hashSlot, content, next, find, free, read, slots, run⟩

theorem contact_add_stops (mounted : Mounted db card view chain listing)
    {name phone : Option CString} (checked : checkedIdentity name phone = some identity)
    (absent : ∀ slot other, view.contact slot = some other → other.phone ≠ identity.phone)
    (stack : db.contactAllocator.freeStack = sector :: rest) :
    ∃ content next,
      SlotsHold (ofSector content) (fun position => view.contact (sector / 6 * 6 + position)) ∧
      out (databaseContactAdd name phone) db card =
        ((.strgOk, next), contactAddLog db sector identity content) ∧
      ∀ count < 7, ∃ journal, refused (databaseContactAdd name phone) db card count =
        .done (.strgFail, failedDatabase db sector count journal) := by
  obtain ⟨nameValid, phoneValid⟩ := checked_identity_some checked
  obtain ⟨hashSlot, content, next, find, free, read, slots, run⟩ := out_contact_add mounted checked
    absent stack db.journal mounted.core.holds (fun _ _ => id) rfl
  refine ⟨content, next, slots, run, ?_⟩
  intro count within
  obtain ⟨inside, journal, stops⟩ :=
    refused_hashInsertContact mounted.core stack find free read within
  refine ⟨journal, ?_⟩
  unfold databaseContactAdd
  simp only [nameValid, phoneValid]
  exact (refused_bind_stops inside stops).trans rfl

theorem bit_work_present (bits : BitmapHolds db.usageBitmap card) {dataSector : Nat}
    (low : dataSector < totalDataSectorSize) (used : usageBit db.usageBitmap dataSector = true) :
    applyWrites (bitWork db.usageBitmap dataSector true) card = card := by
  have inside : usageBitmapFindSector dataSector < usageBitmapSectorSize := by
    simp at low ⊢
    omega
  have same := set_present used (bits.stamped _ inside)
  have stored := bits.mirror _ inside
  rw [bitWork, same, ← stored]
  exact Function.update_eq_self _ _

/-- What the card shows after a part of the writes of an add, as long as the usage bit is the
one from before. -/
theorem failed_card_holds (holds : Holds db.usageBitmap card view)
    (bound : sector < hashTableEntries) {content : Sector}
    (slots : SlotsHold (ofSector content) fun position => view.contact (sector / 6 * 6 + position))
    {count : Nat} (within : count < 7)
    (kept : count < 4 ∨ usageBit db.usageBitmap (sector / 6) = true) :
    ∃ seen, (seen = view ∨ seen = view.setContact sector (some identity)) ∧
      Holds db.usageBitmap
        (applyWrites ((contactAddLog db sector identity content).take count) card) seen := by
  let copies := journalAddLog .contact (sector / 6) content db.usageBitmap
  have saved : Holds db.usageBitmap (applyWrites copies card) view :=
    holds.same_data (same_data_of_journal_writes card (journal_add_log_targets _ _ _ _))
  by_cases early : count < 4
  · refine ⟨view, Or.inl rfl, holds.same_data (same_data_of_journal_writes card ?_)⟩
    intro entry member
    have whole : (contactAddLog db sector identity content).take count = copies.take count :=
      List.take_append_of_le_length (show count ≤ 3 by omega)
    rw [whole] at member
    exact journal_add_log_targets _ _ _ _ entry (List.mem_of_mem_take member)
  · have used := kept.resolve_left early
    have low := contact_low bound
    have same : setUsageBit db.usageBitmap (sector / 6) true = db.usageBitmap :=
      set_present used (holds.bits.stamped _ (by simp at bound ⊢; omega))
    have written := write_contact_holds saved bound identity slots
    rw [same] at written
    have commits : ∀ fewer, SameData (applyWrites ((contactAddLog db sector identity content).take
        (5 + fewer)) card) (applyWrites (contactWork db.usageBitmap sector
          ((ofSector content : ContactSector).put (sector % 6) identity.record))
            (applyWrites copies card)) := by
      intro fewer
      have whole : (contactAddLog db sector identity content).take (5 + fewer) =
          copies ++ (contactWork db.usageBitmap sector
            ((ofSector content : ContactSector).put (sector % 6) identity.record) ++
              (commitLog .contact (sector / 6) 2).take fewer) := by
        rw [Nat.add_comm]
        rfl
      rw [whole, apply_writes_append, apply_writes_append]
      refine same_data_of_journal_writes _ ?_
      intro entry member
      rw [List.eq_of_mem_replicate (List.mem_of_mem_take member)]
      simp
    have either : count = 4 ∨ ∃ fewer, count = 5 + fewer := by
      by_cases first : count = 4
      · exact Or.inl first
      · exact Or.inr ⟨count - 5, by omega⟩
    rcases either with rfl | ⟨fewer, rfl⟩
    · refine ⟨view, Or.inl rfl, ?_⟩
      have whole : (contactAddLog db sector identity content).take 4 =
          copies ++ bitWork db.usageBitmap (sector / 6) true := rfl
      rw [whole, apply_writes_append, bit_work_present saved.bits low used]
      exact saved
    · exact ⟨_, Or.inr rfl, written.same_data (commits fewer)⟩

section Behind

variable {other : Card Sector} {seen : View} (journal : JournalHeader)
  (holds : Holds db.usageBitmap other seen)
  (part : ∀ slot identity, view.contact slot = some identity → seen.contact slot = some identity)

include holds part

theorem same_find_occupied (core : Core db card view chain) (number : List Byte) :
    ∃ answer, out (findOccupied number) db card = ((answer, db), []) ∧
      out (findOccupied number) { db with journal := journal } other =
        ((answer, { db with journal := journal }), []) := by
  have later := @look_up_part db card view chain core { db with journal := journal } other seen rfl
    holds.contacts part number
  rcases look_up core number with ⟨hashSlot, identity, occupied, stored, same, run⟩ | ⟨absent, run⟩
  · rcases later with ⟨place, found, also, here, alike, laterRun⟩ | ⟨absent, _⟩
    · have sector := core.distinct _ _ _ _ stored here (same.trans alike.symm)
      rw [core.table.separate _ _ also occupied sector.symm] at laterRun
      exact ⟨_, run, laterRun⟩
    · exact absurd same (absent _ _ stored)
  · rcases later with ⟨place, found, _, here, alike, _⟩ | ⟨_, laterRun⟩
    · exact absurd alike (absent _ _ here)
    · exact ⟨_, run, laterRun⟩

end Behind

/-- A failed write that leaves the usage bit from before leaves the memory from before, but
for the journal header. -/
theorem failed_database_kept (bits : BitmapHolds db.usageBitmap card)
    (bound : sector < hashTableEntries) {count : Nat}
    (kept : count < 4 ∨ usageBit db.usageBitmap (sector / 6) = true) (journal : JournalHeader) :
    failedDatabase db sector count journal = { db with journal := journal } := by
  unfold failedDatabase
  by_cases early : count < 4
  · rw [if_pos early]
  · have present := set_present (kept.resolve_left early)
      (bits.stamped _ (by simp at bound ⊢; omega))
    rw [if_neg early, present]

theorem contact_add_writes (mounted : Mounted db card view chain listing)
    {name phone : Option CString} (some_ : (out (databaseContactAdd name phone) db card).2 ≠ []) :
    ∃ identity sector rest, checkedIdentity name phone = some identity ∧
      (∀ slot other, view.contact slot = some other → other.phone ≠ identity.phone) ∧
      db.contactAllocator.freeStack = sector :: rest := by
  cases checked : checkedIdentity name phone with
  | none =>
      rw [contact_add_refused name phone checked] at some_
      exact absurd rfl some_
  | some identity =>
      obtain ⟨nameValid, phoneValid⟩ := checked_identity_some checked
      unfold databaseContactAdd at some_
      simp only [nameValid, phoneValid] at some_
      change (out (hashInsertContact identity.record >>= _) db card).2 ≠ [] at some_
      rcases Core.known_or_new view identity.phone with ⟨slot, other, stored, same⟩ | absent
      · obtain ⟨hashSlot, occupied, rfl, _⟩ := mounted.core.slot_of stored
        rw [out_bind_of (hash_insert_contact_known mounted.core occupied stored same)] at some_
        exact absurd rfl some_
      · cases stack : db.contactAllocator.freeStack with
        | nil =>
            obtain ⟨hashSlot, run⟩ := hash_insert_contact_full mounted.core identity absent stack
            rw [out_bind_of run] at some_
            exact absurd rfl some_
        | cons sector rest => exact ⟨identity, sector, rest, rfl, absent, rfl⟩

end Adding

/-- The phone numbers lead to the slots they led to, the number of entries, the free slots, the
usage bitmap in memory and the name index are those from before, every contact is read as
before, and the same add on a healthy card succeeds. -/
structure LeavesNoTrace (before after : Machine) (name phone : Option CString) : Prop where
  slots : ∀ number, (after.run (findOccupied number)).1 = (before.run (findOccupied number)).1
  count : after.db.htable.numElems = before.db.htable.numElems
  free : ∀ slot, slot ∈ after.db.contactAllocator.freeStack ↔
    slot ∈ before.db.contactAllocator.freeStack
  bitmap : after.db.usageBitmap = before.db.usageBitmap
  names : after.db.nameIndex = before.db.nameIndex
  contacts : ∀ number given, (after.run (databaseContactGet number given)).1 =
    (before.run (databaseContactGet number given)).1
  again : (after.run (databaseContactAdd name phone)).1 = .strgOk

/-- The add leaves no trace if it does not succeed while the writes fail as the pattern says. -/
def Machine.AddUndone (machine : Machine) (name phone : Option CString) (writes : Nat → Bool) :
    Prop :=
  let outcome := machine.attempt (databaseContactAdd name phone) writes
  outcome.1 ≠ .strgOk → LeavesNoTrace machine outcome.2 name phone

theorem no_trace_of_kept {machine : Machine} {view : View} {chain : Nat → List Nat}
    {listing : Listing} (mounted : Mounted machine.db machine.card view chain listing)
    {name phone : Option CString} {identity : Identity}
    (checked : checkedIdentity name phone = some identity)
    (absent : ∀ slot other, view.contact slot = some other → other.phone ≠ identity.phone)
    {sector : Nat} {rest : List Nat}
    (stack : machine.db.contactAllocator.freeStack = sector :: rest) {content : Sector}
    (slots : SlotsHold (ofSector content) fun position => view.contact (sector / 6 * 6 + position))
    {count : Nat} (within : count < 7)
    (kept : count < 4 ∨ usageBit machine.db.usageBitmap (sector / 6) = true)
    (journal : JournalHeader) :
    LeavesNoTrace machine
      ⟨failedDatabase machine.db sector count journal,
        applyWrites ((contactAddLog machine.db sector identity content).take count) machine.card⟩
      name phone := by
  obtain ⟨bound, unused⟩ := mounted.core.contactFree.top stack
  have fresh : view.contact sector = none := not_not.mp unused
  obtain ⟨seen, either, holds⟩ := @failed_card_holds _ _ _ identity _ mounted.core.holds bound
    content slots count within kept
  have part : ∀ slot other, view.contact slot = some other → seen.contact slot = some other := by
    intro slot other stored
    rcases either with rfl | rfl
    · exact stored
    · have different : slot ≠ sector := by
        rintro rfl
        rw [fresh] at stored
        cases stored
      rw [set_contact_other _ _ different, stored]
  have slot : seen.setContact sector (some identity) = view.setContact sector (some identity) := by
    rcases either with rfl | rfl
    · rfl
    · unfold View.setContact
      rw [Function.update_idem]
  rw [failed_database_kept mounted.core.holds.bits bound kept]
  refine ⟨fun number => ?_, rfl, fun _ => Iff.rfl, rfl, rfl, fun number given => ?_, ?_⟩
  · obtain ⟨answer, before, after⟩ := same_find_occupied journal holds part mounted.core number
    rw [Machine.run_of before, Machine.run_of after]
  · have before := contact_get_spec mounted number given
    have after := @contact_get_part _ _ _ _ _ mounted { machine.db with journal := journal } _ _ rfl
      holds.contacts part number given
    rw [Machine.run_of before, Machine.run_of after]
  · obtain ⟨_, _, _, _, _, _, _, run⟩ := out_contact_add mounted checked absent stack journal holds
      part slot
    rw [Machine.run_of run]

/-- The first failed write decides. -/
theorem add_undone_first {machine : Machine} {view : View} {chain : Nat → List Nat}
    {listing : Listing} (mounted : Mounted machine.db machine.card view chain listing)
    {name phone : Option CString} {identity : Identity}
    (checked : checkedIdentity name phone = some identity)
    (absent : ∀ slot other, view.contact slot = some other → other.phone ≠ identity.phone)
    {sector : Nat} {rest : List Nat}
    (stack : machine.db.contactAllocator.freeStack = sector :: rest) {writes : Nat → Bool}
    {first : Nat} (within : first < 7) (accepted : ∀ index < first, writes index = true)
    (failed : writes first = false) :
    machine.AddUndone name phone writes ↔
      first < 4 ∨ usageBit machine.db.usageBitmap (sector / 6) = true := by
  obtain ⟨content, next, slots, run, stops⟩ := contact_add_stops mounted checked absent stack
  obtain ⟨journal, stop⟩ := stops first within
  have ends := Machine.attempt_stops run within accepted failed stop
  rw [Machine.AddUndone, ends]
  constructor
  · intro undone
    by_cases soon : first < 4
    · exact Or.inl soon
    · right
      have same := (undone fun ok => by cases ok).bitmap
      dsimp only [failedDatabase] at same
      rw [if_neg soon] at same
      rw [← same, usage_bit_set, if_pos rfl]
  · intro kept _
    exact no_trace_of_kept mounted checked absent stack slots within kept journal

/-- An add during which a write fails leaves no trace if and only if one of its first four writes
fails, up to that of the bitmap, or the sector of the slot it takes was in use before. -/
theorem contact_add_undone_iff {machine : Machine} (reachable : Reachable machine)
    (name phone : Option CString) (writes : Nat → Bool)
    (fails : ∃ index < (out (databaseContactAdd name phone) machine.db machine.card).2.length,
      writes index = false) :
    machine.AddUndone name phone writes ↔
      (∃ index < 4, writes index = false) ∨
        ∀ slot ∈ machine.db.contactAllocator.freeStack.head?,
          usageBit machine.db.usageBitmap (slot / contactSectorCapacity) = true := by
  obtain ⟨_, view, chain, listing, mounted, _, _⟩ := reachable.sound
  obtain ⟨index, inside, refuses⟩ := fails
  obtain ⟨identity, sector, rest, checked, absent, stack⟩ :=
    contact_add_writes mounted (List.ne_nil_of_length_pos (Nat.zero_lt_of_lt inside))
  obtain ⟨content, next, _, run, _⟩ := contact_add_stops mounted checked absent stack
  have capacity : contactSectorCapacity = 6 := by simp
  have short : index < 7 := by
    rw [run] at inside
    exact inside
  simp only [stack, List.head?_cons, Option.mem_some_iff, forall_eq', capacity]
  cases first_failure writes 7 with
  | inl accepted =>
      rw [accepted index short] at refuses
      cases refuses
  | inr refused_ =>
      obtain ⟨first, within, accepted, failed⟩ := refused_
      rw [add_undone_first mounted checked absent stack within accepted failed]
      refine or_congr_left ⟨fun soon => ⟨first, soon, failed⟩, ?_⟩
      rintro ⟨early, soon, fails⟩
      by_contra late
      rw [accepted early (by omega)] at fails
      cases fails

/-- The first contact goes to a slot in a sector that was never in use. -/
theorem first_add :
    ∃ identity sector rest,
      checkedIdentity (some exampleText) (some exampleText) = some identity ∧
      exampleMachine.format.db.contactAllocator.freeStack = sector :: rest ∧
      usageBit exampleMachine.format.db.usageBitmap (sector / 6) = false := by
  have some_ : formattedDatabase.contactAllocator.freeStack ≠ [] := by
    unfold formattedDatabase
    rw [ne_eq, List.reverse_eq_nil_iff, List.range_eq_nil]
    simp
  obtain ⟨sector, rest, stack⟩ := List.exists_cons_of_ne_nil some_
  rw [Machine.format_eq]
  exact ⟨_, sector, rest, rfl, stack, format_bitmap_bit _⟩

/-- The bitmap is not written. -/
theorem contact_add_undone_iff_example :
    exampleMachine.format.AddUndone (some exampleText) (some exampleText)
      (fun index => decide (index ≠ 3)) := by
  obtain ⟨identity, sector, rest, checked, stack, _⟩ := first_add
  obtain ⟨content, next, _, run, _⟩ := contact_add_stops exampleMachine.format_mounts checked
    (fun slot other stored => by cases stored) stack
  refine (contact_add_undone_iff (.formatted exampleMachine) _ _ _ ⟨3, ?_, rfl⟩).mpr
    (Or.inl ⟨3, by decide, rfl⟩)
  rw [run]
  exact Nat.lt_of_sub_eq_succ rfl

/-- The bitmap is written and the sector of the contact is not: the usage bit stays set. -/
theorem contact_add_leaves_bit : Reachable exampleMachine.format ∧
    ¬exampleMachine.format.AddUndone (some exampleText) (some exampleText)
      (fun index => decide (index ≠ 4)) := by
  obtain ⟨identity, sector, rest, checked, stack, unused⟩ := first_add
  refine ⟨.formatted exampleMachine, ?_⟩
  rw [@add_undone_first _ _ _ _ exampleMachine.format_mounts _ _ _ checked
    (fun slot other stored => by cases stored) _ _ stack _ 4 (by decide)
    (fun index below => decide_eq_true below.ne) rfl, unused]
  exact fun kept => kept.elim (by decide) Bool.false_ne_true

end SdDatabase
