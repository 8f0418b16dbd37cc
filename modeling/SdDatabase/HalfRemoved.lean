import SdDatabase.SharedChat

/-!
# A contact removal that fails

`hash_remove` removes the record of a contact even when its chat could not be removed, and
then reports a failure, which puts the contact back into the name index. Its entry names a
record that is gone, and the pages of the listing that show the contact end there.
-/

namespace SdDatabase

open Bytes Device

set_option autoImplicit false

section HalfRemoved

variable {db : Database} {card : Card Sector} {view : View} {chain : Nat → List Nat}
  {listing : Listing} {hashSlot : Nat} {identity : Identity}

/-- The contact is gone from the card, and its table entry is still there. -/
def halfRemoved (db : Database) (hashSlot : Nat) (allocator : FreeList) (journal : JournalHeader)
    (bitmap : UsageBitmap) : Database :=
  { db with
    journal := journal
    usageBitmap := bitmap
    contactAllocator := freeListFree db.contactAllocator (db.htable.htable hashSlot).sector
    messageAllocator := allocator
    htable := latestTable db.htable hashSlot uint16Max }

theorem hash_remove_stops (core : Core db card view chain)
    (occupied : (db.htable.htable hashSlot).state = .occupied)
    (stored : view.contact (db.htable.htable hashSlot).sector = some identity) {removed : Nat}
    (inside : removed < (chain (db.htable.htable hashSlot).sector).length) :
    ∃ allocator journal bitmap log later,
      exec (hashRemove identity.phone) db (.failing (allBut (5 * removed))) card =
        ((false, halfRemoved db hashSlot allocator journal bitmap), .failing later,
          applyWrites log card) ∧
      Holds bitmap (applyWrites log card)
        ((view.clearSectors ((chain (db.htable.htable hashSlot).sector).take removed)).setContact
          (db.htable.htable hashSlot).sector none) := by
  have short := core.short (db.htable.htable hashSlot).sector
  obtain ⟨journal, bitmap, log, later, stopped, accepts, leads⟩ := @remove_loop_stops db card view
    removed _ _ 65537 core.idle core.holds (core.chats.linked (db.htable.htable hashSlot).sector)
    (core.chats.separate _) inside (by simp at short; omega)
  have sectorSame := (latest_table_entry db.htable hashSlot uint16Max hashSlot).2
  obtain ⟨lastJournal, lastBitmap, lastLog, run, lastLeads⟩ := @remove_contact_run
    { db with
      journal := journal
      usageBitmap := bitmap
      messageAllocator := ((chain (db.htable.htable hashSlot).sector).take removed).foldl
        freeListFree db.messageAllocator
      htable := latestTable db.htable hashSlot uint16Max } _ _ leads.idle leads.holds
    (db.htable.htable hashSlot).sector identity stored
  have second := @exec_accepted _ _ _ (removeContact (db.htable.htable hashSlot).sector) { db with
      journal := journal
      usageBitmap := bitmap
      messageAllocator := ((chain (db.htable.htable hashSlot).sector).take removed).foldl
        freeListFree db.messageAllocator
      htable := latestTable db.htable hashSlot uint16Max } (applyWrites log card) later
    fun index _ => accepts index
  rw [run] at second
  have found := out_findOccupied_present core.table core.holds.contacts (fun _ _ => id)
    core.distinct occupied stored
  refine ⟨((chain (db.htable.htable hashSlot).sector).take removed).foldl freeListFree
    db.messageAllocator, lastJournal, lastBitmap, log ++ lastLog,
    fun index => later (index + lastLog.length), ?_, ?_⟩
  · rw [apply_writes_append, hashRemove, exec_bind_of (exec_quiet found _)]
    dsimp only
    rw [exec_bind_of (exec_get _ _ _), latest_of core occupied, removeMessageChat,
      exec_bind_of stopped, setLatestMsgExtent, modifyTable, exec_bind_of (exec_modify _ _ _ _),
      exec_bind_of (exec_get _ _ _)]
    change exec (removeContact ((latestTable db.htable hashSlot uint16Max).htable
      hashSlot).sector >>= _) _ _ _ = _
    rw [sectorSame]
    exact (exec_bind_of second).trans rfl
  · rw [apply_writes_append]
    exact lastLeads.holds

theorem other_sector (mounted : Mounted db card view chain listing)
    (occupied : (db.htable.htable hashSlot).state = .occupied)
    (stored : view.contact (db.htable.htable hashSlot).sector = some identity)
    {item : Nat × Identity} (member : item ∈ listing) (different : item.1 ≠ hashSlot) :
    (db.htable.htable item.1).sector ≠ (db.htable.htable hashSlot).sector := by
  intro same
  have here := mounted.listed_of occupied stored
  have equal := List.inj_on_of_nodup_map mounted.slots_nodup member here same
  exact different (congrArg Prod.fst equal)

theorem index_put_back (mounted : Mounted db card view chain listing)
    (occupied : (db.htable.htable hashSlot).state = .occupied)
    (stored : view.contact (db.htable.htable hashSlot).sector = some identity) {next : Database}
    {after : Card Sector} {seen : View}
    (contacts : ContactsHold next.usageBitmap after seen.contact)
    (index : next.nameIndex = listedIndex (unlisted hashSlot listing))
    (places : ∀ slot, (next.htable.htable slot).sector = (db.htable.htable slot).sector)
    (kept : ∀ sector, sector ≠ (db.htable.htable hashSlot).sector →
      seen.contact sector = view.contact sector) :
    out (sortedArrayInsert identity.record hashSlot) next after =
      ((.strgOk, { next with nameIndex := db.nameIndex }), []) := by
  have member := mounted.listed_of occupied stored
  have others : ∀ item ∈ unlisted hashSlot listing, item ∈ listing ∧
      (db.htable.htable item.1).sector ≠ (db.htable.htable hashSlot).sector := by
    intro item left
    obtain ⟨inListing, different⟩ := List.mem_filter.mp left
    exact ⟨inListing, other_sector mounted occupied stored inListing (of_decide_eq_true different)⟩
  have readable : Readable next seen (unlisted hashSlot listing) := by
    intro item left
    obtain ⟨inListing, elsewhere⟩ := others item left
    rw [places, kept _ elsewhere]
    exact (mounted.listed_contact inListing).2
  have fresh : ∀ item ∈ unlisted hashSlot listing, item.2.phone ≠ identity.phone := by
    intro item left same
    obtain ⟨inListing, elsewhere⟩ := others item left
    exact elsewhere (mounted.core.distinct _ _ _ _ (mounted.listed_contact inListing).2 stored same)
  have names : NamesHold next.nameIndex (unlisted hashSlot listing)
      (Function.update (contactAt db.htable view.contact) hashSlot none) := by
    rw [index]
    exact mounted.names.unlist
  have room : (unlisted hashSlot listing).length < hashTableEntries := by
    have shorter := unlisted_length mounted.names member
    have room := mounted.room
    omega
  rw [out_sortedArrayInsert contacts readable names room identity fresh hashSlot,
    placed_unlisted mounted.names member, ← mounted.names.index]

theorem contact_remove_stops (mounted : Mounted db card view chain listing)
    (occupied : (db.htable.htable hashSlot).state = .occupied)
    (stored : view.contact (db.htable.htable hashSlot).sector = some identity) {removed : Nat}
    (inside : removed < (chain (db.htable.htable hashSlot).sector).length)
    {phone : Option CString} (given : validPhone phone = some identity.phone) :
    ∃ allocator journal bitmap log faults,
      exec (databaseContactRemove phone) db (.failing (allBut (5 * removed))) card =
        ((.strgFail, halfRemoved db hashSlot allocator journal bitmap), faults,
          applyWrites log card) ∧
      Holds bitmap (applyWrites log card)
        ((view.clearSectors ((chain (db.htable.htable hashSlot).sector).take removed)).setContact
          (db.htable.htable hashSlot).sector none) := by
  have member := mounted.listed_of occupied stored
  have taken := out_sortedArrayRemove mounted.core.holds.contacts mounted.readable mounted.names
    member
  obtain ⟨allocator, journal, bitmap, log, later, stopped, holds⟩ := hash_remove_stops
    (mounted.core.names_only (listedIndex (unlisted hashSlot listing))) occupied stored inside
  have put := @index_put_back _ _ _ _ _ _ _ mounted occupied stored
    (halfRemoved { db with nameIndex := listedIndex (unlisted hashSlot listing) } hashSlot
      allocator journal bitmap) (applyWrites log card) _ holds.contacts rfl
    (fun slot => (latest_table_entry db.htable hashSlot uint16Max slot).2)
    (fun sector elsewhere => set_contact_other _ _ elsewhere)
  refine ⟨allocator, journal, bitmap, log, .failing later, ?_, holds⟩
  unfold databaseContactRemove
  rw [given]
  dsimp only
  rw [exec_bind_of (exec_quiet (out_findOccupied_known mounted.core occupied stored) _)]
  dsimp only
  rw [exec_bind_of (exec_get _ _ _),
    exec_bind_of (exec_quiet (out_readContact_slot mounted.core stored) _)]
  dsimp only
  unfold removeFoundContact
  rw [exec_bind_of (exec_quiet taken _), if_neg (by simp), exec_bind_of stopped, if_pos (by rfl),
    exec_bind_of (exec_quiet put _)]
  rfl

theorem list_step_ends {next : Database} {after : Card Sector}
    (index : next.nameIndex = listedIndex listing) {rank : Nat} {item : Nat × Identity}
    (found : listing[rank]? = some item) {ret : StrgRet}
    (reading : out (readContact (next.htable.htable item.1).sector) next after =
      ((.error ret, next), [])) (count : Nat) (read : List Contact) :
    out (listContacts (count + 1) rank read) next after = (((ret, read), next), []) := by
  have there : out (readContact (next.htable.htable (listedEntry item).hashSlot).sector) next
      after = ((.error ret, next), []) := reading
  rw [listContacts, out_bind_of (out_get _ _)]
  simp only [index, listedIndex, List.getElem?_map, found, Option.map_some, apply_writes_nil,
    List.nil_append]
  rw [out_bind_of (out_get _ _), apply_writes_nil, List.nil_append, out_bind_of there]
  rfl

theorem list_step_shows {next : Database} {after : Card Sector}
    (index : next.nameIndex = listedIndex listing) {rank : Nat} {item : Nat × Identity}
    (found : listing[rank]? = some item) {record : Contact}
    (reading : out (readContact (next.htable.htable item.1).sector) next after =
      ((.ok record, next), [])) (count : Nat) (read : List Contact) :
    out (listContacts (count + 1) rank read) next after =
      out (listContacts count (rank + 1) (read ++ [record])) next after := by
  have there : out (readContact (next.htable.htable (listedEntry item).hashSlot).sector) next
      after = ((.ok record, next), []) := reading
  rw [listContacts, out_bind_of (out_get _ _)]
  simp only [index, listedIndex, List.getElem?_map, found, Option.map_some, apply_writes_nil,
    List.nil_append]
  rw [out_bind_of (out_get _ _), apply_writes_nil, List.nil_append, out_bind_of there]
  rfl

theorem list_half_removed {next : Database} {after : Card Sector} {seen : View}
    (contacts : ContactsHold next.usageBitmap after seen.contact)
    (index : next.nameIndex = listedIndex listing)
    (places : ∀ item ∈ listing, (next.htable.htable item.1).sector < hashTableEntries)
    (gone : ∀ item ∈ listing, item.1 = hashSlot →
      seen.contact (next.htable.htable item.1).sector = none)
    (kept : ∀ item ∈ listing, item.1 ≠ hashSlot →
      seen.contact (next.htable.htable item.1).sector = some item.2)
    (count rank : Nat) (read : List Contact) :
    ∃ answer, out (listContacts count rank read) next after = ((answer, next), []) ∧
      ((∀ item ∈ (listing.drop rank).take count, item.1 ≠ hashSlot) →
        answer = (.strgOk, read ++ ((listing.drop rank).take count).map fun item =>
          item.2.record)) ∧
      ((∃ item ∈ (listing.drop rank).take count, item.1 = hashSlot) → answer.1 = .strgEmpty) := by
  induction count generalizing rank read with
  | zero =>
      refine ⟨(.strgOk, read), rfl, fun _ => ?_, fun some_ => ?_⟩
      · simp
      · obtain ⟨item, member, _⟩ := some_
        cases member
  | succ count ih =>
      cases found : listing[rank]? with
      | none =>
          have past := List.getElem?_eq_none_iff.mp found
          have ends : out (listContacts (count + 1) rank read) next after =
              (((.strgOk, read), next), []) := by
            rw [listContacts, out_bind_of (out_get _ _), index, listedIndex, List.getElem?_map,
              found]
            rfl
          rw [List.drop_eq_nil_of_le past]
          refine ⟨_, ends, fun _ => ?_, fun some_ => ?_⟩
          · simp
          · obtain ⟨item, member, _⟩ := some_
            cases member
      | some item =>
          obtain ⟨bound, same⟩ := List.getElem?_eq_some_iff.mp found
          have member := List.mem_of_getElem? found
          rw [List.drop_eq_getElem_cons bound, same, List.take_succ_cons]
          have reading := out_readContact contacts (places item member)
          by_cases ghost : item.1 = hashSlot
          · rw [gone item member ghost] at reading
            refine ⟨(.strgEmpty, read), ?_, fun none_ => ?_, fun _ => rfl⟩
            · exact list_step_ends index found reading count read
            · exact absurd ghost (none_ item List.mem_cons_self)
          · rw [kept item member ghost] at reading
            obtain ⟨answer, run, whole, cut⟩ := ih (rank + 1) (read ++ [item.2.record])
            refine ⟨answer, ?_, fun others => ?_, fun some_ => cut ?_⟩
            · rw [list_step_shows index found reading]
              exact run
            · rw [whole fun other inRest => others other (List.mem_cons_of_mem _ inRest),
                List.map_cons, List.append_assoc]
              rfl
            · obtain ⟨other, inPage, isGhost⟩ := some_
              rcases List.mem_cons.mp inPage with rfl | inRest
              · exact absurd isGhost ghost
              · exact ⟨other, inRest, isGhost⟩

theorem list_page_eq {next : Database} {after : Card Sector}
    (index : next.nameIndex = listedIndex listing) {start : Nat} (some_ : start < listing.length)
    (n : Nat) : out (databaseContactList start n true) next after =
      out (listContacts n start []) next after := by
  have more : ¬next.nameIndex.mem.length ≤ start := by
    rw [index, listedIndex, List.length_map]
    exact Nat.not_le.mpr some_
  rw [databaseContactList, if_neg (by simp), out_bind_of (out_get _ _), if_neg more]
  rfl

theorem shown_page (mounted : Mounted db card view chain listing) {start n : Nat}
    {page : List Contact}
    (shown : (out (databaseContactList start n true) db card).1.1 = (.strgOk, page)) :
    start < listing.length ∧
      page = ((listing.drop start).take n).map fun item => item.2.record := by
  by_cases some_ : start < listing.length
  · rw [list_page_eq mounted.names.index some_, out_listContacts mounted] at shown
    exact ⟨some_, (congrArg Prod.snd shown).symm⟩
  · have past : db.nameIndex.mem.length ≤ start := by
      rw [mounted.names.index, listedIndex, List.length_map]
      exact Nat.le_of_not_lt some_
    rw [databaseContactList, if_neg (by simp), out_bind_of (out_get _ _), if_pos past] at shown
    cases shown

theorem listed_number (mounted : Mounted db card view chain listing)
    (occupied : (db.htable.htable hashSlot).state = .occupied)
    (stored : view.contact (db.htable.htable hashSlot).sector = some identity)
    {item : Nat × Identity} (member : item ∈ listing) :
    cstr item.2.record.phone = identity.phone ↔ item.1 = hashSlot := by
  rw [record_phone_cstr]
  have listed := (mounted.listed_contact member).2
  constructor
  · intro same
    by_contra different
    exact other_sector mounted occupied stored member different
      (mounted.core.distinct _ _ _ _ listed stored same)
  · intro here
    rw [here, stored] at listed
    exact congrArg Identity.phone (Option.some.inj listed).symm

theorem empty_page (mounted : Mounted db card view chain listing) {next : Database}
    {after : Card Sector} (index : next.nameIndex = listedIndex listing) {start n : Nat}
    (empty : (out (databaseContactList start n true) db card).1.1.1 ≠ .strgOk) :
    (out (databaseContactList start n true) next after).1.1 =
      (out (databaseContactList start n true) db card).1.1 := by
  by_cases some_ : start < listing.length
  · rw [list_page_eq mounted.names.index some_, out_listContacts mounted] at empty
    exact absurd rfl empty
  · have past : ∀ seen : Database, seen.nameIndex = listedIndex listing →
        seen.nameIndex.mem.length ≤ start := by
      intro seen same
      rw [same, listedIndex, List.length_map]
      exact Nat.le_of_not_lt some_
    rw [databaseContactList, if_neg (by simp), out_bind_of (out_get _ _), if_pos (past next index),
      out_bind_of (out_get _ _), if_pos (past db mounted.names.index)]
    rfl

def Machine.Forgotten (machine : Machine) (number : List Byte) : Prop :=
  ∀ slot record, storedContact machine.db.usageBitmap machine.card slot = some record →
    cstr record.phone ≠ number

theorem half_removed_forgotten (mounted : Mounted db card view chain listing)
    (stored : view.contact (db.htable.htable hashSlot).sector = some identity)
    {next : Machine} {seen : View}
    (contacts : ContactsHold next.db.usageBitmap next.card seen.contact)
    (rest : ∀ sector other, seen.contact sector = some other →
      sector ≠ (db.htable.htable hashSlot).sector ∧ view.contact sector = some other) :
    next.Forgotten identity.phone := by
  intro slot record known same
  rw [stored_contact_record contacts] at known
  obtain ⟨other, there, rfl⟩ := Option.map_eq_some_iff.mp known
  obtain ⟨elsewhere, here⟩ := rest slot other there
  rw [record_phone_cstr] at same
  exact elsewhere (mounted.core.distinct _ _ _ _ here stored same)

end HalfRemoved

/-- A contact removal with a chat that meets one failing write, the first of one of the
sectors, fails. The record is gone while the contact still counts, the pages of the listing that
showed it fail, and all other pages are as before. -/
theorem failed_removal_breaks_listing {machine : Machine} (reachable : Reachable machine)
    {phone : Option CString} {number : List Byte} (given : validPhone phone = some number)
    {removed : Nat} (inside : removed < (machine.chatSectors number).length) :
    ∃ failed, machine.failing (databaseContactRemove phone) (allBut (5 * removed)) =
        (.strgFail, failed) ∧
      (failed.run databaseContactCount).1 = (machine.run databaseContactCount).1 ∧
      ¬machine.Forgotten number ∧ failed.Forgotten number ∧
      (∀ start n, (machine.run (databaseContactList start n true)).1.1 ≠ .strgOk →
        (failed.run (databaseContactList start n true)).1 =
          (machine.run (databaseContactList start n true)).1) ∧
      ∀ start n page, (machine.run (databaseContactList start n true)).1 = (.strgOk, page) →
        ((∀ record ∈ page, cstr record.phone ≠ number) →
          (failed.run (databaseContactList start n true)).1 = (.strgOk, page)) ∧
        ((∃ record ∈ page, cstr record.phone = number) →
          (failed.run (databaseContactList start n true)).1.1 = .strgEmpty) := by
  obtain ⟨model, view, chain, listing, mounted, _⟩ := reachable.sound
  obtain ⟨hashSlot, identity, occupied, stored, rfl, length⟩ := entry_of_chat mounted
    (List.ne_nil_of_length_pos (Nat.zero_lt_of_lt inside))
  rw [← length] at inside
  obtain ⟨allocator, journal, bitmap, log, faults, failed, holds⟩ :=
    contact_remove_stops mounted occupied stored inside given
  refine ⟨⟨halfRemoved machine.db hashSlot allocator journal bitmap,
    applyWrites log machine.card⟩, ?_, rfl, ?_, ?_, fun start n empty => ?_, ?_⟩
  · rw [Machine.failing, failed]
  · intro forgotten
    have record : storedContact machine.db.usageBitmap machine.card
        (machine.db.htable.htable hashSlot).sector = some identity.record := by
      rw [stored_contact_record mounted.core.holds.contacts, stored]
      rfl
    exact forgotten _ _ record (record_phone_cstr identity)
  · apply half_removed_forgotten mounted stored holds.contacts
    intro sector other there
    by_cases here : sector = (machine.db.htable.htable hashSlot).sector
    · rw [here, set_contact_self] at there
      cases there
    · rw [set_contact_other _ _ here] at there
      exact ⟨here, there⟩
  · have index : (halfRemoved machine.db hashSlot allocator journal bitmap).nameIndex =
        listedIndex listing := mounted.names.index
    exact empty_page mounted index empty
  intro start n page shown
  obtain ⟨some_, rfl⟩ := shown_page mounted shown
  have inListing : ∀ item ∈ (listing.drop start).take n, item ∈ listing := fun item inPage =>
    List.mem_of_mem_drop (List.mem_of_mem_take inPage)
  have place : ∀ slot, ((halfRemoved machine.db hashSlot allocator journal bitmap).htable.htable
      slot).sector = (machine.db.htable.htable slot).sector := fun slot =>
    (latest_table_entry machine.db.htable hashSlot uint16Max slot).2
  obtain ⟨answer, run, whole, cut⟩ := @list_half_removed listing hashSlot
    (halfRemoved machine.db hashSlot allocator journal bitmap) (applyWrites log machine.card) _
    holds.contacts mounted.names.index
    (fun item member => by
      rw [place]
      exact mounted.core.contact_bound (mounted.listed_contact member).2)
    (fun item member here => by
      rw [place, here]
      exact set_contact_self _ _ _)
    (fun item member different => by
      rw [place, set_contact_other _ _ (other_sector mounted occupied stored member different)]
      exact (mounted.listed_contact member).2)
    n start []
  have paged : out (databaseContactList start n true)
      (halfRemoved machine.db hashSlot allocator journal bitmap) (applyWrites log machine.card) =
        ((answer, halfRemoved machine.db hashSlot allocator journal bitmap), []) :=
    (@list_page_eq listing (halfRemoved machine.db hashSlot allocator journal bitmap) _
      mounted.names.index _ some_ n).trans run
  rw [@Machine.run_of _ _ ⟨halfRemoved machine.db hashSlot allocator journal bitmap,
    applyWrites log machine.card⟩ _ _ _ paged]
  constructor
  · intro others
    apply whole
    intro item inPage here
    exact others _ (List.mem_map_of_mem inPage)
      ((listed_number mounted occupied stored (inListing item inPage)).mpr here)
  · intro shows
    obtain ⟨record, inPage, same⟩ := shows
    obtain ⟨item, inWindow, rfl⟩ := List.mem_map.mp inPage
    exact cut ⟨item, inWindow,
      (listed_number mounted occupied stored (inListing item inWindow)).mp same⟩

/-- The removal fails behind the first of two sectors. -/
theorem failed_removal_breaks_listing_example :
    ∃ failed, exampleTwoContacts.failing (databaseContactRemove (some exampleText))
          (allBut (5 * 1)) = (.strgFail, failed) ∧
      (failed.run databaseContactCount).1 = (exampleTwoContacts.run databaseContactCount).1 ∧
      ¬exampleTwoContacts.Forgotten exampleText.val ∧ failed.Forgotten exampleText.val ∧
      (∀ start n, (exampleTwoContacts.run (databaseContactList start n true)).1.1 ≠ .strgOk →
        (failed.run (databaseContactList start n true)).1 =
          (exampleTwoContacts.run (databaseContactList start n true)).1) ∧
      ∀ start n page,
        (exampleTwoContacts.run (databaseContactList start n true)).1 = (.strgOk, page) →
          ((∀ record ∈ page, cstr record.phone ≠ exampleText.val) →
            (failed.run (databaseContactList start n true)).1 = (.strgOk, page)) ∧
          ((∃ record ∈ page, cstr record.phone = exampleText.val) →
            (failed.run (databaseContactList start n true)).1.1 = .strgEmpty) := by
  obtain ⟨reachable, long, _⟩ := example_two_contacts
  exact failed_removal_breaks_listing reachable example_valid long

end SdDatabase
