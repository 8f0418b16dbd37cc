import SdDatabase.Effects

/-!
# Calls that change contacts

Each call is followed through hash table, card and indexes; the invariant holds
again afterwards, the abstract phone book has made its step, and the views that a
power cut may leave are known.
-/

namespace SdDatabase

open Bytes Device OpenAddressing

set_option autoImplicit false

section Entering

variable {db : Database} {card : Card Sector} {view : View} {chain : Nat → List Nat}
  {listing : Listing}

/-- Memory after a contact was written to the slot on top of the free list. -/
def enteredDatabase (db : Database) (hashSlot sector : Nat) (identity : Identity)
    (journal : JournalHeader) (bitmap : UsageBitmap) : Database :=
  { db with
    journal := journal
    usageBitmap := bitmap
    contactAllocator := (freeListAllocate db.contactAllocator).2
    htable :=
      { db.htable.setEntry hashSlot (occupiedEntry (hashPhone identity.phone) sector) with
        numElems := db.htable.numElems + 1 } }

theorem free_slot_empty (core : Core db card view chain) {sector : Nat}
    (free : view.contact sector = none) : chain sector = [] := by
  by_contra some_
  exact core.chats.contacts sector some_ free

theorem Core.enter (core : Core db card view chain) (identity : Identity)
    (absent : ∀ sector other, view.contact sector = some other → other.phone ≠ identity.phone)
    {sector : Nat} {rest : List Nat} (stack : db.contactAllocator.freeStack = sector :: rest)
    {hashSlot : Nat} (bound : hashSlot < hashTableSize)
    (free : (db.htable.htable hashSlot).state ≠ .occupied)
    (reaches : Reaches (tableCell db.htable view.contact) (tablePath identity.phone) hashSlot)
    {log : WriteLog Sector} {bitmap : UsageBitmap} {during : Nat → View → Prop}
    (leads : Leads card log bitmap (view.setContact sector (some identity)) during)
    (journal : JournalHeader) :
    Core (enteredDatabase db hashSlot sector identity journal bitmap) (applyWrites log card)
      (view.setContact sector (some identity)) chain := by
  obtain ⟨inside, unused⟩ := core.contactFree.top stack
  have fresh : view.contact sector = none := not_not.mp unused
  have noChat := free_slot_empty core fresh
  have others : ∀ other, other ≠ sector →
      (view.setContact sector (some identity)).contact other = view.contact other :=
    fun other different => set_contact_other _ _ different
  refine
    { idle := leads.idle
      holds := leads.holds
      distinct := ?_
      chats := ⟨core.chats.linked, core.chats.owned, core.chats.counted, core.chats.separate, ?_⟩
      table := core.table.insert identity bound free reaches fresh
        (by rw [headOf, noChat]; rfl) _
      contactFree := ?_
      messageFree := core.messageFree
      messageRing := core.messageRing
      callRing := core.callRing }
  · intro first second left right firstIs secondIs same
    by_cases atFirst : first = sector
    · by_cases atSecond : second = sector
      · rw [atFirst, atSecond]
      · rw [others second atSecond] at secondIs
        rw [atFirst, set_contact_self, Option.some.injEq] at firstIs
        rw [← firstIs] at same
        exact absurd same.symm (absent second right secondIs)
    · rw [others first atFirst] at firstIs
      by_cases atSecond : second = sector
      · rw [atSecond, set_contact_self, Option.some.injEq] at secondIs
        rw [← secondIs] at same
        exact absurd same (absent first left firstIs)
      · rw [others second atSecond] at secondIs
        exact core.distinct first second left right firstIs secondIs same
  · intro slot some_
    have different : slot ≠ sector := by
      rintro rfl
      exact some_ noChat
    rw [others slot different]
    exact core.chats.contacts slot some_
  · have allocated : (freeListAllocate db.contactAllocator).2 =
        { db.contactAllocator with
          freeStack := rest
          usedCount := db.contactAllocator.usedCount + 1 } := by
      rw [freeListAllocate, stack]
    rw [enteredDatabase, allocated]
    refine core.contactFree.allocate stack fun other => ?_
    by_cases same : other = sector
    · rw [same, set_contact_self]
      simp
    · rw [others other same]
      simp [same]

theorem index_insert (contacts : ContactsHold db.usageBitmap card view.contact)
    {at_ : Nat → Option Identity}
    (names : NamesHold db.nameIndex listing at_) {hashSlot : Nat} {identity : Identity}
    (free : at_ hashSlot = none)
    (here : contactAt db.htable view.contact = Function.update at_ hashSlot (some identity))
    (fresh : ∀ item ∈ listing, item.2.phone ≠ identity.phone)
    (room : listing.length < hashTableEntries) :
    out (sortedArrayInsert identity.record hashSlot) db card =
        ((.strgOk, { db with nameIndex := listedIndex (placed (hashSlot, identity) listing) }),
          []) ∧
      NamesHold (listedIndex (placed (hashSlot, identity) listing))
        (placed (hashSlot, identity) listing) (contactAt db.htable view.contact) := by
  have readable : Readable db view listing := by
    intro item member
    have known := (names.listed item.1 item.2).mp member
    have different : item.1 ≠ hashSlot := by
      intro same
      rw [same, free] at known
      cases known
    have still : contactAt db.htable view.contact item.1 = some item.2 := by
      rw [here, Function.update_of_ne different, known]
    exact (contact_at_some still).2
  refine ⟨out_sortedArrayInsert contacts readable names room identity fresh hashSlot, ?_⟩
  rw [here]
  exact names.place free fresh

theorem contact_at_free {hashSlot : Nat} (free : (db.htable.htable hashSlot).state ≠ .occupied) :
    contactAt db.htable view.contact hashSlot = none := if_neg free

theorem fresh_phone (mounted : Mounted db card view chain listing) {phone : List Byte}
    (absent : ∀ sector other, view.contact sector = some other → other.phone ≠ phone) :
    ∀ item ∈ listing, item.2.phone ≠ phone :=
  fun item member => absent _ item.2 (mounted.listed_contact member).2

theorem hash_insert_contact_known (core : Core db card view chain) {hashSlot : Nat}
    {other identity : Identity} (occupied : (db.htable.htable hashSlot).state = .occupied)
    (stored : view.contact (db.htable.htable hashSlot).sector = some other)
    (same : other.phone = identity.phone) :
    out (hashInsertContact identity.record) db card = (((.strgExists, hashSlot), db), []) := by
  rw [hashInsertContact, record_phone_cstr, ← same,
    out_bind_of (find_present core.table core.holds.contacts core.distinct occupied stored)]
  simp only [apply_writes_nil, List.nil_append]
  rw [out_bind_of (out_get _ _)]
  simp only [occupied, if_true, apply_writes_nil, List.nil_append]
  rfl

theorem out_allocateContact_empty (none_ : db.contactAllocator.freeStack = []) :
    out allocateContact db card = ((uint16Max, db), []) := by
  have allocated : freeListAllocate db.contactAllocator = (uint16Max, db.contactAllocator) := by
    rw [freeListAllocate, none_]
  rw [allocateContact, out_bind_of (out_get _ _), allocated]
  rfl

theorem out_allocateContact {sector : Nat} {rest : List Nat}
    (stack : db.contactAllocator.freeStack = sector :: rest) :
    out allocateContact db card =
      ((sector, { db with contactAllocator := (freeListAllocate db.contactAllocator).2 }), []) := by
  have allocated : (freeListAllocate db.contactAllocator).1 = sector := by
    rw [freeListAllocate, stack]
  rw [allocateContact, out_bind_of (out_get _ _)]
  change ((((freeListAllocate db.contactAllocator).1, _), _) : (Nat × Database) × _) = _
  rw [allocated]
  rfl

theorem hash_insert_contact_full (core : Core db card view chain) (identity : Identity)
    (absent : ∀ sector other, view.contact sector = some other → other.phone ≠ identity.phone)
    (none_ : db.contactAllocator.freeStack = []) :
    ∃ hashSlot, out (hashInsertContact identity.record) db card =
      (((.strgFull, hashSlot), db), []) := by
  obtain ⟨hashSlot, run, _, free, _⟩ := find_absent core.table core.holds.contacts absent
  refine ⟨hashSlot, ?_⟩
  rw [hashInsertContact, record_phone_cstr, out_bind_of run]
  simp only [apply_writes_nil, List.nil_append]
  rw [out_bind_of (out_get _ _)]
  simp only [free, if_false, apply_writes_nil, List.nil_append]
  rw [out_bind_of (out_allocateContact_empty none_)]
  rfl

/-- Memory with a slot taken and an entry made for it, before the contact is written. -/
def claimedDatabase (db : Database) (hashSlot sector : Nat) (phone : List Byte) : Database :=
  { db with
    contactAllocator := (freeListAllocate db.contactAllocator).2
    htable :=
      { db.htable.setEntry hashSlot (occupiedEntry (hashPhone phone) sector) with
        numElems := db.htable.numElems + 1 } }

theorem out_hashInsertContact {contact : Contact} {hashSlot sector : Nat} {rest : List Nat}
    {later : Database} {log : WriteLog Sector}
    (find : out (hashFindEntry (cstr contact.phone)) db card = ((some hashSlot, db), []))
    (free : (db.htable.htable hashSlot).state ≠ .occupied)
    (stack : db.contactAllocator.freeStack = sector :: rest) (notEnd : sector ≠ uint16Max)
    (write : out (writeContact sector contact)
      (claimedDatabase db hashSlot sector (cstr contact.phone)) card = ((.strgOk, later), log)) :
    out (hashInsertContact contact) db card = (((.strgOk, hashSlot), later), log) := by
  rw [claimedDatabase] at write
  rw [hashInsertContact, out_bind_of find]
  simp only [apply_writes_nil, List.nil_append]
  rw [out_bind_of (out_get _ _)]
  simp only [free, if_false, apply_writes_nil, List.nil_append]
  rw [out_bind_of (out_allocateContact stack)]
  simp only [notEnd, if_false, apply_writes_nil, List.nil_append]
  rw [modifyTable, out_bind_of (out_modify _ _ _)]
  simp only [apply_writes_nil, List.nil_append]
  rw [out_bind_of write]
  simp only [ne_eq, not_true_eq_false, if_false, out_pure, List.append_nil]

theorem hash_insert_contact_new (core : Core db card view chain) (identity : Identity)
    (absent : ∀ sector other, view.contact sector = some other → other.phone ≠ identity.phone)
    {sector : Nat} {rest : List Nat} (stack : db.contactAllocator.freeStack = sector :: rest) :
    ∃ hashSlot journal bitmap log,
      out (hashInsertContact identity.record) db card =
        (((.strgOk, hashSlot), enteredDatabase db hashSlot sector identity journal bitmap),
          log) ∧
      hashSlot < hashTableSize ∧ (db.htable.htable hashSlot).state ≠ .occupied ∧
      Reaches (tableCell db.htable view.contact) (tablePath identity.phone) hashSlot ∧
      Leads card log bitmap (view.setContact sector (some identity))
        fun _ seen => seen = view ∨ seen = view.setContact sector (some identity) := by
  obtain ⟨hashSlot, run, bound, free, reaches⟩ :=
    find_absent core.table core.holds.contacts absent
  obtain ⟨inside, _⟩ := core.contactFree.top stack
  have notEnd : sector ≠ uint16Max := by
    simp at inside ⊢
    omega
  obtain ⟨journal, bitmap, log, write, leads⟩ := @write_contact_run
    (claimedDatabase db hashSlot sector identity.phone) _ _ core.idle core.holds _ inside identity
  rw [← record_phone_cstr] at run
  refine ⟨hashSlot, journal, bitmap, log, ?_, bound, free, reaches, leads⟩
  apply out_hashInsertContact run free stack notEnd
  rw [record_phone_cstr]
  exact write

theorem contact_at_entered (core : Core db card view chain) {identity : Identity} {sector : Nat}
    (fresh : view.contact sector = none) (hashSlot : Nat) (journal : JournalHeader)
    (bitmap : UsageBitmap) :
    contactAt (enteredDatabase db hashSlot sector identity journal bitmap).htable
        (view.setContact sector (some identity)).contact =
      Function.update (contactAt db.htable view.contact) hashSlot (some identity) :=
  contact_at_insert core.table identity fresh _ _

theorem entered_other {hashSlot other : Nat} (different : other ≠ hashSlot) (sector : Nat)
    (identity : Identity) (journal : JournalHeader) (bitmap : UsageBitmap) :
    (enteredDatabase db hashSlot sector identity journal bitmap).htable.htable other =
      db.htable.htable other :=
  Function.update_of_ne different _ _

theorem entered_self (hashSlot sector : Nat) (identity : Identity) (journal : JournalHeader)
    (bitmap : UsageBitmap) :
    (enteredDatabase db hashSlot sector identity journal bitmap).htable.htable hashSlot =
      occupiedEntry (hashPhone identity.phone) sector :=
  Function.update_self _ _ _

theorem OrderHolds.enter (order : OrderHolds db.chatOrder db.htable) {hashSlot : Nat}
    (free : (db.htable.htable hashSlot).state ≠ .occupied) (sector : Nat) (identity : Identity)
    (journal : JournalHeader) (bitmap : UsageBitmap) :
    OrderHolds db.chatOrder
      (enteredDatabase db hashSlot sector identity journal bitmap).htable where
  nodup := order.nodup
  mem other := by
    rw [order.mem]
    by_cases same : other = hashSlot
    · rw [same, entered_self]
      simp [occupiedEntry, free]
    · rw [entered_other same]

theorem Mounted.enter (mounted : Mounted db card view chain listing) (identity : Identity)
    (absent : ∀ sector other, view.contact sector = some other → other.phone ≠ identity.phone)
    {sector : Nat} {rest : List Nat} (stack : db.contactAllocator.freeStack = sector :: rest)
    {hashSlot : Nat} (bound : hashSlot < hashTableSize)
    (free : (db.htable.htable hashSlot).state ≠ .occupied)
    (reaches : Reaches (tableCell db.htable view.contact) (tablePath identity.phone) hashSlot)
    {log : WriteLog Sector} {bitmap : UsageBitmap} {during : Nat → View → Prop}
    (leads : Leads card log bitmap (view.setContact sector (some identity)) during)
    (journal : JournalHeader) :
    let entered := enteredDatabase db hashSlot sector identity journal bitmap
    let index := listedIndex (placed (hashSlot, identity) listing)
    out (sortedArrayInsert identity.record hashSlot) entered (applyWrites log card) =
        ((.strgOk, { entered with nameIndex := index }), []) ∧
      Mounted { entered with nameIndex := index } (applyWrites log card)
        (view.setContact sector (some identity)) chain (placed (hashSlot, identity) listing) ∧
      modelOf { entered with nameIndex := index } (view.setContact sector (some identity)) chain
          (placed (hashSlot, identity) listing) =
        { people := Model.insert ⟨identity, []⟩ (modelOf db view chain listing).people
          recent := (modelOf db view chain listing).recent } := by
  intro entered index
  have fresh : view.contact sector = none := not_not.mp (mounted.core.contactFree.top stack).2
  have core := mounted.core.enter identity absent stack bound free reaches leads journal
  have room : listing.length < hashTableEntries := by
    have count := mounted.room
    rw [stack, List.length_cons] at count
    omega
  obtain ⟨run, names⟩ := index_insert core.holds.contacts mounted.names (contact_at_free free)
    (contact_at_entered mounted.core fresh hashSlot journal bitmap) (fresh_phone mounted absent) room
  have occupiedOther : ∀ other, (db.htable.htable other).state = .occupied → other ≠ hashSlot := by
    rintro other occupied rfl
    exact free occupied
  refine ⟨run, ⟨core.names_only index, names, mounted.order.enter free sector identity
    journal bitmap, ?_⟩, ?_⟩
  · rw [placed_length]
    exact congrArg (· + 1) mounted.count
  · rw [modelOf, modelOf]
    congr 1
    · rw [map_placed fun _ => rfl]
      congr 1
      · change Person.mk identity (chatOf view chain
          (entered.htable.htable hashSlot).sector) = _
        rw [entered_self hashSlot sector identity journal bitmap, chatOf,
          show (occupiedEntry (hashPhone identity.phone) sector).sector = sector from rfl,
          free_slot_empty mounted.core fresh]
        rfl
      · refine List.map_congr_left fun item member => ?_
        have occupied := (mounted.listed_contact member).1
        change Person.mk item.2 (chatOf view chain (entered.htable.htable item.1).sector) = _
        rw [entered_other (occupiedOther item.1 occupied) sector identity journal bitmap]
        rfl
    · refine List.map_congr_left fun other member => ?_
      have occupied := ((mounted.order.mem other).mp member).1
      change ((contactAt entered.htable (view.setContact sector (some identity)).contact
        other).map Identity.phone).getD [] = _
      rw [contact_at_entered mounted.core fresh hashSlot journal bitmap,
        Function.update_of_ne (occupiedOther other occupied)]
      rfl

theorem contact_add_refused (name phone : Option CString)
    (refused : checkedIdentity name phone = none) :
    out (databaseContactAdd name phone) db card = ((.strgFail, db), []) := by
  unfold databaseContactAdd
  rcases checked_identity_none refused with noText | noPhone
  · simp only [noText]
    rfl
  · simp only [noPhone]
    cases validStr name maxNameLen <;> rfl

theorem contact_add_spec (mounted : Mounted db card view chain listing)
    (name phone : Option CString) :
    Carries (databaseContactAdd name phone) db card view chain
      ((modelOf db view chain listing).addContact name phone).1
      ((modelOf db view chain listing).addContact name phone).2 (oldOrNew view) := by
  unfold Model.addContact
  cases checked : checkedIdentity name phone with
  | none =>
      exact carries_unchanged mounted (contact_add_refused name phone checked) (fun _ => Or.inl rfl)
  | some identity =>
      obtain ⟨nameValid, phoneValid⟩ := checked_identity_some checked
      unfold databaseContactAdd
      simp only [nameValid, phoneValid]
      change Carries (hashInsertContact identity.record >>= _) db card view chain _ _ _
      rcases Core.known_or_new view identity.phone with ⟨sector, other, stored, same⟩ | absent
      · obtain ⟨hashSlot, occupied, rfl, _⟩ := mounted.core.slot_of stored
        have found := model_find mounted occupied stored
        rw [same] at found
        simp only [found, Option.isSome_some, if_true]
        refine carries_unchanged mounted ?_ (fun _ => Or.inl rfl)
        rw [out_bind_of (hash_insert_contact_known mounted.core occupied stored same)]
        rfl
      · simp only [model_find_none mounted absent, Option.isSome_none, Bool.false_eq_true, if_false]
        have people : (modelOf db view chain listing).people.length = listing.length :=
          List.length_map _
        have slots := mounted.count_slots
        cases stack : db.contactAllocator.freeStack with
        | nil =>
            rw [stack, List.length_nil] at slots
            rw [people, if_pos (by omega)]
            obtain ⟨hashSlot, run⟩ := hash_insert_contact_full mounted.core identity absent stack
            refine carries_unchanged mounted ?_ (fun _ => Or.inl rfl)
            rw [out_bind_of run]
            rfl
        | cons sector rest =>
            rw [stack, List.length_cons] at slots
            rw [people, if_neg (by omega)]
            obtain ⟨hashSlot, journal, bitmap, log, run, bound, free, reaches, leads⟩ :=
              hash_insert_contact_new mounted.core identity absent stack
            obtain ⟨insertRun, later, model⟩ :=
              mounted.enter identity absent stack bound free reaches leads journal
            refine ⟨_, log, _, chain, _, ?_, leads, later, ?_, model⟩
            · rw [← List.append_nil log]
              exact out_bind_both run (out_bind_both insertRun rfl)
            · exact fun tidy => ⟨tidy.nexts, tidy.covered⟩

end Entering

end SdDatabase
