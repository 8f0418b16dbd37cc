import SdDatabase.ContactCalls

/-!
# Updating a contact

A contact gets a new name and perhaps a new phone number. A new phone number moves
its entry to another hash slot, under name index and chat order.
-/

namespace SdDatabase

open Bytes Device OpenAddressing

set_option autoImplicit false

/-- The entry of a contact is at `newSlot` now; otherwise the tables agree. -/
structure Moved (table next : HashTable) (oldSlot newSlot : Nat) : Prop where
  occupied : (next.htable newSlot).state = .occupied
  sector : (next.htable newSlot).sector = (table.htable oldSlot).sector
  latest : (next.htable newSlot).latestMsgExtent = (table.htable oldSlot).latestMsgExtent
  gone : newSlot ≠ oldSlot → (next.htable oldSlot).state ≠ .occupied
  free : newSlot ≠ oldSlot → (table.htable newSlot).state ≠ .occupied
  others : ∀ other, other ≠ oldSlot → other ≠ newSlot → next.htable other = table.htable other
  elems : next.numElems = table.numElems

theorem moved_self {table : HashTable} {slot : Nat}
    (occupied : (table.htable slot).state = .occupied) : Moved table table slot slot :=
  ⟨occupied, rfl, rfl, fun different => absurd rfl different, fun different => absurd rfl different,
    fun _ _ _ => rfl, rfl⟩

def movedTable (table : HashTable) (oldSlot newSlot hash : Nat) : HashTable :=
  (table.setEntry newSlot { table.htable oldSlot with id := hash }).setEntry oldSlot
    { table.htable oldSlot with state := .deleted }

theorem moved_table {table : HashTable} {oldSlot newSlot : Nat}
    (occupied : (table.htable oldSlot).state = .occupied)
    (free : (table.htable newSlot).state ≠ .occupied) (hash : Nat) :
    Moved table (movedTable table oldSlot newSlot hash) oldSlot newSlot := by
  have different : newSlot ≠ oldSlot := by
    rintro rfl
    exact free occupied
  have atNew : (movedTable table oldSlot newSlot hash).htable newSlot =
      { table.htable oldSlot with id := hash } := by
    simp [movedTable, HashTable.setEntry, different]
  have atOld : (movedTable table oldSlot newSlot hash).htable oldSlot =
      { table.htable oldSlot with state := .deleted } := by
    simp [movedTable, HashTable.setEntry]
  refine ⟨by rw [atNew]; exact occupied, by rw [atNew], by rw [atNew], ?_, fun _ => free, ?_, rfl⟩
  · intro _
    rw [atOld]
    simp
  · intro other notOld notNew
    simp [movedTable, HashTable.setEntry, notOld, notNew]

section Update

variable {db : Database} {card : Card Sector} {view : View} {chain : Nat → List Nat}
  {listing : Listing} {oldSlot newSlot : Nat} {old identity : Identity}

theorem Core.readdress (core : Core db card view chain) {sector : Nat}
    (stored : view.contact sector = some old)
    (others : ∀ other known, other ≠ sector → view.contact other = some known →
      known.phone ≠ identity.phone)
    {next : HashTable}
    (table : TableHolds next (Function.update view.contact sector (some identity)) (headOf chain))
    {log : WriteLog Sector} {bitmap : UsageBitmap} {during : Nat → View → Prop}
    (leads : Leads card log bitmap (view.setContact sector (some identity)) during)
    (journal : JournalHeader) :
    Core { db with journal := journal, usageBitmap := bitmap, htable := next }
      (applyWrites log card) (view.setContact sector (some identity)) chain := by
  have same : ∀ slot, (view.setContact sector (some identity)).contact slot ≠ none ↔
      view.contact slot ≠ none := by
    intro slot
    by_cases here : slot = sector
    · rw [here, set_contact_self, stored]
      simp
    · rw [set_contact_other _ _ here]
  refine
    { idle := leads.idle
      holds := leads.holds
      distinct := ?_
      chats := ⟨core.chats.linked, core.chats.owned, core.chats.counted, core.chats.separate,
        fun slot some_ => (same slot).mpr (core.chats.contacts slot some_)⟩
      table := table
      contactFree := core.contactFree.congr same
      messageFree := core.messageFree
      messageRing := core.messageRing
      callRing := core.callRing }
  intro first second left right firstIs secondIs equal
  by_cases atFirst : first = sector
  · by_cases atSecond : second = sector
    · rw [atFirst, atSecond]
    · rw [set_contact_other _ _ atSecond] at secondIs
      rw [atFirst, set_contact_self, Option.some.injEq] at firstIs
      rw [← firstIs] at equal
      exact absurd equal.symm (others second right atSecond secondIs)
  · rw [set_contact_other _ _ atFirst] at firstIs
    by_cases atSecond : second = sector
    · rw [atSecond, set_contact_self, Option.some.injEq] at secondIs
      rw [← secondIs] at equal
      exact absurd equal (others first left atFirst firstIs)
    · rw [set_contact_other _ _ atSecond] at secondIs
      exact core.distinct first second left right firstIs secondIs equal

theorem contact_at_moved (holds : TableHolds db.htable view.contact (headOf chain))
    (occupied : (db.htable.htable oldSlot).state = .occupied) {next : HashTable}
    (moved : Moved db.htable next oldSlot newSlot) :
    contactAt next (view.setContact (db.htable.htable oldSlot).sector (some identity)).contact =
      Function.update (Function.update (contactAt db.htable view.contact) oldSlot none) newSlot
        (some identity) := by
  funext other
  by_cases atNew : other = newSlot
  · rw [atNew, Function.update_self, contact_at_occupied moved.occupied, moved.sector,
      set_contact_self]
  · rw [Function.update_of_ne atNew]
    by_cases atOld : other = oldSlot
    · rw [atOld, Function.update_self]
      exact if_neg (moved.gone fun same => atNew (by rw [atOld, same]))
    · rw [Function.update_of_ne atOld]
      refine contact_at_same (moved.others other atOld atNew) fun otherOccupied => ?_
      refine set_contact_other _ _ fun place => atOld ?_
      exact holds.separate other oldSlot otherOccupied occupied place

theorem OrderHolds.move (order : OrderHolds db.chatOrder db.htable)
    (occupied : (db.htable.htable oldSlot).state = .occupied) {next : HashTable}
    (moved : Moved db.htable next oldSlot newSlot) :
    OrderHolds ⟨renamed oldSlot newSlot db.chatOrder.mem⟩ next := by
  have newAbsent : newSlot ≠ oldSlot → newSlot ∉ db.chatOrder.mem := by
    intro different member
    exact moved.free different ((order.mem newSlot).mp member).1
  constructor
  · refine List.Nodup.map_on ?_ order.nodup
    intro first firstIn second secondIn same
    by_cases firstOld : first = oldSlot
    · by_cases secondOld : second = oldSlot
      · rw [firstOld, secondOld]
      · rw [if_pos firstOld, if_neg secondOld] at same
        by_cases different : newSlot = oldSlot
        · exact absurd (same.symm.trans different) secondOld
        · exact absurd (by rwa [← same] at secondIn) (newAbsent different)
    · rw [if_neg firstOld] at same
      by_cases secondOld : second = oldSlot
      · rw [if_pos secondOld] at same
        by_cases different : newSlot = oldSlot
        · exact absurd (same.trans different) firstOld
        · exact absurd (by rwa [same] at firstIn) (newAbsent different)
      · rwa [if_neg secondOld] at same
  · intro other
    change other ∈ db.chatOrder.mem.map _ ↔ _
    rw [List.mem_map]
    constructor
    · rintro ⟨slot, member, rfl⟩
      obtain ⟨slotOccupied, chat⟩ := (order.mem slot).mp member
      by_cases isOld : slot = oldSlot
      · rw [if_pos isOld]
        rw [isOld] at chat
        exact ⟨moved.occupied, by rw [moved.latest]; exact chat⟩
      · rw [if_neg isOld]
        have notNew : slot ≠ newSlot := by
          rintro rfl
          exact newAbsent isOld member
        rw [moved.others slot isOld notNew]
        exact ⟨slotOccupied, chat⟩
    · rintro ⟨otherOccupied, chat⟩
      by_cases atNew : other = newSlot
      · rw [atNew, moved.latest] at chat
        exact ⟨oldSlot, (order.mem oldSlot).mpr ⟨occupied, chat⟩, by rw [if_pos rfl, atNew]⟩
      · have notOld : other ≠ oldSlot := by
          rintro rfl
          exact moved.gone (Ne.symm atNew) otherOccupied
        rw [moved.others other notOld atNew] at otherOccupied chat
        exact ⟨other, (order.mem other).mpr ⟨otherOccupied, chat⟩, if_neg notOld⟩

theorem unlisted_length {index : SortedArray} {at_ : Nat → Option Identity}
    (names : NamesHold index listing at_) (member : (oldSlot, old) ∈ listing) :
    (unlisted oldSlot listing).length + 1 = listing.length := by
  obtain ⟨before, after, split⟩ := List.append_of_mem member
  rw [unlisted_of_split names split, split]
  simp
  omega

theorem placed_unlisted {index : SortedArray} {at_ : Nat → Option Identity}
    (names : NamesHold index listing at_) (member : (oldSlot, old) ∈ listing) :
    placed (oldSlot, old) (unlisted oldSlot listing) = listing := by
  obtain ⟨before, after, split⟩ := List.append_of_mem member
  have sorted := names.sorted
  rw [Sorted, split, List.pairwise_append, List.pairwise_cons] at sorted
  obtain ⟨_, ⟨afterLess, _⟩, across⟩ := sorted
  rw [unlisted_of_split names split, split]
  exact placed_eq (fun item inBefore => across item inBefore (oldSlot, old) (by simp))
    fun item inAfter => le_of_lt (afterLess item inAfter)

theorem Moved.kept {table next : HashTable} (moved : Moved table next oldSlot newSlot) {slot : Nat}
    (occupied : (table.htable slot).state = .occupied) (different : slot ≠ oldSlot) :
    next.htable slot = table.htable slot := by
  refine moved.others slot different ?_
  rintro rfl
  exact moved.free different occupied

/-- The people are those of the other entries and the one at the new place. -/
theorem people_moved (mounted : Mounted db card view chain listing)
    (occupied : (db.htable.htable oldSlot).state = .occupied)
    (stored : view.contact (db.htable.htable oldSlot).sector = some old) {next : Database}
    (moved : Moved db.htable next.htable oldSlot newSlot) {later : View}
    (sectors : later.sector = view.sector) :
    (placed (newSlot, identity) (unlisted oldSlot listing)).map (personAt next later chain) =
      Model.insert ⟨identity, chatOf view chain (db.htable.htable oldSlot).sector⟩
        (Model.without old.phone (modelOf db view chain listing).people) := by
  have chats : ∀ slot, chatOf later chain slot = chatOf view chain slot := by
    intro slot
    rw [chatOf, chatOf, sectors]
  have slots := mounted.slot_iff_phone occupied stored
  rw [modelOf, map_placed fun _ => rfl, ← map_unlisted (fun _ => rfl) slots]
  congr 1
  · rw [personAt, chats, moved.sector]
  · refine List.map_congr_left fun item inList => ?_
    obtain ⟨inListing, different⟩ := mem_unlisted.mp inList
    rw [personAt, personAt, chats, moved.kept (mounted.listed_contact inListing).1 different]

/-- Every chat stays where it is in the order, under the number that its contact has now. -/
theorem recent_moved (mounted : Mounted db card view chain listing)
    (occupied : (db.htable.htable oldSlot).state = .occupied)
    (stored : view.contact (db.htable.htable oldSlot).sector = some old) {next : Database}
    (moved : Moved db.htable next.htable oldSlot newSlot) :
    (renamed oldSlot newSlot db.chatOrder.mem).map (phoneAt next
        (view.setContact (db.htable.htable oldSlot).sector (some identity))) =
      (modelOf db view chain listing).recent.map fun other =>
        if other = old.phone then identity.phone else other := by
  rw [modelOf, renamed, List.map_map, List.map_map]
  refine List.map_congr_left fun slot inOrder => ?_
  obtain ⟨slotOccupied, _⟩ := (mounted.order.mem slot).mp inOrder
  obtain ⟨known, entry⟩ := mounted.core.table.entry slot slotOccupied
  have slots := mounted.slot_iff_phone occupied stored _
    (mounted.listed_of slotOccupied entry.stored)
  simp only [Function.comp_apply, phone_at_listed slotOccupied entry.stored]
  by_cases isOld : slot = oldSlot
  · rw [if_pos isOld, if_pos (slots.mp isOld)]
    refine phone_at_listed moved.occupied ?_
    rw [moved.sector]
    exact set_contact_self _ _ _
  · have kept := moved.kept slotOccupied isOld
    have apart := mounted.sectors_apart occupied
      (mounted.listed_of slotOccupied entry.stored) isOld
    rw [if_neg isOld, if_neg fun same => isOld (slots.mpr same)]
    refine phone_at_listed (by rw [kept]; exact slotOccupied) ?_
    rw [kept]
    exact (set_contact_other _ _ apart).trans entry.stored

theorem Mounted.readdress (mounted : Mounted db card view chain listing)
    (occupied : (db.htable.htable oldSlot).state = .occupied)
    (stored : view.contact (db.htable.htable oldSlot).sector = some old)
    (others : ∀ other known, other ≠ (db.htable.htable oldSlot).sector →
      view.contact other = some known → known.phone ≠ identity.phone)
    {next : HashTable} (moved : Moved db.htable next oldSlot newSlot)
    {log : WriteLog Sector} {middle : Database}
    (core : Core middle (applyWrites log card)
      (view.setContact (db.htable.htable oldSlot).sector (some identity)) chain)
    (table : middle.htable = next)
    (index : middle.nameIndex = listedIndex (unlisted oldSlot listing))
    (order : middle.chatOrder = ⟨renamed oldSlot newSlot db.chatOrder.mem⟩) :
    let later := view.setContact (db.htable.htable oldSlot).sector (some identity)
    let list := placed (newSlot, identity) (unlisted oldSlot listing)
    let final := { middle with nameIndex := listedIndex list }
    out (sortedArrayInsert identity.record newSlot) middle (applyWrites log card) =
        ((.strgOk, final), []) ∧
      Mounted final (applyWrites log card) later chain list ∧
      modelOf final later chain list =
        { people := Model.insert ⟨identity, chatOf view chain (db.htable.htable oldSlot).sector⟩
            (Model.without old.phone (modelOf db view chain listing).people)
          recent := (modelOf db view chain listing).recent.map fun other =>
            if other = old.phone then identity.phone else other } := by
  intro later list final
  subst table
  have shorter := unlisted_length mounted.names (mounted.listed_of occupied stored)
  have unlistedNames : NamesHold middle.nameIndex (unlisted oldSlot listing)
      (Function.update (contactAt db.htable view.contact) oldSlot none) := by
    rw [index]
    exact mounted.names.unlist
  have newFree : Function.update (contactAt db.htable view.contact) oldSlot none newSlot = none := by
    by_cases same : newSlot = oldSlot
    · rw [same, Function.update_self]
    · rw [Function.update_of_ne same]
      exact contact_at_free (moved.free same)
  have fresh : ∀ item ∈ unlisted oldSlot listing, item.2.phone ≠ identity.phone := by
    intro item inList
    obtain ⟨inListing, different⟩ := mem_unlisted.mp inList
    exact others _ item.2 (mounted.sectors_apart occupied inListing different)
      (mounted.listed_contact inListing).2
  have room : (unlisted oldSlot listing).length < hashTableEntries := by
    have count := mounted.count_slots
    omega
  obtain ⟨run, names⟩ := index_insert core.holds.contacts unlistedNames newFree
    (contact_at_moved mounted.core.table occupied moved) fresh room
  refine ⟨run, ⟨core.names_only _, names, ?_, ?_⟩, ?_⟩
  · change OrderHolds middle.chatOrder middle.htable
    rw [order]
    exact mounted.order.move occupied moved
  · change middle.htable.numElems = list.length
    rw [moved.elems, mounted.count, ← shorter, placed_length]
  · have people : list.map (personAt final later chain) = _ :=
      people_moved mounted occupied stored moved rfl
    have recent : (renamed oldSlot newSlot db.chatOrder.mem).map (phoneAt final later) = _ :=
      recent_moved mounted occupied stored moved
    rw [modelOf, people, show final.chatOrder = ⟨renamed oldSlot newSlot db.chatOrder.mem⟩ from
      order, recent]

theorem hash_update_contact_same (core : Core db card view chain)
    (occupied : (db.htable.htable oldSlot).state = .occupied)
    (stored : view.contact (db.htable.htable oldSlot).sector = some old)
    (same : identity.phone = old.phone) :
    ∃ journal bitmap log,
      out (hashUpdateContact old.record identity.record) db card =
        ((.strgOk, { db with journal := journal, usageBitmap := bitmap }), log) ∧
      Leads card log bitmap (view.setContact (db.htable.htable oldSlot).sector (some identity))
        fun _ seen => seen = view ∨
          seen = view.setContact (db.htable.htable oldSlot).sector (some identity) := by
  obtain ⟨journal, bitmap, log, write, leads⟩ :=
    write_contact_run core.idle core.holds (core.contact_bound stored) identity
  refine ⟨journal, bitmap, log, ?_, leads⟩
  rw [hashUpdateContact, record_phone_cstr, record_phone_cstr, same, if_neg (by simp)]
  rw [out_bind_of (find_present core.table core.holds.contacts core.distinct occupied stored)]
  simp only [apply_writes_nil, List.nil_append]
  rw [out_bind_of (out_get _ _)]
  simp only [occupied, ne_eq, not_true_eq_false, if_false, apply_writes_nil, List.nil_append]
  exact write

theorem hash_update_contact_exists (core : Core db card view chain)
    (occupied : (db.htable.htable oldSlot).state = .occupied)
    (stored : view.contact (db.htable.htable oldSlot).sector = some old)
    {other : Identity} (otherOccupied : (db.htable.htable newSlot).state = .occupied)
    (otherStored : view.contact (db.htable.htable newSlot).sector = some other)
    (taken : other.phone = identity.phone) (different : identity.phone ≠ old.phone) :
    out (hashUpdateContact old.record identity.record) db card = ((.strgExists, db), []) := by
  rw [hashUpdateContact, record_phone_cstr, record_phone_cstr, if_pos (Ne.symm different),
    hashUpdatePhone,
    out_bind_of (find_present core.table core.holds.contacts core.distinct occupied stored)]
  simp only [apply_writes_nil, List.nil_append]
  rw [out_bind_of (out_get _ _)]
  simp only [occupied, ne_eq, not_true_eq_false, if_false, apply_writes_nil, List.nil_append]
  rw [record_phone_cstr, ← taken, out_bind_of (find_present core.table core.holds.contacts
    core.distinct otherOccupied otherStored)]
  simp only [apply_writes_nil, List.nil_append]
  rw [out_bind_of (out_get _ _)]
  simp only [otherOccupied, if_true, apply_writes_nil, List.nil_append]
  rfl

theorem hash_update_contact_moved (core : Core db card view chain)
    (occupied : (db.htable.htable oldSlot).state = .occupied)
    (stored : view.contact (db.htable.htable oldSlot).sector = some old)
    (absent : ∀ sector known, view.contact sector = some known → known.phone ≠ identity.phone) :
    ∃ newSlot journal bitmap log,
      out (hashUpdateContact old.record identity.record) db card =
        ((.strgOk,
          { db with
            journal := journal
            usageBitmap := bitmap
            htable := movedTable db.htable oldSlot newSlot (hashPhone identity.phone) }), log) ∧
      newSlot < hashTableSize ∧ (db.htable.htable newSlot).state ≠ .occupied ∧
      Reaches (tableCell db.htable view.contact) (tablePath identity.phone) newSlot ∧
      Leads card log bitmap (view.setContact (db.htable.htable oldSlot).sector (some identity))
        fun _ seen => seen = view ∨
          seen = view.setContact (db.htable.htable oldSlot).sector (some identity) := by
  obtain ⟨newSlot, run, bound, free, reaches⟩ :=
    find_absent core.table core.holds.contacts absent
  have different : newSlot ≠ oldSlot := by
    rintro rfl
    exact free occupied
  obtain ⟨journal, bitmap, log, write, leads⟩ := @write_contact_run
    { db with
      htable := db.htable.setEntry newSlot
        { db.htable.htable oldSlot with id := hashPhone identity.phone } }
    _ _ core.idle core.holds _ (core.contact_bound stored) identity
  have placedSector : ((db.htable.setEntry newSlot
      { db.htable.htable oldSlot with id := hashPhone identity.phone }).htable newSlot).sector =
      (db.htable.htable oldSlot).sector := by
    simp [HashTable.setEntry]
  have oldKept : (db.htable.setEntry newSlot
      { db.htable.htable oldSlot with id := hashPhone identity.phone }).htable oldSlot =
      db.htable.htable oldSlot := Function.update_of_ne (Ne.symm different) _ _
  refine ⟨newSlot, journal, bitmap, log, ?_, bound, free, reaches, leads⟩
  rw [hashUpdateContact, record_phone_cstr, record_phone_cstr,
    if_pos (absent _ old stored), hashUpdatePhone,
    out_bind_of (find_present core.table core.holds.contacts core.distinct occupied stored)]
  simp only [apply_writes_nil, List.nil_append]
  rw [out_bind_of (out_get _ _)]
  simp only [occupied, ne_eq, not_true_eq_false, if_false, apply_writes_nil, List.nil_append]
  rw [record_phone_cstr, out_bind_of run]
  simp only [apply_writes_nil, List.nil_append]
  rw [out_bind_of (out_get _ _)]
  simp only [free, if_false, apply_writes_nil, List.nil_append]
  rw [modifyTable, out_bind_of (out_modify _ _ _)]
  simp only [apply_writes_nil, List.nil_append]
  rw [out_bind_of (out_get _ _)]
  simp only [placedSector, apply_writes_nil, List.nil_append]
  rw [out_bind_of write]
  simp only [not_true_eq_false, if_false]
  rw [modifyTable, out_bind_of (out_modify _ _ _)]
  simp only [oldKept, out_pure, List.append_nil]
  rfl

theorem contact_update_refused (phone newName newPhone : Option CString)
    (refused : validPhone phone = none ∨ checkedIdentity newName newPhone = none) :
    out (databaseContactUpdate phone newName newPhone) db card = ((.strgFail, db), []) := by
  unfold databaseContactUpdate
  rcases refused with noOld | refused
  · simp only [noOld]
    rfl
  · cases validPhone phone with
    | none => rfl
    | some text =>
        rcases checked_identity_none refused with noText | noPhone
        · simp only [noText]
          rfl
        · simp only [noPhone]
          cases validStr newName maxNameLen <;> rfl

theorem out_databaseContactUpdate (mounted : Mounted db card view chain listing)
    {phone newName newPhone : Option CString}
    (occupied : (db.htable.htable oldSlot).state = .occupied)
    (stored : view.contact (db.htable.htable oldSlot).sector = some old)
    (given : validPhone phone = some old.phone)
    (checked : checkedIdentity newName newPhone = some identity) :
    out (databaseContactUpdate phone newName newPhone) db card =
      out (updateFoundContact oldSlot old.record identity.name identity.phone) db card := by
  obtain ⟨nameValid, phoneValid⟩ := checked_identity_some checked
  unfold databaseContactUpdate
  simp only [given, nameValid, phoneValid]
  rw [out_bind_of (out_findOccupied_known mounted.core occupied stored)]
  simp only [apply_writes_nil, List.nil_append]
  rw [out_bind_of (out_get _ _)]
  simp only [apply_writes_nil, List.nil_append]
  rw [out_bind_of (out_readContact_slot mounted.core stored)]
  simp only [apply_writes_nil, List.nil_append]

theorem out_modifyChatOrder (step : ChatOrder → StrgRet × ChatOrder) :
    out (modifyChatOrder step) db card =
      (((step db.chatOrder).1, { db with chatOrder := (step db.chatOrder).2 }), []) := rfl

theorem update_found_done (mounted : Mounted db card view chain listing)
    (occupied : (db.htable.htable oldSlot).state = .occupied)
    (stored : view.contact (db.htable.htable oldSlot).sector = some old)
    (others : ∀ other known, other ≠ (db.htable.htable oldSlot).sector →
      view.contact other = some known → known.phone ≠ identity.phone)
    {next : HashTable} (moved : Moved db.htable next oldSlot newSlot)
    (table : TableHolds next (Function.update view.contact (db.htable.htable oldSlot).sector
      (some identity)) (headOf chain))
    {log : WriteLog Sector} {journal : JournalHeader} {bitmap : UsageBitmap}
    (run : out (hashUpdateContact old.record identity.record)
        { db with nameIndex := listedIndex (unlisted oldSlot listing) } card =
      ((.strgOk, { db with
        nameIndex := listedIndex (unlisted oldSlot listing)
        journal := journal
        usageBitmap := bitmap
        htable := next }), log))
    (leads : Leads card log bitmap
      (view.setContact (db.htable.htable oldSlot).sector (some identity))
      fun _ seen => seen = view ∨
        seen = view.setContact (db.htable.htable oldSlot).sector (some identity)) :
    Carries (updateFoundContact oldSlot old.record identity.name identity.phone) db card view chain
      .strgOk
      { people := Model.insert ⟨identity, chatOf view chain (db.htable.htable oldSlot).sector⟩
          (Model.without old.phone (modelOf db view chain listing).people)
        recent := (modelOf db view chain listing).recent.map fun other =>
          if other = old.phone then identity.phone else other }
      (oldOrNew view) := by
  have core := (mounted.core.readdress stored others table leads journal).names_only
    (listedIndex (unlisted oldSlot listing))
  have member := mounted.listed_of occupied stored
  have removed := out_sortedArrayRemove mounted.core.holds.contacts mounted.readable mounted.names
    member
  have replaced := chat_order_replace_eq mounted.order.nodup oldSlot newSlot
  have newStored : (view.setContact (db.htable.htable oldSlot).sector (some identity)).contact
      (next.htable newSlot).sector = some identity := by
    rw [moved.sector]
    exact set_contact_self _ _ _
  have find := out_findOccupied_known core moved.occupied newStored
  obtain ⟨insertRun, final, model⟩ := mounted.readdress occupied stored others moved
    (core.order_only ⟨renamed oldSlot newSlot db.chatOrder.mem⟩) rfl rfl rfl
  refine ⟨_, log, _, chain, _, ?_, leads, final, fun tidy => ⟨tidy.nexts, tidy.covered⟩, model⟩
  have logEq : log = [] ++ (log ++ ([] ++ ([] ++ []))) := by simp
  rw [logEq]
  refine out_bind_both removed (out_bind_both run (out_bind_both find ?_))
  refine out_bind_both (out_modifyChatOrder _) ?_
  rw [replaced]
  exact insertRun

theorem update_found_exists (mounted : Mounted db card view chain listing)
    (occupied : (db.htable.htable oldSlot).state = .occupied)
    (stored : view.contact (db.htable.htable oldSlot).sector = some old)
    {other : Identity} (otherOccupied : (db.htable.htable newSlot).state = .occupied)
    (otherStored : view.contact (db.htable.htable newSlot).sector = some other)
    (taken : other.phone = identity.phone) (different : identity.phone ≠ old.phone) :
    out (updateFoundContact oldSlot old.record identity.name identity.phone) db card =
      ((.strgExists, db), []) := by
  have member := mounted.listed_of occupied stored
  have removed := out_sortedArrayRemove mounted.core.holds.contacts mounted.readable mounted.names
    member
  have core := mounted.core.names_only (listedIndex (unlisted oldSlot listing))
  have run := hash_update_contact_exists core occupied stored otherOccupied otherStored taken
    different
  have shorter := unlisted_length mounted.names member
  have fresh : ∀ item ∈ unlisted oldSlot listing, item.2.phone ≠ old.phone := by
    intro item inList same
    obtain ⟨inListing, notOld⟩ := mem_unlisted.mp inList
    exact notOld ((mounted.slot_iff_phone occupied stored item inListing).mpr same)
  have readable : Readable { db with nameIndex := listedIndex (unlisted oldSlot listing) } view
      (unlisted oldSlot listing) :=
    fun item inList => mounted.readable item (mem_unlisted.mp inList).1
  have room := mounted.count_slots
  have restored := out_sortedArrayInsert core.holds.contacts readable
    (@NamesHold.unlist _ _ oldSlot _ mounted.names) (by omega) old fresh oldSlot
  rw [placed_unlisted mounted.names member, ← mounted.names.index] at restored
  exact out_bind_both removed (out_bind_both run (out_bind_both restored rfl))

theorem contact_update_spec (mounted : Mounted db card view chain listing)
    (phone newName newPhone : Option CString) :
    Carries (databaseContactUpdate phone newName newPhone) db card view chain
      ((modelOf db view chain listing).updateContact phone newName newPhone).1
      ((modelOf db view chain listing).updateContact phone newName newPhone).2
      (oldOrNew view) := by
  unfold Model.updateContact
  cases given : validPhone phone with
  | none =>
      exact carries_unchanged mounted
        (contact_update_refused phone newName newPhone (Or.inl given)) (fun _ => Or.inl rfl)
  | some text =>
      cases checked : checkedIdentity newName newPhone with
      | none =>
          exact carries_unchanged mounted
            (contact_update_refused phone newName newPhone (Or.inr checked)) (fun _ => Or.inl rfl)
      | some identity =>
          rcases look_up mounted.core text with
            ⟨oldSlot, old, occupied, stored, rfl, find⟩ | ⟨absent, find⟩
          · have found := model_find mounted occupied stored
            have start := out_databaseContactUpdate mounted occupied stored given checked
            simp only [found]
            by_cases same : identity.phone = old.phone
            · rw [if_neg (by simp [same])]
              have core := mounted.core.names_only (listedIndex (unlisted oldSlot listing))
              obtain ⟨journal, bitmap, log, run, leads⟩ :=
                hash_update_contact_same core occupied stored same
              have done := update_found_done mounted occupied stored ?_ (moved_self occupied)
                (mounted.core.table.rename stored same) run leads
              · simpa only [Carries, start] using done
              · intro other known different otherStored taken
                exact different (mounted.core.distinct _ _ _ _ otherStored stored
                  (taken.trans same))
            · rcases look_up mounted.core identity.phone with
                ⟨newSlot, other, otherOccupied, otherStored, taken, _⟩ | ⟨free, _⟩
              · have exists_ := model_find mounted otherOccupied otherStored
                rw [taken] at exists_
                rw [if_pos ⟨same, by rw [exists_]; rfl⟩]
                refine carries_unchanged mounted ?_ (fun _ => Or.inl rfl)
                rw [start]
                exact update_found_exists mounted occupied stored otherOccupied otherStored taken
                  same
              · rw [if_neg (by simp [model_find_none mounted free])]
                have core := mounted.core.names_only (listedIndex (unlisted oldSlot listing))
                obtain ⟨newSlot, journal, bitmap, log, run, bound, freeSlot, reaches, leads⟩ :=
                  hash_update_contact_moved core occupied stored free
                have done := update_found_done mounted occupied stored
                  (fun other known _ => free other known)
                  (moved_table occupied freeSlot (hashPhone identity.phone))
                  (mounted.core.table.move occupied bound freeSlot reaches) run leads
                simpa only [Carries, start] using done
          · simp only [model_find_none mounted absent]
            refine carries_unchanged mounted ?_ (fun _ => Or.inl rfl)
            obtain ⟨nameValid, phoneValid⟩ := checked_identity_some checked
            unfold databaseContactUpdate
            simp only [given, nameValid, phoneValid]
            rw [out_bind_of find]
            rfl

end Update

end SdDatabase
