import SdDatabase.ContactUpdate

/-!
# Calls that change a chat

The chat of one contact changes on the card and its newest sector in the hash
table; name index and the other contacts stay. The calls that remove a chat, alone
or with its contact, are followed here.
-/

namespace SdDatabase

open Bytes Device

set_option autoImplicit false

section ChatChanges

variable {db : Database} {card : Card Sector} {view later : View} {chain : Nat → List Nat}
  {listing : Listing} {hashSlot : Nat} {sectors : List Nat} {identity : Identity}

/-- The table with another newest sector for one contact. -/
def latestTable (table : HashTable) (hashSlot newest : Nat) : HashTable :=
  table.setEntry hashSlot { table.htable hashSlot with latestMsgExtent := newest }

theorem latest_table_self (table : HashTable) (hashSlot newest : Nat) :
    (latestTable table hashSlot newest).htable hashSlot =
      { table.htable hashSlot with latestMsgExtent := newest } := Function.update_self _ _ _

theorem latest_table_other (table : HashTable) {hashSlot other : Nat} (different : other ≠ hashSlot)
    (newest : Nat) : (latestTable table hashSlot newest).htable other = table.htable other :=
  Function.update_of_ne different _ _

theorem latest_table_entry (table : HashTable) (hashSlot newest other : Nat) :
    ((latestTable table hashSlot newest).htable other).state = (table.htable other).state ∧
      ((latestTable table hashSlot newest).htable other).sector = (table.htable other).sector := by
  by_cases same : other = hashSlot
  · rw [same, latest_table_self]
    exact ⟨rfl, rfl⟩
  · rw [latest_table_other table same]
    exact ⟨rfl, rfl⟩

theorem contact_at_latest (table : HashTable) (contact : Nat → Option Identity)
    (hashSlot newest : Nat) :
    contactAt (latestTable table hashSlot newest) contact = contactAt table contact := by
  funext other
  simp only [contactAt, latest_table_entry]

theorem Core.chat_change (core : Core db card view chain)
    (occupied : (db.htable.htable hashSlot).state = .occupied)
    (change : ChatChange view later chain (db.htable.htable hashSlot).sector sectors)
    (messages : later.messageRing = view.messageRing) (calls : later.callRing = view.callRing)
    {allocator : FreeList}
    (free : FreeHold allocator totalMessageSectorSize fun index => later.sector index ≠ none)
    {log : WriteLog Sector} {bitmap : UsageBitmap} {during : Nat → View → Prop}
    (leads : Leads card log bitmap later during) (journal : JournalHeader) :
    Core
      { db with
        journal := journal
        usageBitmap := bitmap
        messageAllocator := allocator
        htable := latestTable db.htable hashSlot (sectors.headD uint16Max) }
      (applyWrites log card) later
      (Function.update chain (db.htable.htable hashSlot).sector sectors) where
  idle := leads.idle
  holds := leads.holds
  distinct := by
    rw [change.contact]
    exact core.distinct
  chats := core.chats.change change
  table := by
    rw [head_of_update, change.contact]
    exact core.table.setLatest occupied _
  contactFree := by
    rw [change.contact]
    exact core.contactFree
  messageFree := free
  messageRing := by
    rw [messages]
    exact core.messageRing
  callRing := by
    rw [calls]
    exact core.callRing

theorem OrderHolds.forget (order : OrderHolds db.chatOrder db.htable) :
    OrderHolds ⟨db.chatOrder.mem.erase hashSlot⟩ (latestTable db.htable hashSlot uint16Max) where
  nodup := order.nodup.erase _
  mem other := by
    rw [order.nodup.mem_erase_iff, order.mem]
    by_cases same : other = hashSlot
    · rw [same, latest_table_self]
      simp
    · rw [latest_table_other _ same]
      simp [same]

theorem OrderHolds.touch (order : OrderHolds db.chatOrder db.htable)
    (occupied : (db.htable.htable hashSlot).state = .occupied) {newest : Nat}
    (some_ : newest ≠ uint16Max) :
    OrderHolds ⟨hashSlot :: db.chatOrder.mem.erase hashSlot⟩
      (latestTable db.htable hashSlot newest) where
  nodup := by
    refine List.nodup_cons.mpr ⟨?_, order.nodup.erase _⟩
    rw [order.nodup.mem_erase_iff]
    simp
  mem other := by
    rw [List.mem_cons, order.nodup.mem_erase_iff, order.mem]
    by_cases same : other = hashSlot
    · rw [same, latest_table_self]
      simp only [true_or, occupied, true_and, true_iff]
      exact some_
    · rw [latest_table_other _ same]
      simp [same]

theorem Mounted.phone_at_injective (mounted : Mounted db card view chain listing)
    (occupied : (db.htable.htable hashSlot).state = .occupied)
    (stored : view.contact (db.htable.htable hashSlot).sector = some identity) :
    ∀ other ∈ db.chatOrder.mem, phoneAt db view other = phoneAt db view hashSlot →
      other = hashSlot := by
  intro other member same
  obtain ⟨otherOccupied, _⟩ := (mounted.order.mem other).mp member
  obtain ⟨known, entry⟩ := mounted.core.table.entry other otherOccupied
  rw [phone_at_listed otherOccupied entry.stored, phone_at_listed occupied stored] at same
  exact mounted.core.table.separate _ _ otherOccupied occupied
    (mounted.core.distinct _ _ _ _ entry.stored stored same)

theorem recent_erase (mounted : Mounted db card view chain listing)
    (occupied : (db.htable.htable hashSlot).state = .occupied)
    (stored : view.contact (db.htable.htable hashSlot).sector = some identity) :
    (db.chatOrder.mem.erase hashSlot).map (phoneAt db view) =
      (modelOf db view chain listing).recent.erase identity.phone := by
  rw [map_erase_on _ (mounted.phone_at_injective occupied stored),
    phone_at_listed occupied stored]
  rfl

theorem people_chat (mounted : Mounted db card view chain listing)
    (occupied : (db.htable.htable hashSlot).state = .occupied)
    (stored : view.contact (db.htable.htable hashSlot).sector = some identity)
    (change : ChatChange view later chain (db.htable.htable hashSlot).sector sectors)
    {table : HashTable}
    (same : ∀ other, (table.htable other).sector = (db.htable.htable other).sector) :
    (listing.map fun item => Person.mk item.2 (chatOf later
        (Function.update chain (db.htable.htable hashSlot).sector sectors)
        (table.htable item.1).sector)) =
      Model.insert ⟨identity, chatMessages later.sector sectors⟩
        (Model.without identity.phone (modelOf db view chain listing).people) := by
  have member := mounted.listed_of occupied stored
  have slots := mounted.slot_iff_phone occupied stored
  conv_lhs => rw [← placed_unlisted mounted.names member]
  rw [@map_placed _ (fun item => Person.mk item.2 (chatOf later
    (Function.update chain (db.htable.htable hashSlot).sector sectors)
    (table.htable item.1).sector)) fun _ => rfl]
  simp only [same]
  rw [chat_of_change_self, modelOf, ← map_unlisted (fun _ => rfl) slots]
  congr 1
  refine List.map_congr_left fun item inList => ?_
  obtain ⟨inListing, different⟩ := mem_unlisted.mp inList
  rw [personAt, chat_of_change_other change (mounted.sectors_apart occupied inListing different)]

theorem Mounted.chat_change (mounted : Mounted db card view chain listing)
    (occupied : (db.htable.htable hashSlot).state = .occupied)
    (stored : view.contact (db.htable.htable hashSlot).sector = some identity)
    (change : ChatChange view later chain (db.htable.htable hashSlot).sector sectors)
    {next : Database} {after : Card Sector}
    (core : Core next after later
      (Function.update chain (db.htable.htable hashSlot).sector sectors))
    (table : next.htable = latestTable db.htable hashSlot (sectors.headD uint16Max))
    (index : next.nameIndex = db.nameIndex)
    (order : OrderHolds next.chatOrder next.htable) :
    Mounted next after later (Function.update chain (db.htable.htable hashSlot).sector sectors)
        listing ∧
      modelOf next later (Function.update chain (db.htable.htable hashSlot).sector sectors)
          listing =
        { people := Model.insert ⟨identity, chatMessages later.sector sectors⟩
            (Model.without identity.phone (modelOf db view chain listing).people)
          recent := next.chatOrder.mem.map (phoneAt db view) } := by
  have contacts : contactAt next.htable later.contact = contactAt db.htable view.contact := by
    rw [table, change.contact, contact_at_latest]
  refine ⟨⟨core, ?_, order, ?_⟩, ?_⟩
  · rw [contacts, index]
    exact mounted.names
  · rw [table]
    exact mounted.count
  · rw [modelOf]
    congr 1
    · refine people_chat mounted occupied stored change fun other => ?_
      rw [table]
      exact (latest_table_entry _ _ _ _).2
    · refine List.map_congr_left fun other _ => ?_
      rw [phoneAt, phoneAt, contacts]

end ChatChanges

end SdDatabase
