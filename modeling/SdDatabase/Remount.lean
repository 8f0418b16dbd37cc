import SdDatabase.ChatSort
import SdDatabase.Rebuild
import SdDatabase.Format
import SdDatabase.Reading

/-!
# Mounting

`database_init` on a card that holds a view: the journal is rolled back if need
be, and the structures in memory are built from the card alone. Which database
was in memory before does not matter.
-/

namespace SdDatabase

open Bytes Device Heapsort

set_option autoImplicit false

def loadedBitmap (card : Card Sector) (sectors : List Nat) (bitmap : UsageBitmap) : UsageBitmap :=
  sectors.foldl (fun bitmap sector => loadBitmap bitmap sector
    (card (usageBitmapStartSector + sector))) bitmap

theorem loaded_sector (card : Card Sector) (sectors : List Nat) (bitmap : UsageBitmap)
    {sector : Nat} (stored : sector ∈ sectors ∨
      bitmapSector bitmap sector = card (usageBitmapStartSector + sector)) :
    bitmapSector (loadedBitmap card sectors bitmap) sector =
      card (usageBitmapStartSector + sector) := by
  induction sectors generalizing bitmap with
  | nil => simpa [loadedBitmap] using stored
  | cons head tail ih =>
      apply ih
      by_cases same : sector = head
      · right
        rw [same, bitmap_sector_load]
      · rcases stored with member | before
        · exact Or.inl (List.mem_of_ne_of_mem same member)
        · right
          rwa [bitmap_sector_load_other _ _ same]

theorem out_readBitmapSectors (sectors : List Nat) (db : Database) (card : Card Sector) :
    out (readBitmapSectors sectors) db card =
      ((true, { db with usageBitmap := loadedBitmap card sectors db.usageBitmap }), []) := by
  induction sectors generalizing db with
  | nil => rfl
  | cons sector rest ih =>
      have logEq : ([] : WriteLog Sector) = [] ++ ([] ++ []) := rfl
      unfold readBitmapSectors
      rw [logEq]
      exact out_bind_both (out_readBlock _ _ _) (out_bind_both (out_modify _ _ _) (ih _))

theorem bitmap_word_decode (bitmap : UsageBitmap) (sector : Nat) {element : Nat}
    (bound : element < 128) :
    word32.decode ((bitmapSector bitmap sector).bytes.drop (element * 4)) =
      bitmap.word (sector * 128 + element) := by
  have blocks : (bitmapSector bitmap sector).bytes =
      (List.ofFn fun index : Fin 128 =>
        word32.encode (bitmap.word (sector * 128 + index))).flatten ++ [] := by
    rw [List.append_nil]
    rfl
  rw [blocks, drop_flatten 4 element _ _ (by
      intro block member
      obtain ⟨index, rfl⟩ := List.mem_ofFn.mp member
      exact word32.encode_length _) (by rw [List.length_ofFn]; exact bound),
    List.getElem_ofFn, word32.decode_encode]

theorem usage_bit_sector {first second : UsageBitmap} {dataSector : Nat}
    (same : bitmapSector first (dataSector / 4064) = bitmapSector second (dataSector / 4064)) :
    usageBit first dataSector = usageBit second dataSector := by
  have element : dataSector % 4064 / 32 < 128 := by omega
  have words : first.word (usageBitmapFindIndex dataSector) =
      second.word (usageBitmapFindIndex dataSector) := by
    have index : usageBitmapFindIndex dataSector =
        dataSector / 4064 * 128 + dataSector % 4064 / 32 := by simp
    rw [index, ← bitmap_word_decode first _ element, ← bitmap_word_decode second _ element, same]
  rw [usage_bit_eq, usage_bit_eq, words]

theorem usage_bit_congr {first second : UsageBitmap}
    (same : ∀ sector < usageBitmapSectorSize,
      bitmapSector first sector = bitmapSector second sector) {dataSector : Nat}
    (region : dataSector < usageBitmapSectorSize * usageBitsPerSector) :
    usageBit first dataSector = usageBit second dataSector := by
  apply usage_bit_sector
  apply same
  simp at region ⊢
  omega

theorem Holds.same_sectors {bitmap other : UsageBitmap} {card : Card Sector} {view : View}
    (holds : Holds bitmap card view)
    (same : ∀ sector < usageBitmapSectorSize,
      bitmapSector other sector = bitmapSector bitmap sector) : Holds other card view where
  superheader := holds.superheader
  bits := by
    refine ⟨fun sector bound => ?_, fun sector bound => ?_, fun dataSector above region => ?_⟩
    · rw [same sector bound]
      exact holds.bits.mirror sector bound
    · rw [same sector bound]
      exact holds.bits.stamped sector bound
    · rw [usage_bit_congr same region]
      exact holds.bits.beyond dataSector above region
  contacts := by
    refine holds.contacts.congr (fun physSector inside => usage_bit_congr same ?_)
      fun physSector _ _ => rfl
    simp at inside ⊢
    omega
  messages := by
    refine holds.messages.congr (fun index inside => usage_bit_congr same ?_) fun index _ => rfl
    simp at inside ⊢
    omega
  rings := holds.rings

theorem read_usage_bitmap_run {bitmap : UsageBitmap} {card : Card Sector} {view : View}
    (holds : Holds bitmap card view) (db : Database) :
    ∃ loaded, out readUsageBitmap db card = ((true, { db with usageBitmap := loaded }), []) ∧
      Holds loaded card view := by
  have sectors : ∀ sector < usageBitmapSectorSize,
      bitmapSector (loadedBitmap card (List.range usageBitmapSectorSize) db.usageBitmap) sector =
        bitmapSector bitmap sector := by
    intro sector bound
    rw [loaded_sector _ _ _ (Or.inl (List.mem_range.mpr bound)), holds.bits.mirror sector bound]
  refine ⟨loadedBitmap card (List.range usageBitmapSectorSize) db.usageBitmap, ?_,
    holds.same_sectors sectors⟩
  have valid : ((List.range usageBitmapSectorSize).all fun sector => sectorCrcValid (bitmapSector
      (loadedBitmap card (List.range usageBitmapSectorSize) db.usageBitmap) sector)) = true := by
    rw [List.all_eq_true]
    intro sector member
    rw [sectors sector (List.mem_range.mp member)]
    exact holds.bits.stamped sector (List.mem_range.mp member)
  have logEq : ([] : WriteLog Sector) = [] ++ ([] ++ []) := rfl
  unfold readUsageBitmap
  rw [logEq]
  refine out_bind_both (out_readBitmapSectors _ _ _) ?_
  simp only [if_true]
  refine out_bind_both (out_get _ _) ?_
  simp only [valid]
  rfl

/-- The newest message of the chat at a hash slot. -/
def newestAt (db : Database) (view : View) (chain : Nat → List Nat) (hashSlot : Nat) : Message :=
  (chatOf view chain (db.htable.htable hashSlot).sector).headD .zero

def timeAt (db : Database) (view : View) (chain : Nat → List Nat) (hashSlot : Nat) : Nat :=
  joinTimestamp (newestAt db view chain hashSlot).timestampHi
    (newestAt db view chain hashSlot).timestampLo

theorem TableHolds.few {table : HashTable} {contact : Nat → Option Identity} {latest : Nat → Nat}
    (holds : TableHolds table contact latest)
    (bound : ∀ sector, contact sector ≠ none → sector < hashTableEntries) {slots : List Nat}
    (nodup : slots.Nodup) (occupied : ∀ slot ∈ slots, (table.htable slot).state = .occupied) :
    slots.length ≤ hashTableEntries := by
  have sectors : (slots.map fun slot => (table.htable slot).sector).Nodup := by
    refine (List.nodup_map_iff_inj_on nodup).mpr fun first firstIn second secondIn same => ?_
    exact holds.separate first second (occupied first firstIn) (occupied second secondIn) same
  have subset : (slots.map fun slot => (table.htable slot).sector) ⊆
      List.range hashTableEntries := by
    intro sector member
    obtain ⟨slot, inSlots, rfl⟩ := List.mem_map.mp member
    obtain ⟨identity, entry⟩ := holds.entry slot (occupied slot inSlots)
    exact List.mem_range.mpr (bound _ (by rw [entry.stored]; exact Option.some_ne_none _))
  have length := (List.subperm_of_subset sectors subset).length_le
  rwa [List.length_map, List.length_range] at length

section ChatOrderBuild

variable {db : Database} {card : Card Sector} {view : View} {chain : Nat → List Nat}
  (table : TableHolds db.htable view.contact (headOf chain))
  (messages : MessagesHold db.usageBitmap card view.sector) (chats : ChatsHold view chain)

include table messages chats

theorem newest_message_at {hashSlot : Nat} (listed : hasChat db.htable hashSlot = true) :
    newestMessage db.usageBitmap card (db.htable.htable hashSlot).latestMsgExtent =
      some (newestAt db view chain hashSlot) := by
  obtain ⟨occupied, notEnd⟩ := has_chat_iff.mp listed
  obtain ⟨_, entry⟩ := table.entry hashSlot occupied
  have linked := chats.linked (db.htable.htable hashSlot).sector
  have counted := chats.counted (db.htable.htable hashSlot).sector
  rw [← entry.latest] at linked
  unfold newestAt chatOf
  cases whole : chain (db.htable.htable hashSlot).sector with
  | nil =>
      rw [whole] at linked
      exact absurd linked notEnd
  | cons index rest =>
      rw [whole] at linked counted
      obtain ⟨same, mSector, found, _⟩ := linked
      obtain ⟨inside, used, valid, content⟩ := messages.stored index mSector found
      have count := counted index (by simp) mSector found
      have newest : (chatMessages view.sector (index :: rest)).headD .zero =
          arrayGet mSector.messages (mSector.header.msgCount.toNat - 1) .zero := by
        obtain ⟨fewer, isSucc⟩ := Nat.exists_eq_succ_of_ne_zero (Nat.ne_of_gt count.1)
        rw [chatMessages, List.flatMap_cons, found]
        dsimp only
        rw [MessageSector.newest, newestFirst, isSucc, List.range_succ, List.reverse_append]
        rfl
      rw [same, newest]
      unfold newestMessage
      dsimp only
      rw [content, if_pos ⟨inside, used, valid, count⟩]

theorem chat_order_build_run (contacts : ContactsHold db.usageBitmap card view.contact) :
    ∃ order, out chatOrderBuild db card = ((.strgOk, { db with chatOrder := order }), []) ∧
      OrderHolds order db.htable ∧
      order.mem.Pairwise fun first second =>
        timeAt db view chain second ≤ timeAt db view chain first := by
  have slots : ((List.range hashTableSize).filter (hasChat db.htable)).Nodup :=
    List.Nodup.filter _ List.nodup_range
  have few := table.few contacts.bound slots fun slot member =>
    (has_chat_iff.mp (List.of_mem_filter member)).1
  obtain ⟨order, perm, ordered, run⟩ := out_chatOrderBuild
    (fun slot member => newest_message_at table messages chats (List.of_mem_filter member)) few
  refine ⟨⟨order⟩, run, ⟨perm.nodup_iff.mpr slots, fun hashSlot => ?_⟩, ?_⟩
  · rw [perm.mem_iff, List.mem_filter, has_chat_iff, List.mem_range]
    constructor
    · exact fun both => both.2
    · intro both
      exact ⟨table.inside hashSlot (by rw [both.1]; simp), both⟩
  · refine ordered.imp fun less => ?_
    exact OrderDual.ofDual_le_ofDual.mpr (Prod.Lex.monotone_fst _ _ less)

end ChatOrderBuild

/-- The hash slot with its contact, when it has one. -/
def itemAt (db : Database) (contact : Nat → Option Identity) (hashSlot : Nat) :
    Option (Nat × Identity) :=
  (contactAt db.htable contact hashSlot).map fun identity => (hashSlot, identity)

def recordAt (db : Database) (contact : Nat → Option Identity) (hashSlot : Nat) : Contact :=
  ((contactAt db.htable contact hashSlot).map Identity.record).getD .zero

section NameIndexBuild

variable {db : Database} {card : Card Sector} {view : View} {latest : Nat → Nat}

theorem map_filter_map_of_inverse {A B : Type} {f : A → B} {g : B → Option A} {list : List B}
    (inverse : ∀ value ∈ list, ∃ origin, g value = some origin ∧ f origin = value) :
    (list.filterMap g).map f = list := by
  induction list with
  | nil => rfl
  | cons head tail ih =>
      obtain ⟨origin, found, same⟩ := inverse head (by simp)
      rw [List.filterMap_cons_some found, List.map_cons, same,
        ih fun value member => inverse value (by simp [member])]

theorem mem_occupied (table : TableHolds db.htable view.contact latest) {hashSlot : Nat} :
    hashSlot ∈ occupiedBetween db.htable 0 hashTableSize ↔
      ∃ identity, contactAt db.htable view.contact hashSlot = some identity := by
  rw [occupiedBetween, List.mem_filter, decide_eq_true_eq, List.mem_range'_1]
  constructor
  · rintro ⟨_, occupied⟩
    obtain ⟨identity, entry⟩ := table.entry hashSlot occupied
    exact ⟨identity, (contact_at_occupied occupied).trans entry.stored⟩
  · rintro ⟨identity, stored⟩
    have occupied := (contact_at_some stored).1
    have inside := table.inside hashSlot (by rw [occupied]; simp)
    exact ⟨⟨Nat.zero_le _, by omega⟩, occupied⟩

theorem sorted_array_build_run (table : TableHolds db.htable view.contact latest)
    (contacts : ContactsHold db.usageBitmap card view.contact) (distinct : Distinct view.contact) :
    ∃ listing, out sortedArrayBuild db card =
        ((.strgOk, { db with nameIndex := listedIndex listing }), []) ∧
      NamesHold (listedIndex listing) listing (contactAt db.htable view.contact) := by
  obtain ⟨slots, slotsEq⟩ : ∃ slots, slots = occupiedBetween db.htable 0 hashTableSize := ⟨_, rfl⟩
  have known : ∀ slot ∈ slots, ∃ identity, contactAt db.htable view.contact slot = some identity ∧
      recordAt db view.contact slot = identity.record := by
    intro slot member
    rw [slotsEq] at member
    obtain ⟨identity, stored⟩ := (mem_occupied table).mp member
    refine ⟨identity, stored, ?_⟩
    rw [recordAt, stored]
    rfl
  have nodup : slots.Nodup := by
    rw [slotsEq]
    exact List.Nodup.filter _ List.nodup_range'
  have few := table.few contacts.bound nodup fun slot member => by
    obtain ⟨identity, stored, _⟩ := known slot member
    exact (contact_at_some stored).1
  obtain ⟨order, perm, ordered, run⟩ := @out_sortedArrayBuild db card (recordAt db view.contact)
    (by
      rw [← slotsEq]
      intro slot member
      obtain ⟨identity, stored, same⟩ := known slot member
      have record := stored_contact_record contacts (db.htable.htable slot).sector
      rw [(contact_at_some stored).2] at record
      rw [ReadsBack, same]
      exact record)
    (by
      rw [← slotsEq]
      intro slot member
      obtain ⟨identity, _, same⟩ := known slot member
      rw [same]
      exact record_wellFormed identity)
    (by rwa [← slotsEq])
  rw [← slotsEq] at perm
  obtain ⟨listing, listingEq⟩ :
      ∃ listing, listing = order.filterMap (itemAt db view.contact) := ⟨_, rfl⟩
  have items : ∀ slot ∈ order, ∃ item, itemAt db view.contact slot = some item ∧ item.1 = slot := by
    intro slot member
    obtain ⟨identity, stored, _⟩ := known slot (perm.mem_iff.mp member)
    exact ⟨(slot, identity), by rw [itemAt, stored]; rfl, rfl⟩
  have slotsOf : listing.map Prod.fst = order := by
    rw [listingEq]
    exact map_filter_map_of_inverse items
  have listed : ∀ slot identity, (slot, identity) ∈ listing ↔
      contactAt db.htable view.contact slot = some identity := by
    intro slot identity
    rw [listingEq, List.mem_filterMap]
    constructor
    · rintro ⟨hashSlot, _, found⟩
      obtain ⟨other, stored, same⟩ := Option.map_eq_some_iff.mp found
      obtain ⟨rfl, rfl⟩ := Prod.mk.injEq _ _ _ _ ▸ same
      exact stored
    · intro stored
      refine ⟨slot, perm.mem_iff.mpr ?_, by rw [itemAt, stored]; rfl⟩
      rw [slotsEq]
      exact (mem_occupied table).mpr ⟨identity, stored⟩
  have recordOf : ∀ item ∈ listing, recordAt db view.contact item.1 = item.2.record := by
    intro item member
    rw [recordAt, (listed item.1 item.2).mp member]
    rfl
  have entries : order.map (slotEntry (recordAt db view.contact)) = listing.map listedEntry := by
    rw [← slotsOf, List.map_map]
    refine List.map_congr_left fun item member => ?_
    rw [Function.comp_apply, slotEntry, recordOf item member, ← recorded_entry]
    rfl
  refine ⟨listing, by rw [run, entries, listedIndex], rfl, ?_, listed⟩
  have weak : listing.Pairwise fun first second => nameKey first.2 ≤ nameKey second.2 := by
    rw [← slotsOf, List.pairwise_map] at ordered
    refine ordered.imp_of_mem fun {first second} firstIn secondIn less => ?_
    rwa [recordOf first firstIn, recordOf second secondIn, contact_key_record,
      contact_key_record] at less
  have apart : listing.Pairwise (· ≠ ·) :=
    List.Nodup.of_map Prod.fst (by rw [slotsOf]; exact perm.nodup_iff.mpr nodup)
  refine (weak.and apart).imp_of_mem fun {first second} firstIn secondIn both => ?_
  refine lt_of_le_of_ne both.1 fun same => both.2 ?_
  obtain ⟨firstOccupied, firstStored⟩ := contact_at_some ((listed _ _).mp firstIn)
  obtain ⟨secondOccupied, secondStored⟩ := contact_at_some ((listed _ _).mp secondIn)
  have place := distinct _ _ _ _ firstStored secondStored (name_key_phone same)
  have slot := table.separate _ _ firstOccupied secondOccupied place
  refine Prod.ext slot ?_
  rw [slot, secondStored] at firstStored
  exact Option.some_injective _ firstStored.symm

end NameIndexBuild

/-- What the mount needs of the contacts and chats on a card. -/
structure Mountable (view : View) (chain : Nat → List Nat) : Prop where
  distinct : Distinct view.contact
  chats : ChatsHold view chain
  owners : ∀ index mSector, view.sector index = some mSector →
    view.contact mSector.header.contactIndex.toNat ≠ none
  heads : ∀ slot, latestHead view slot totalMessageSectorSize = headOf chain slot

def RecentFirst (db : Database) (view : View) (chain : Nat → List Nat) : Prop :=
  db.chatOrder.mem.Pairwise fun first second =>
    timeAt db view chain second ≤ timeAt db view chain first

section Mount

variable {bitmap : UsageBitmap} {card : Card Sector} {view : View} {chain : Nat → List Nat}

theorem listing_length {db : Database} {latest : Nat → Nat} {listing : Listing}
    (table : TableHolds db.htable view.contact latest)
    (bound : ∀ sector, view.contact sector ≠ none → sector < hashTableEntries)
    (names : NamesHold (listedIndex listing) listing (contactAt db.htable view.contact)) :
    listing.length = (List.range hashTableEntries).countP fun slot => (view.contact slot).isSome := by
  have stored : ∀ item ∈ listing, (db.htable.htable item.1).state = .occupied ∧
      view.contact (db.htable.htable item.1).sector = some item.2 :=
    fun item member => contact_at_some ((names.listed item.1 item.2).mp member)
  have sectors : (listing.map fun item => (db.htable.htable item.1).sector).Nodup := by
    refine (List.nodup_map_iff_inj_on names.sorted.nodup).mpr
      fun first firstIn second secondIn same => ?_
    have slot := table.separate _ _ (stored first firstIn).1 (stored second secondIn).1 same
    refine Prod.ext slot (Option.some_injective _ ?_)
    rw [← (stored first firstIn).2, ← (stored second secondIn).2, same]
  have whole : (listing.map fun item => (db.htable.htable item.1).sector).Perm
      ((List.range hashTableEntries).filter fun slot => (view.contact slot).isSome) := by
    refine (List.perm_ext_iff_of_nodup sectors (List.nodup_range.filter _)).mpr fun sector => ?_
    rw [List.mem_filter, List.mem_range, List.mem_map, Option.isSome_iff_exists]
    constructor
    · rintro ⟨item, member, rfl⟩
      have known := (stored item member).2
      exact ⟨bound _ (by rw [known]; exact Option.some_ne_none _), item.2, known⟩
    · rintro ⟨_, identity, known⟩
      obtain ⟨hashSlot, occupied, rfl⟩ :=
        table.placed sector (by rw [known]; exact Option.some_ne_none _)
      refine ⟨(hashSlot, identity), (names.listed _ _).mpr ?_, rfl⟩
      rw [contact_at_occupied occupied, known]
  rw [List.countP_eq_length_filter, ← whole.length_eq, List.length_map]

theorem database_rebuild_run (idle : JournalIdle card) (holds : Holds bitmap card view)
    (mountable : Mountable view chain) (db : Database) :
    ∃ next listing, out databaseRebuild db card = ((.strgOk, next), []) ∧
      Mounted next card view chain listing ∧ RecentFirst next view chain := by
  obtain ⟨loaded, load, loadedHolds⟩ := read_usage_bitmap_run holds
    { db with
      contactAllocator := ⟨[], hashTableEntries, hashTableEntries⟩
      messageAllocator := ⟨[], totalMessageSectorSize, totalMessageSectorSize⟩
      htable := hashInit hashTableSize }
  have some_ : ∀ slot, (view.contact slot).isSome = true ↔ view.contact slot ≠ none :=
    fun slot => Option.isSome_iff_ne_none
  obtain ⟨base, baseEq⟩ : ∃ base : Database, base =
      { db with
        contactAllocator := ⟨[], hashTableEntries, hashTableEntries⟩
        messageAllocator := ⟨[], totalMessageSectorSize, totalMessageSectorSize⟩
        htable := hashInit hashTableSize
        usageBitmap := loaded } := ⟨_, rfl⟩
  have loadRun : out readUsageBitmap
      { db with
        contactAllocator := ⟨[], hashTableEntries, hashTableEntries⟩
        messageAllocator := ⟨[], totalMessageSectorSize, totalMessageSectorSize⟩
        htable := hashInit hashTableSize } card = ((true, base), []) := by
    rw [load, baseEq]
  have baseBitmap : base.usageBitmap = loaded := by rw [baseEq]
  have baseTable : base.htable = hashInit hashTableSize := by rw [baseEq]
  -- contacts
  have freshContacts : ContactsBuilt base view.contact 0 base := by
    refine ⟨rfl, ?_, ?_, ?_⟩
    · rw [baseTable]
      exact hash_init_holds fun slot => if_neg (Nat.not_lt_zero _)
    · rw [baseTable]
      rfl
    · rw [baseEq]
      exact free_below_start _ _ _
  have contacts : ContactsHold base.usageBitmap card view.contact := by
    rw [baseBitmap]
    exact loadedHolds.contacts
  obtain ⟨second, contactRun, contactsBuilt⟩ :=
    hash_reconstruct_contact_run contacts mountable.distinct freshContacts
  have whole := slots_below_all contacts.bound
  have secondBitmap : second.usageBitmap = loaded := contactsBuilt.bitmap.trans baseBitmap
  have secondTable := contactsBuilt.table
  rw [whole] at secondTable
  -- messages
  have freshMessages : MessagesBuilt second view 0 second := by
    refine ⟨rfl, secondTable, rfl, ?_⟩
    rw [contactsBuilt.same, baseEq]
    exact free_below_start _ _ _
  have secondHolds : Holds second.usageBitmap card view := by
    rw [secondBitmap]
    exact loadedHolds
  obtain ⟨third, messageRun, messagesBuilt⟩ := hash_reconstruct_message_run secondHolds.contacts
    secondHolds.messages mountable.distinct mountable.owners secondHolds.bits freshMessages
  have thirdHolds : Holds third.usageBitmap card view := by
    rw [messagesBuilt.bitmap]
    exact secondHolds
  have table : TableHolds third.htable view.contact (headOf chain) := by
    have heads : (fun slot => latestHead view slot totalMessageSectorSize) = headOf chain :=
      funext mountable.heads
    rw [← heads]
    exact messagesBuilt.table
  -- the two indexes
  obtain ⟨order, orderRun, orderHolds, recent⟩ := chat_order_build_run table thirdHolds.messages
    mountable.chats thirdHolds.contacts
  obtain ⟨listing, namesRun, names⟩ := @sorted_array_build_run { third with chatOrder := order }
    card view (headOf chain) table thirdHolds.contacts mountable.distinct
  have historyRun := @out_historyInit
    { third with chatOrder := order, nameIndex := listedIndex listing } card _ _ thirdHolds
  refine ⟨{ third with
    chatOrder := order
    nameIndex := listedIndex listing
    messageHistory := ringPosition view.messageRing
    callHistory := ringPosition view.callRing }, listing, ?_, ?_, recent⟩
  · have logEq : ([] : WriteLog Sector) =
        [] ++ ([] ++ ([] ++ ([] ++ ([] ++ ([] ++ []))))) := rfl
    have contactsInit : freeListEmptyInit hashTableEntries =
        some ⟨[], hashTableEntries, hashTableEntries⟩ := if_neg (by simp)
    have messagesInit : freeListEmptyInit totalMessageSectorSize =
        some ⟨[], totalMessageSectorSize, totalMessageSectorSize⟩ := if_neg (by simp)
    unfold databaseRebuild
    rw [contactsInit, messagesInit, logEq]
    refine out_bind_both (out_modify _ _ _) (out_bind_both loadRun ?_)
    refine out_bind_both contactRun (out_bind_both messageRun (out_bind_both orderRun ?_))
    exact out_bind_both namesRun historyRun
  · refine ⟨⟨idle, thirdHolds, mountable.distinct, mountable.chats, table, ?_, ?_, rfl, rfl⟩, names,
      orderHolds, ?_⟩
    · have free := contactsBuilt.free.hold (le_refl _)
      rw [messagesBuilt.same]
      exact free.congr fun slot => (some_ slot).symm
    · exact (messagesBuilt.free.hold (le_refl _)).congr fun index => Option.isSome_iff_ne_none.symm
    · refine (messagesBuilt.number.trans contactsBuilt.number).trans (Eq.symm ?_)
      exact @listing_length _ { third with chatOrder := order } _ _ table thirdHolds.contacts.bound
        names

theorem database_init_run {final : Card Sector} (restores : Restores card final)
    (holds : Holds bitmap final view) (mountable : Mountable view chain) (db : Database) :
    ∃ next listing, out databaseInit db card =
        ((.strgOk, next), (out journalInit db.clear card).2) ∧
      applyWrites (out journalInit db.clear card).2 card = final ∧
      Mounted next final view chain listing ∧ RecentFirst next view chain := by
  obtain ⟨header, log, recovery, applied⟩ := restores.run db.clear
  have good := holds.superheader
  rw [restores.superheader] at good
  subst applied
  obtain ⟨next, listing, run, mounted, recent⟩ := database_rebuild_run
    restores.idle holds mountable { db.clear with journal := header }
  refine ⟨next, listing, ?_, by rw [recovery], mounted, recent⟩
  have check : out superheaderCheck db.clear card = ((.good, db.clear), []) := by
    unfold superheaderCheck
    have narrow : u16 superheaderSector = superheaderSector := rfl
    rw [out_bind_of (out_readSectorRaw _ _ _), narrow]
    simp only [good]
    rfl
  have logEq : log = [] ++ ([] ++ ([] ++ (log ++ []))) := by simp
  have cleared : db.clear = { db.clear with journal := .zero } := rfl
  rw [recovery]
  unfold databaseInit
  rw [logEq]
  refine out_bind_both (out_modify _ _ _) (out_bind_both check ?_)
  unfold databaseMount
  refine out_bind_both (out_modify _ _ _) ?_
  rw [← cleared]
  exact out_bind_both recovery run

/-- A cut during a start-up, which writes to the card only to recover the journal. -/
theorem database_init_cut {final : Card Sector} (recovers : Recovers card final)
    (holds : Holds bitmap final view) (mountable : Mountable view chain) (db : Database)
    (count : Nat) : Recovers (cutCard databaseInit db count card) final := by
  obtain ⟨next, listing, run, _⟩ := database_init_run recovers.restores holds mountable db
  have cut := recovers_cut recovers db.clear count
  rw [cut_card_eq] at cut ⊢
  rwa [run]

/-- Any number of start-ups, each cut somewhere. -/
inductive CutInits : Card Sector → Card Sector → Prop where
  | none (card : Card Sector) : CutInits card card
  | cut {card later : Card Sector} (db : Database) (count : Nat)
      (rest : CutInits (cutCard databaseInit db count card) later) : CutInits card later

theorem recovers_cut_inits {later final : Card Sector} (recovers : Recovers card final)
    (holds : Holds bitmap final view) (mountable : Mountable view chain)
    (cuts : CutInits card later) : Recovers later final := by
  induction cuts with
  | none => exact recovers
  | cut db count rest ih => exact ih (database_init_cut recovers holds mountable db count)

end Mount

section Heads

variable {view : View} {slot : Nat}

theorem latest_head_last {index count : Nat} {mSector : MessageSector} (inside : index < count)
    (stored : view.sector index = some mSector)
    (head : view.sector mSector.header.next.toNat = none)
    (owner : mSector.header.contactIndex.toNat = slot)
    (last : ∀ other mOther, index < other → view.sector other = some mOther →
      view.sector mOther.header.next.toNat = none → mOther.header.contactIndex.toNat ≠ slot) :
    latestHead view slot count = index := by
  induction count with
  | zero => omega
  | succ count ih =>
      unfold latestHead
      by_cases here : index = count
      · rw [← here, stored]
        exact if_pos ⟨head, owner⟩
      · have earlier := ih (by omega)
        cases found : view.sector count with
        | none => exact earlier
        | some mOther =>
            dsimp only
            rw [if_neg fun both => last count mOther (by omega) found both.1 both.2]
            exact earlier

theorem latest_head_none {count : Nat}
    (none_ : ∀ index mSector, view.sector index = some mSector →
      view.sector mSector.header.next.toNat = none → mSector.header.contactIndex.toNat ≠ slot) :
    latestHead view slot count = uint16Max := by
  induction count with
  | zero => rfl
  | succ count ih =>
      unfold latestHead
      cases found : view.sector count with
      | none => exact ih
      | some mSector =>
          dsimp only
          rw [if_neg fun both => none_ count mSector found both.1 both.2]
          exact ih

/-- In a chain with its forward links only the newest sector points to no sector in use. -/
theorem next_chain_head {sector : Nat → Option MessageSector} {start index : Nat}
    {sectors : List Nat} (links : NextChain sector start sectors)
    (stored : sectors = [] ∨ sector start = none) (member : index ∈ sectors)
    {mSector : MessageSector} (found : sector index = some mSector)
    (head : sector mSector.header.next.toNat = none) : sectors.headD uint16Max = index := by
  cases sectors with
  | nil => cases member
  | cons newest older =>
      rcases List.mem_cons.mp member with rfl | inOlder
      · rfl
      · exfalso
        obtain ⟨⟨newer, newerStored, -⟩, behind⟩ := links
        clear stored member
        induction older generalizing newest newer with
        | nil => cases inOlder
        | cons next rest ih =>
            obtain ⟨⟨mNext, nextStored, points⟩, later⟩ := behind
            rcases List.mem_cons.mp inOlder with rfl | inRest
            · obtain rfl : mNext = mSector := Option.some_injective _ (nextStored.symm.trans found)
              rw [points, newerStored] at head
              cases head
            · exact ih next inRest later mNext nextStored

end Heads

end SdDatabase
