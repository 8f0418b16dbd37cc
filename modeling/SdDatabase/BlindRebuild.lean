import SdDatabase.BlindMount
import SdDatabase.Represented

/-!
# The rebuild of a mount with failing reads

`database_mount` has read the journal and the bitmap, and the reads of the two scans behind
them fail as they like. The rebuild spares every chat unless a failed read makes the hash
lookup miss the owner of a chat that it has just read.
-/

namespace SdDatabase

open Bytes Device

set_option autoImplicit false

/-- The rebuild gave up, or every contact has its chat again. In both cases no sector of a chat
was given up, and the next healthy start-up shows everything. -/
structure RebuildSpares (machine : Machine) (outcome : Outcome Sector Database Bool) : Prop where
  attached : outcome.1.1 = true → ∀ hashSlot, machine.Occupied hashSlot →
    ∃ place, (outcome.1.2.htable.htable place).state = .occupied ∧
      (outcome.1.2.htable.htable place).sector = (machine.db.htable.htable hashSlot).sector ∧
      (outcome.1.2.htable.htable place).latestMsgExtent =
        (machine.db.htable.htable hashSlot).latestMsgExtent
  kept : ∀ hashSlot, machine.Occupied hashSlot → ∀ index ∈ machine.chainAt hashSlot,
    usageBit outcome.1.2.usageBitmap (messageDataSector index) = true ∧
      cardBit outcome.2.2 (messageDataSector index) = true ∧
      index ∉ outcome.1.2.messageAllocator.freeStack
  later : ∀ memory, ∃ next, Machine.restart outcome.2.2 memory = (.strgOk, next) ∧
    SameContents machine next

theorem RebuildSpares.not_lost {machine : Machine} {outcome : Outcome Sector Database Bool}
    (spares : RebuildSpares machine outcome) {hashSlot index : Nat}
    (occupied : machine.Occupied hashSlot) (member : index ∈ machine.chainAt hashSlot) :
    ¬UnusedAt (messageDataSector index) outcome.1.2 outcome.2.2 := by
  intro lost
  have kept := (spares.kept hashSlot occupied index member).1
  rw [lost.memory] at kept
  cases kept

/-- The two scans of a mount that has read the bitmap. -/
def Machine.blindTables (card : Card Sector) (memory : Database) (fails : Nat → Bool) :
    Outcome Sector Database Bool :=
  exec databaseTables (scanStart memory card) (.blind fails) card

/-- Only the reads behind the first `count` ones fail. -/
def failsBehind (count : Nat) (fails : Nat → Bool) (read : Nat) : Bool :=
  decide (count ≤ read) && fails (read - count)

section Rebuild

variable {machine : Machine} (reachable : Reachable machine) (memory : Database)

include reachable

/-- A start-up whose first reads succeed comes to the scans. -/
theorem init_reaches_scans (fails : Nat → Bool) :
    exec databaseInit memory (.blind (failsBehind (2 + usageBitmapSectorSize) fails))
        machine.card =
      exec databaseScans (scanStart memory machine.card) (.blind fails) machine.card := by
  obtain ⟨model, view, chain, listing, mounted, tidy, _⟩ := reachable.sound
  have comes := database_init_blind mounted.core.idle mounted.core.holds memory
    (fun _ => False) (failsBehind (2 + usageBitmapSectorSize) fails)
  have quiet : verdict (List.replicate (2 + usageBitmapSectorSize) .fatal)
      (failsBehind (2 + usageBitmapSectorSize) fails) = .clean := by
    apply verdict_quiet
    intro read inside
    rw [List.length_replicate] at inside
    rw [failsBehind, decide_eq_false (by omega), Bool.false_and]
  have behind : (fun read => failsBehind (2 + usageBitmapSectorSize) fails
      (read + (2 + usageBitmapSectorSize))) = fails := by
    funext read
    rw [failsBehind, decide_eq_true (Nat.le_add_left _ _), Bool.true_and, Nat.add_sub_cancel]
  rw [quiet, List.length_replicate] at comes
  dsimp only at comes
  rwa [behind] at comes

theorem chain_sector_used {hashSlot index : Nat} (occupied : machine.Occupied hashSlot)
    (member : index ∈ machine.chainAt hashSlot) :
    index < totalMessageSectorSize ∧
      usageBit machine.db.usageBitmap (messageDataSector index) = true := by
  obtain ⟨model, view, chain, listing, mounted, tidy, _⟩ := reachable.sound
  have messages := mounted.core.holds.messages
  rw [mounted.chain_at occupied] at member
  have stored := (mounted.core.chats.linked _).stored index member
  have inside := messages.bound index stored
  refine ⟨inside, ?_⟩
  rw [messages.used index inside]
  exact Option.isSome_iff_ne_none.mpr stored

/-- A card and a bitmap as they were keep the chats. -/
theorem unchanged_keeps_chats {outcome : Outcome Sector Database Bool}
    (bitmap : outcome.1.2.usageBitmap = (scanStart memory machine.card).usageBitmap)
    (free : ∀ index ∈ outcome.1.2.messageAllocator.freeStack,
      usageBit (scanStart memory machine.card).usageBitmap (messageDataSector index) = false)
    (kept : outcome.2.2 = machine.card) {hashSlot index : Nat}
    (occupied : machine.Occupied hashSlot) (member : index ∈ machine.chainAt hashSlot) :
    usageBit outcome.1.2.usageBitmap (messageDataSector index) = true ∧
      cardBit outcome.2.2 (messageDataSector index) = true ∧
      index ∉ outcome.1.2.messageAllocator.freeStack := by
  obtain ⟨inside, used⟩ := chain_sector_used reachable occupied member
  obtain ⟨model, view, chain, listing, mounted, tidy, _⟩ := reachable.sound
  have region : messageDataSector index < usageBitmapSectorSize * usageBitsPerSector := by
    simp at inside ⊢
    omega
  have sector : usageBitmapFindSector (messageDataSector index) < usageBitmapSectorSize := by
    simp at inside ⊢
    omega
  have loaded := (scan_start_holds mounted.core.holds memory).2 _ region
  rw [used] at loaded
  refine ⟨?_, ?_, fun freed => ?_⟩
  · rw [bitmap]
    exact loaded
  · rw [kept, card_bit_of_sector (mounted.core.holds.bits.mirror _ sector)]
    exact used
  · have unused := free index freed
    rw [loaded] at unused
    cases unused

theorem rebuild_spares {fails : Nat → Bool}
    (decided : verdict (contactReadings machine.db.usageBitmap machine.card ++
      messageReadings machine.db.usageBitmap machine.card) fails ≠ .astray) :
    RebuildSpares machine (Machine.blindTables machine.card memory fails) := by
  obtain ⟨model, view, chain, listing, mounted, tidy, _⟩ := reachable.sound
  obtain ⟨next, run, bitmap, table, free⟩ :=
    database_tables_blind mounted.core.holds (mounted.core.mountable tidy) memory
  have later : ∀ {card : Card Sector}, card = machine.card → ∀ memory, ∃ next,
      Machine.restart card memory = (.strgOk, next) ∧ SameContents machine next := by
    rintro card rfl memory
    exact reachable_restart reachable memory
  have known := run fails
  unfold Machine.blindTables
  cases end_ : verdict (contactReadings machine.db.usageBitmap machine.card ++
      messageReadings machine.db.usageBitmap machine.card) fails with
  | astray => exact absurd end_ decided
  | stopped =>
      rw [end_] at known
      refine ⟨fun answer => ?_, fun hashSlot occupied index member => ?_, later known.kept⟩
      · rw [known.answers] at answer
        cases answer
      · refine unchanged_keeps_chats reachable memory known.bitmap (fun index freed => ?_)
          known.kept occupied member
        rcases known.free index freed with before | unused
        · cases before
        · exact unused
  | clean =>
      rw [end_] at known
      dsimp only at known
      rw [known]
      refine ⟨fun _ hashSlot occupied => ?_, fun hashSlot occupied index member => ?_, later rfl⟩
      · -- the rebuilt entry of the same contact
        obtain ⟨identity, entry⟩ := mounted.core.table.entry hashSlot occupied
        obtain ⟨place, found, same⟩ := table.placed (machine.db.htable.htable hashSlot).sector
          (by rw [entry.stored]; exact Option.some_ne_none _)
        obtain ⟨_, rebuilt⟩ := table.entry place found
        exact ⟨place, found, same, by rw [rebuilt.latest, same, entry.latest]⟩
      · exact @unchanged_keeps_chats _ reachable memory ((true, next), _, machine.card) bitmap free
          rfl _ _ occupied member

/-- The wrong turn gives up a sector of a chat. -/
theorem rebuild_astray_loses {fails : Nat → Bool}
    (decided : verdict (contactReadings machine.db.usageBitmap machine.card ++
      messageReadings machine.db.usageBitmap machine.card) fails = .astray) :
    ∃ hashSlot, machine.Occupied hashSlot ∧ ∃ index ∈ machine.chainAt hashSlot,
      UnusedAt (messageDataSector index)
        (Machine.blindTables machine.card memory fails).1.2
        (Machine.blindTables machine.card memory fails).2.2 := by
  obtain ⟨model, view, chain, listing, mounted, tidy, _⟩ := reachable.sound
  obtain ⟨_, bits⟩ := scan_start_holds mounted.core.holds memory
  obtain ⟨next, run, _⟩ :=
    database_tables_blind mounted.core.holds (mounted.core.mountable tidy) memory
  have known := run fails
  rw [decided] at known
  obtain ⟨index, inside, used, _, lost⟩ := known
  rw [bits _ (by simp at inside ⊢; omega)] at used
  obtain ⟨hashSlot, occupied, member⟩ :=
    ((reachable_represented reachable).chains.used index inside).mp used
  exact ⟨hashSlot, occupied, index, member, lost⟩

/-- The rebuild spares the chats exactly when it takes no wrong turn. -/
theorem rebuild_spares_iff (fails : Nat → Bool) :
    RebuildSpares machine (Machine.blindTables machine.card memory fails) ↔
      verdict (contactReadings machine.db.usageBitmap machine.card ++
        messageReadings machine.db.usageBitmap machine.card) fails ≠ .astray := by
  refine ⟨fun spares astray => ?_, rebuild_spares reachable memory⟩
  obtain ⟨hashSlot, occupied, index, member, lost⟩ := rebuild_astray_loses reachable memory astray
  exact spares.not_lost occupied member lost

end Rebuild

/-- One contact with one message sector, and nothing else on the card. -/
structure SingleChat (view : View) (slot : Nat) (identity : Identity) (index : Nat)
    (mSector : MessageSector) : Prop where
  stored : view.contact slot = some identity
  contacts : ∀ other, view.contact other ≠ none → other = slot
  found : view.sector index = some mSector
  sectors : ∀ other, view.sector other ≠ none → other = index
  owner : mSector.header.contactIndex.toNat = slot
  newest : view.sector mSector.header.next.toNat = none

section SingleChat

variable {machine : Machine} {view : View} {chain : Nat → List Nat} {listing : Listing}

/-- A chat of one message is a chain of one sector. -/
theorem single_message_chain (mounted : Mounted machine.db machine.card view chain listing)
    {slot : Nat} (one : (chatOf view chain slot).length = 1) : ∃ index, chain slot = [index] := by
  have counted := mounted.core.chats.counted slot
  have linked := mounted.core.chats.linked slot
  rw [chatOf] at one
  have sector : ∀ index ∈ chain slot, ∃ mSector, view.sector index = some mSector ∧
      0 < mSector.newest.length := by
    intro index member
    obtain ⟨mSector, found⟩ := Option.ne_none_iff_exists'.mp (linked.stored index member)
    refine ⟨mSector, found, ?_⟩
    rw [show mSector.newest.length = mSector.header.msgCount.toNat from newest_first_length _ _]
    exact (counted index member mSector found).1
  cases sectors : chain slot with
  | nil =>
      rw [sectors] at one
      cases one
  | cons newest older =>
      cases older with
      | nil => exact ⟨newest, rfl⟩
      | cons next rest =>
          rw [sectors] at one sector
          obtain ⟨first, found, more⟩ := sector newest List.mem_cons_self
          obtain ⟨second, foundNext, moreNext⟩ :=
            sector next (List.mem_cons_of_mem _ List.mem_cons_self)
          rw [chat_messages_cons found, chat_messages_cons foundNext, List.length_append,
            List.length_append] at one
          omega

theorem single_chat_view (mounted : Mounted machine.db machine.card view chain listing)
    (tidy : Tidy view chain) {person : Person}
    (people : (modelOf machine.db view chain listing).people = [person])
    (one : person.chat.length = 1) :
    ∃ slot identity index mSector, SingleChat view slot identity index mSector := by
  obtain ⟨slot, stored, chat⟩ := (mem_people mounted person).mp (by
    rw [people]
    exact List.mem_cons_self)
  have contacts : ∀ other, view.contact other ≠ none → other = slot := by
    intro other given
    obtain ⟨identity, known⟩ := Option.ne_none_iff_exists'.mp given
    have member := (mem_people mounted ⟨identity, chatOf view chain other⟩).mpr
      ⟨other, known, rfl⟩
    rw [people, List.mem_singleton] at member
    subst member
    exact mounted.core.distinct other slot _ _ known stored rfl
  rw [← chat] at one
  obtain ⟨index, sectors⟩ := single_message_chain mounted one
  have links := tidy.nexts slot
  have owned := mounted.core.chats.owned slot
  rw [sectors] at links owned
  obtain ⟨⟨mSector, found, next⟩, _⟩ := links
  refine ⟨slot, person.identity, index, mSector, ⟨stored, contacts, found, ?_,
    owned index List.mem_cons_self mSector found, ?_⟩⟩
  · intro other given
    obtain ⟨otherSector, known⟩ := Option.ne_none_iff_exists'.mp given
    have member := tidy.covered other otherSector known
    rw [contacts _ (mounted.core.chats.contacts _ (List.ne_nil_of_mem member)), sectors] at member
    exact List.mem_singleton.mp member
  · rw [next]
    by_contra given
    exact absurd (mounted.core.holds.messages.bound _ given) (by simp)

end SingleChat

section Readings

variable {db : Database} {card : Card Sector} {view : View} {slot : Nat}
  {identity : Identity} {index : Nat} {mSector : MessageSector}
  (contacts : ContactsHold db.usageBitmap card view.contact)
  (messages : MessagesHold db.usageBitmap card view.sector)
  (single : SingleChat view slot identity index mSector)

include contacts single

theorem single_stored_phone (other : Nat) :
    storedPhone db.usageBitmap card other = if other = slot then some identity.phone else none := by
  rw [stored_phone_record contacts]
  by_cases same : other = slot
  · rw [if_pos same, same, contact_phones_some single.stored]
  · have none_ : view.contact other = none := by
      by_contra given
      exact same (single.contacts other given)
    rw [if_neg same, contactPhones, none_]
    rfl

/-- No other contact collides. -/
theorem single_no_collision {hash other : Nat} (different : other ≠ slot) :
    sameHash (storedPhone db.usageBitmap card) hash other = false := by
  rw [sameHash, single_stored_phone contacts single, if_neg different]
  rfl

theorem single_earlier (hash : Nat) :
    earlierContacts (storedPhone db.usageBitmap card) hash slot = 0 := by
  apply List.countP_eq_zero.mpr
  intro earlier member
  rw [single_no_collision contacts single (Nat.ne_of_lt (List.mem_range.mp member))]
  exact Bool.false_ne_true

theorem single_later (hash limit : Nat) :
    laterContacts (storedPhone db.usageBitmap card) hash slot limit = 0 := by
  apply List.countP_eq_zero.mpr
  intro later member
  rw [single_no_collision contacts single (Nat.ne_of_gt (List.mem_range'_1.mp member).1)]
  exact Bool.false_ne_true

theorem single_slot_readings (other : Nat) :
    slotReadings (storedPhone db.usageBitmap card) other = [] := by
  have phone := single_stored_phone contacts single other
  unfold slotReadings
  by_cases same : other = slot
  · rw [phone, if_pos same]
    dsimp only
    rw [same, single_earlier contacts single]
    rfl
  · rw [phone, if_neg same]

/-- The scan of the contacts reads one sector. -/
theorem single_contact_readings : contactReadings db.usageBitmap card = [.fatal] := by
  have bound := contacts.bound slot (by rw [single.stored]; exact Option.some_ne_none _)
  have inside : slot / 6 < totalContactSectorSize := slot_sector_bound bound
  have used : usageBit db.usageBitmap (slot / 6) = true :=
    (contacts.used _ inside).mpr ⟨slot % 6, Nat.mod_lt _ (by decide), by
      rw [Nat.div_add_mod' slot 6, single.stored]
      exact Option.some_ne_none _⟩
  have slots : segment (slotReadings (storedPhone db.usageBitmap card)) (slot / 6 * 6)
      (slot / 6 * 6 + 6) = [] :=
    segment_silent fun other _ _ => single_slot_readings contacts single other
  rw [contactReadings, segment_single (Nat.zero_le _) inside]
  · rw [contactSectorReadings, if_pos ⟨inside, used⟩, slots]
  · intro physSector _ below different
    apply sector_readings_unused
    intro _
    rw [Bool.eq_false_iff]
    intro marked
    obtain ⟨position, low, given⟩ := (contacts.used _ below).mp marked
    have place := single.contacts _ given
    omega

theorem single_owner_readings :
    ownerReadings (storedPhone db.usageBitmap card) slot = [.fatal, .wrong 0] := by
  rw [ownerReadings, single_stored_phone contacts single, if_pos rfl]
  dsimp only
  rw [single_earlier contacts single, single_later contacts single]
  rfl

include messages

/-- The scan of the messages reads one sector and then its owner, and the owner once more in the
lookup. -/
theorem single_message_readings :
    messageReadings db.usageBitmap card = [.fatal, .fatal, .wrong 0] := by
  obtain ⟨inside, used, _, content⟩ := messages.stored index mSector single.found
  have isHead : isChatHead db.usageBitmap mSector = true :=
    (is_chat_head_iff messages mSector).mpr single.newest
  rw [messageReadings, segment_single (Nat.zero_le _) inside]
  · unfold messageSectorReadings
    dsimp only
    rw [content, if_pos ⟨inside, used⟩, if_pos isHead, single.owner,
      single_owner_readings contacts single]
  · intro other _ below different
    unfold messageSectorReadings
    dsimp only
    apply if_neg
    rintro ⟨_, marked⟩
    rw [messages.used other below, Option.isSome_iff_ne_none] at marked
    exact different (single.sectors other marked)

end Readings

theorem example_chat_readings :
    contactReadings exampleChatMachine.db.usageBitmap exampleChatMachine.card ++
        messageReadings exampleChatMachine.db.usageBitmap exampleChatMachine.card =
      [.fatal, .fatal, .fatal, .wrong 0] := by
  obtain ⟨view, chain, listing, mounted, tidy, is⟩ := example_chat_sound
  have contacts := mounted.core.holds.contacts
  have messages := mounted.core.holds.messages
  obtain ⟨slot, identity, index, mSector, single⟩ :=
    single_chat_view mounted tidy (congrArg Model.people is) rfl
  rw [single_contact_readings contacts single, single_message_readings contacts messages single]
  rfl

/-- With read 4 the removal fails too and the rebuild gives up. -/
theorem rebuild_spares_iff_example :
    RebuildSpares exampleChatMachine (Machine.blindTables exampleChatMachine.card
        formattedDatabase fun read => decide (read = 3 ∨ read = 4)) ∧
      ¬RebuildSpares exampleChatMachine (Machine.blindTables exampleChatMachine.card
        formattedDatabase fun read => decide (read = 3)) ∧
      ∃ failing, ¬RebuildSpares exampleBook (Machine.blindTables exampleBook.card
        formattedDatabase fun read => decide (read = failing)) := by
  refine ⟨?_, ?_, ?_⟩
  · apply (rebuild_spares_iff example_chat_reachable formattedDatabase _).mpr
    rw [example_chat_readings]
    exact Verdict.noConfusion
  · intro spares
    apply (rebuild_spares_iff example_chat_reachable formattedDatabase _).mp spares
    rw [example_chat_readings]
    rfl
  · obtain ⟨person, listed, _, many⟩ := example_long_chat
    obtain ⟨index, inside, used⟩ := chat_sector_used example_book_sound listed
      (List.ne_nil_of_length_pos (Nat.lt_of_le_of_lt (Nat.zero_le _) many))
    obtain ⟨behind, member⟩ := stored_scan_wrong example_book_reachable inside used
    obtain ⟨failing, astray⟩ := single_failure_astray member
    exact ⟨failing, fun spares =>
      (rebuild_spares_iff example_book_reachable formattedDatabase _).mp spares astray⟩

/-- The owner of the only chat is read, and the read in the lookup fails. -/
theorem missed_owner_loses_chat :
    (∃ hashSlot, exampleChatMachine.Occupied hashSlot ∧
      ∃ index ∈ exampleChatMachine.chainAt hashSlot, UnusedAt (messageDataSector index)
        (Machine.blindTables exampleChatMachine.card formattedDatabase
          fun read => decide (read = 3)).1.2
        (Machine.blindTables exampleChatMachine.card formattedDatabase
          fun read => decide (read = 3)).2.2) ∧
    ¬RebuildSpares exampleChatMachine (Machine.blindTables exampleChatMachine.card
      formattedDatabase fun read => decide (read = 3)) := by
  have astray : verdict (contactReadings exampleChatMachine.db.usageBitmap
      exampleChatMachine.card ++ messageReadings exampleChatMachine.db.usageBitmap
        exampleChatMachine.card) (fun read => decide (read = 3)) = .astray := by
    rw [example_chat_readings]
    rfl
  obtain ⟨hashSlot, occupied, index, member, lost⟩ :=
    rebuild_astray_loses example_chat_reachable formattedDatabase astray
  exact ⟨⟨hashSlot, occupied, index, member, lost⟩,
    fun spares => spares.not_lost occupied member lost⟩

end SdDatabase
