import SdDatabase.Removal

/-!
# Adding messages and calls

A message is written to the newest sector of the chat or to a new sector in front
of it, for a contact that is created when the phone number is unknown. Then the chat
moves to the front of the chat order and the message enters the history.
-/

namespace SdDatabase

open Bytes Device OpenAddressing

set_option autoImplicit false

/-- The chat of `phone` must grow by a sector, `next`, since its newest one is full. -/
structure RollsOver (db : Database) (view : View) (chain : Nat → List Nat) (phone : List Byte)
    (slot newest next : Nat) (older : List Nat) (mSector : MessageSector) : Prop where
  contact : ∃ identity, view.contact slot = some identity ∧ identity.phone = phone
  whole : chain slot = newest :: older
  found : view.sector newest = some mSector
  full : messageSectorCapacity ≤ mSector.header.msgCount.toNat
  free : ∃ rest, db.messageAllocator.freeStack = next :: rest

/-- The views of an added message that is cut: as before, with the contact that was
created, with the new sector not yet linked, or as after but for the history. -/
inductive MessageViews (db : Database) (view : View) (chain : Nat → List Nat) (phone : List Byte)
    (message : Message) (later : View) (laterChain : Nat → List Nat) (count : Nat) (seen : View) :
    Prop where
  | before (same : seen = view)
      (early : ∀ slot newest next older mSector,
        RollsOver db view chain phone slot newest next older mSector → count ≤ 5)
  | entered (slot : Nat) (unnamed : Identity)
      (absent : ∀ sector other, view.contact sector = some other → other.phone ≠ phone)
      (free : view.contact slot = none) (is : unnamed.phone = phone ∧ unnamed.name = [])
      (same : seen = view.setContact slot (some unnamed))
  | unlinked (slot newest next : Nat) (older : List Nat) (mSector : MessageSector)
      (rolls : RollsOver db view chain phone slot newest next older mSector)
      (late : 5 < count) (early : count ≤ 10)
      (same : seen = view.grown slot newest next message)
  | after (contact : seen.contact = later.contact) (sector : seen.sector = later.sector)
      (late : ∀ slot newest next older mSector,
        RollsOver db view chain phone slot newest next older mSector → 10 < count)

section MessageHistory

variable {db : Database} {card : Card Sector} {view : View} {chain : Nat → List Nat}
  {listing : Listing}

/-- Memory after an entry of the message history. -/
def messageHistoryDatabase (db : Database) (started : Nat) (journal : JournalHeader) : Database :=
  { db with messageHistory := ringPosition started, journal := journal }

def callHistoryDatabase (db : Database) (started : Nat) (journal : JournalHeader) : Database :=
  { db with callHistory := ringPosition started, journal := journal }

theorem Core.message_history (core : Core db card view chain) {started : Nat}
    {log : WriteLog Sector} {during : Nat → View → Prop}
    (leads : Leads card log db.usageBitmap { view with messageRing := started } during)
    (journal : JournalHeader) :
    Core (messageHistoryDatabase db started journal) (applyWrites log card)
      { view with messageRing := started } chain :=
  ⟨leads.idle, leads.holds, core.distinct,
    ⟨core.chats.linked, core.chats.owned, core.chats.counted, core.chats.separate,
      core.chats.contacts⟩,
    core.table, core.contactFree, core.messageFree, rfl, core.callRing⟩

theorem Core.call_history (core : Core db card view chain) {started : Nat}
    {log : WriteLog Sector} {during : Nat → View → Prop}
    (leads : Leads card log db.usageBitmap { view with callRing := started } during)
    (journal : JournalHeader) :
    Core (callHistoryDatabase db started journal) (applyWrites log card)
      { view with callRing := started } chain :=
  ⟨leads.idle, leads.holds, core.distinct,
    ⟨core.chats.linked, core.chats.owned, core.chats.counted, core.chats.separate,
      core.chats.contacts⟩,
    core.table, core.contactFree, core.messageFree, core.messageRing, rfl⟩

theorem message_history_add_run (core : Core db card view chain) (entry : MessageHistoryEntry) :
    ∃ started journal log, 0 < started ∧
      out (messageHistoryAdd entry) db card =
        ((.strgOk, messageHistoryDatabase db started journal), log) ∧
      Leads card log db.usageBitmap { view with messageRing := started }
        fun _ seen => seen = view ∨ seen = { view with messageRing := started } :=
  history_add_run messageHistoryFrame core.idle core.holds core.messageRing entry

theorem call_history_add_run (core : Core db card view chain) (entry : CallHistoryEntry) :
    ∃ started journal log, 0 < started ∧
      out (callHistoryAdd entry) db card =
        ((.strgOk, callHistoryDatabase db started journal), log) ∧
      Leads card log db.usageBitmap { view with callRing := started }
        fun _ seen => seen = view ∨ seen = { view with callRing := started } :=
  history_add_run callHistoryFrame core.idle core.holds core.callRing entry

/-- A call changes the history only. -/
theorem Mounted.call_added (mounted : Mounted db card view chain listing) {started : Nat}
    {log : WriteLog Sector} {during : Nat → View → Prop}
    (leads : Leads card log db.usageBitmap { view with callRing := started } during)
    (journal : JournalHeader) :
    Mounted (callHistoryDatabase db started journal) (applyWrites log card)
      { view with callRing := started } chain listing :=
  ⟨mounted.core.call_history leads journal, mounted.names, mounted.order, mounted.count⟩

theorem call_added_carries (mounted : Mounted db card view chain listing) {program : DbM StrgRet}
    (entry : CallHistoryEntry)
    (same : out program db card = out (callHistoryAdd entry) db card) :
    Carries program db card view chain .strgOk (modelOf db view chain listing)
      (oldOrNew view) := by
  obtain ⟨started, journal, log, _, run, leads⟩ := call_history_add_run mounted.core entry
  exact ⟨_, log, _, chain, listing, same.trans run, leads, mounted.call_added leads journal,
    fun tidy => ⟨tidy.nexts, tidy.covered⟩, rfl⟩

theorem call_add_entry (mounted : Mounted db card view chain listing) {phone : Option CString}
    {text : List Byte} (given : validPhone phone = some text) :
    ∃ entry, out (databaseCallAdd phone) db card = out (callHistoryAdd entry) db card := by
  unfold databaseCallAdd
  rw [given]
  rcases look_up mounted.core text with
    ⟨hashSlot, identity, occupied, stored, rfl, find⟩ | ⟨absent, find⟩
  · refine ⟨⟨BitVec.ofNat 16 (db.htable.htable hashSlot).sector, identity.record, 0#8⟩, ?_⟩
    dsimp only
    rw [out_bind_of find]
    simp only [apply_writes_nil, List.nil_append]
    rw [out_bind_of (out_get _ _)]
    simp only [apply_writes_nil, List.nil_append]
    rw [out_bind_of (out_readContact_slot mounted.core stored)]
    simp only [apply_writes_nil, List.nil_append]
  · refine ⟨⟨BitVec.ofNat 16 uint16Max, createContact [] text, 0#8⟩, ?_⟩
    dsimp only
    rw [out_bind_of find]
    simp only [apply_writes_nil, List.nil_append]

theorem call_add_spec (mounted : Mounted db card view chain listing) (phone : Option CString) :
    Carries (databaseCallAdd phone) db card view chain (Model.addCall phone)
      (modelOf db view chain listing) (oldOrNew view) := by
  unfold Model.addCall
  cases given : validPhone phone with
  | none =>
      unfold databaseCallAdd
      rw [given]
      exact carries_unchanged mounted rfl (fun _ => Or.inl rfl)
  | some text =>
      obtain ⟨entry, same⟩ := call_add_entry mounted given
      exact call_added_carries mounted entry same

end MessageHistory

section Append

variable {db : Database} {card : Card Sector} {view : View} {chain : Nat → List Nat}
  {listing : Listing} {hashSlot : Nat} {identity : Identity}

/-- Memory after a message was written to the sector `newest`. -/
def appendedDatabase (db : Database) (hashSlot newest : Nat) (allocator : FreeList)
    (journal : JournalHeader) (bitmap : UsageBitmap) : Database :=
  { db with
    journal := journal
    usageBitmap := bitmap
    messageAllocator := allocator
    htable := latestTable db.htable hashSlot newest }

/-- A chat with a new sector, both links in place. -/
def View.linkedTo (view : View) (slot newest next : Nat) (mSector : MessageSector)
    (message : Message) : View :=
  (view.grown slot newest next message).setSector newest (some (mSector.pointTo next))

/-- What becomes of the sectors of a chat, of their chain and of the free sectors when a
message is written. -/
inductive ChatGrowth (view : View) (slot : Nat) (message : Message) (chain free : List Nat)
    (later : View) (sectors left : List Nat) : Prop where
  | started (index : Nat) (none_ : chain = []) (taken : free = index :: left)
      (chained : sectors = [index])
      (is : later.sector = (view.setSector index
        (some ((createNewMessageSector slot uint16Max).push message))).sector)
  | appended (newest : Nat) (older : List Nat) (mSector : MessageSector)
      (whole : chain = newest :: older) (found : view.sector newest = some mSector)
      (room : mSector.header.msgCount.toNat < messageSectorCapacity) (kept : left = free)
      (chained : sectors = chain)
      (is : later.sector = (view.setSector newest (some (mSector.push message))).sector)
  | grown (newest : Nat) (older : List Nat) (mSector : MessageSector) (next : Nat)
      (whole : chain = newest :: older) (found : view.sector newest = some mSector)
      (full : messageSectorCapacity ≤ mSector.header.msgCount.toNat) (taken : free = next :: left)
      (chained : sectors = next :: chain)
      (is : later.sector = (view.linkedTo slot newest next mSector message).sector)

theorem ChatGrowth.congr {view other : View} {slot : Nat} {message : Message}
    {chain free : List Nat} {later after : View} {sectors left : List Nat}
    (growth : ChatGrowth view slot message chain free later sectors left)
    (same : other.sector = view.sector) (sameLater : after.sector = later.sector) :
    ChatGrowth other slot message chain free after sectors left := by
  have set : ∀ index mSector,
      (other.setSector index mSector).sector = (view.setSector index mSector).sector := by
    intro index mSector
    rw [View.setSector, View.setSector, same]
  cases growth with
  | started index none_ taken chained is =>
      exact .started index none_ taken chained (by rw [sameLater, is, set])
  | appended newest older mSector whole found room kept chained is =>
      exact .appended newest older mSector whole (by rw [same]; exact found) room kept chained
        (by rw [sameLater, is, set])
  | grown newest older mSector next whole found full taken chained is =>
      refine .grown newest older mSector next whole (by rw [same]; exact found) full taken chained ?_
      rw [sameLater, is]
      change Function.update (View.setSector _ _ _).sector _ _ =
        Function.update (View.setSector _ _ _).sector _ _
      rw [set]

/-- The chat at `hashSlot` with the message in front, and memory in step with it. -/
structure Appended (db : Database) (card : Card Sector) (view : View) (chain : Nat → List Nat)
    (hashSlot : Nat) (phone : List Byte) (message : Message) (next : Database)
    (log : WriteLog Sector) (later : View) (sectors : List Nat) : Prop where
  run : out (appendToChat hashSlot message) db card = ((true, next), log)
  table : next.htable = latestTable db.htable hashSlot (sectors.headD uint16Max)
  index : next.nameIndex = db.nameIndex
  order : next.chatOrder = db.chatOrder
  newest : sectors.headD uint16Max ≠ uint16Max
  change : ChatChange view later chain (db.htable.htable hashSlot).sector sectors
  messages : chatMessages later.sector sectors =
    message :: chatOf view chain (db.htable.htable hashSlot).sector
  core : Core next (applyWrites log card) later
    (Function.update chain (db.htable.htable hashSlot).sector sectors)
  tidy : Tidy view chain →
    Tidy later (Function.update chain (db.htable.htable hashSlot).sector sectors)
  long : ∀ slot newest added older mSector,
    RollsOver db view chain phone slot newest added older mSector → 10 < log.length
  leads : Leads card log next.usageBitmap later (MessageViews db view chain phone message later
    (Function.update chain (db.htable.htable hashSlot).sector sectors))
  growth : ChatGrowth view (db.htable.htable hashSlot).sector message
    (chain (db.htable.htable hashSlot).sector) db.messageAllocator.freeStack later sectors
    next.messageAllocator.freeStack

theorem index_not_end {index : Nat} (bound : index < totalMessageSectorSize) :
    index ≠ uint16Max := by
  simp at bound ⊢
  omega

theorem latest_table_same (table : HashTable) (hashSlot : Nat) :
    latestTable table hashSlot (table.htable hashSlot).latestMsgExtent = table := by
  rw [latestTable, HashTable.setEntry]
  exact congrArg (fun entries => { table with htable := entries }) (Function.update_eq_self _ _)

theorem no_roll_over (core : Core db card view chain)
    (stored : view.contact (db.htable.htable hashSlot).sector = some identity)
    (room : ∀ newest older mSector,
      chain (db.htable.htable hashSlot).sector = newest :: older →
      view.sector newest = some mSector → mSector.header.msgCount.toNat < messageSectorCapacity)
    {slot newest next : Nat} {older : List Nat} {mSector : MessageSector} :
    ¬RollsOver db view chain identity.phone slot newest next older mSector := by
  intro rolls
  obtain ⟨known, knownStored, same⟩ := rolls.contact
  obtain rfl := core.distinct _ _ _ _ knownStored stored same
  exact absurd rolls.full (not_le.mpr (room newest older mSector rolls.whole rolls.found))

theorem message_views_simple {later : View} {laterChain : Nat → List Nat} {phone : List Byte}
    {message : Message}
    (none_ : ∀ slot newest next older mSector,
      ¬RollsOver db view chain phone slot newest next older mSector)
    {count : Nat} {seen : View} (known : seen = view ∨ seen = later) :
    MessageViews db view chain phone message later laterChain count seen := by
  rcases known with same | same
  · exact .before same fun _ _ _ _ _ rolls => absurd rolls (none_ _ _ _ _ _)
  · exact .after (by rw [same]) (by rw [same]) fun _ _ _ _ _ rolls =>
      absurd rolls (none_ _ _ _ _ _)

theorem out_allocateMessage {index : Nat} {rest : List Nat}
    (stack : db.messageAllocator.freeStack = index :: rest) :
    out allocateMessage db card =
      ((index, { db with
        messageAllocator :=
          { db.messageAllocator with
            freeStack := rest
            usedCount := db.messageAllocator.usedCount + 1 } }), []) := by
  have allocated : freeListAllocate db.messageAllocator =
      (index, { db.messageAllocator with
        freeStack := rest
        usedCount := db.messageAllocator.usedCount + 1 }) := by
    rw [freeListAllocate, stack]
  rw [allocateMessage, out_bind_of (out_get _ _), allocated]
  rfl

theorem Core.allocate_message (core : Core db card view chain) {index : Nat} {rest : List Nat}
    (stack : db.messageAllocator.freeStack = index :: rest) {later : View}
    (taken : ∀ other, later.sector other ≠ none ↔ view.sector other ≠ none ∨ other = index) :
    FreeHold
      { db.messageAllocator with
        freeStack := rest
        usedCount := db.messageAllocator.usedCount + 1 }
      totalMessageSectorSize fun other => later.sector other ≠ none :=
  core.messageFree.allocate stack taken

/-- The first message of a chat. -/
theorem append_start (core : Core db card view chain)
    (occupied : (db.htable.htable hashSlot).state = .occupied)
    (stored : view.contact (db.htable.htable hashSlot).sector = some identity)
    (none_ : chain (db.htable.htable hashSlot).sector = []) {index : Nat} {rest : List Nat}
    (stack : db.messageAllocator.freeStack = index :: rest) (message : Message) :
    ∃ next log later sectors,
      Appended db card view chain hashSlot identity.phone message next log later sectors := by
  obtain ⟨inside, unused⟩ := core.messageFree.top stack
  have free : view.sector index = none := not_not.mp unused
  have given : view.contact (db.htable.htable hashSlot).sector ≠ none := by
    rw [stored]
    exact Option.some_ne_none _
  have bound := core.contact_bound stored
  obtain ⟨journal, bitmap, log, run, leads⟩ := @write_new_message_sector_run { db with
    messageAllocator :=
      { db.messageAllocator with
        freeStack := rest
        usedCount := db.messageAllocator.usedCount + 1 } }
    _ _ core.idle core.holds _ inside free (db.htable.htable hashSlot).sector message
  have change := start_change core.chats bound given free message
  have taken : ∀ other, (view.setSector index
      (some ((createNewMessageSector (db.htable.htable hashSlot).sector uint16Max).push
        message))).sector other ≠ none ↔ view.sector other ≠ none ∨ other = index := by
    intro other
    by_cases same : other = index
    · rw [same, set_sector_self]
      simp
    · rw [set_sector_other _ _ same]
      simp [same]
  have noEnd := index_not_end inside
  have noRoll : ∀ slot newest next older mSector,
      ¬RollsOver db view chain identity.phone slot newest next older mSector := by
    intro slot newest next older mSector
    refine no_roll_over core stored fun first others _ whole _ => ?_
    rw [none_] at whole
    cases whole
  refine ⟨appendedDatabase db hashSlot index
      { db.messageAllocator with
        freeStack := rest
        usedCount := db.messageAllocator.usedCount + 1 } journal bitmap,
    log, _, [index], ?_, rfl, rfl, rfl, noEnd, change, start_messages none_ message,
    core.chat_change occupied change rfl rfl (core.allocate_message stack taken) leads journal,
    fun tidy => start_tidy core.chats tidy bound given none_ free message,
    fun _ _ _ _ _ rolls => absurd rolls (noRoll _ _ _ _ _), ?_,
    .started index none_ stack rfl rfl⟩
  · have logEq : log = [] ++ ([] ++ (log ++ ([] ++ []))) := by simp
    rw [logEq]
    unfold appendToChat
    refine out_bind_both (out_get _ _) ?_
    simp only [(latest_end_iff core occupied).mpr none_, if_true, apply_writes_nil]
    refine out_bind_both (out_allocateMessage stack) ?_
    simp only [noEnd, if_false]
    exact out_bind_both run (out_bind_both (out_modify _ _ _) rfl)
  · exact leads.mono fun count seen known => message_views_simple noRoll known

theorem append_room (core : Core db card view chain)
    (occupied : (db.htable.htable hashSlot).state = .occupied)
    (stored : view.contact (db.htable.htable hashSlot).sector = some identity)
    {newest : Nat} {older : List Nat}
    (whole : chain (db.htable.htable hashSlot).sector = newest :: older)
    {mSector : MessageSector} (found : view.sector newest = some mSector)
    (room : mSector.header.msgCount.toNat < messageSectorCapacity) (message : Message) :
    ∃ next log later sectors,
      Appended db card view chain hashSlot identity.phone message next log later sectors := by
  have inside := core.holds.messages.bound newest (by rw [found]; exact Option.some_ne_none _)
  have latest : (db.htable.htable hashSlot).latestMsgExtent = newest := by
    rw [latest_of core occupied, headOf, whole]
    rfl
  obtain ⟨journal, bitmap, log, run, leads⟩ := write_message_run core.idle core.holds found room
    message
  have change := append_change core.chats whole found room message
  have same : latestTable db.htable hashSlot newest = db.htable := by
    rw [← latest]
    exact latest_table_same _ _
  have taken : ∀ other, (view.setSector newest (some (mSector.push message))).sector other ≠ none ↔
      view.sector other ≠ none := by
    intro other
    by_cases here : other = newest
    · rw [here, set_sector_self, found]
      simp
    · rw [set_sector_other _ _ here]
  have noRoll : ∀ slot first next others other,
      ¬RollsOver db view chain identity.phone slot first next others other := by
    intro slot first next others other
    refine no_roll_over core stored fun first_ others_ other_ sameChain otherFound => ?_
    rw [whole] at sameChain
    obtain ⟨rfl, _⟩ := List.cons_eq_cons.mp sameChain
    rw [found, Option.some.injEq] at otherFound
    rwa [← otherFound]
  refine ⟨appendedDatabase db hashSlot newest db.messageAllocator journal bitmap, log, _,
    newest :: older, ?_, rfl, rfl, rfl, index_not_end inside, change,
    append_messages core.chats whole found room message,
    core.chat_change occupied change rfl rfl (core.messageFree.congr taken) leads journal,
    fun tidy => append_tidy core.chats tidy whole found room message,
    fun _ _ _ _ _ rolls => absurd rolls (noRoll _ _ _ _ _), ?_,
    .appended newest older mSector whole found room rfl whole.symm rfl⟩
  · have logEq : log = [] ++ (log ++ []) := by simp
    rw [logEq, appendedDatabase, same]
    unfold appendToChat
    refine out_bind_both (out_get _ _) ?_
    simp only [latest, index_not_end inside, if_false, apply_writes_nil]
    exact out_bind_both run rfl
  · exact leads.mono fun count seen known => message_views_simple noRoll known

theorem append_grow (core : Core db card view chain)
    (occupied : (db.htable.htable hashSlot).state = .occupied)
    (stored : view.contact (db.htable.htable hashSlot).sector = some identity)
    {newest : Nat} {older : List Nat}
    (whole : chain (db.htable.htable hashSlot).sector = newest :: older)
    {mSector : MessageSector} (found : view.sector newest = some mSector)
    (full : messageSectorCapacity ≤ mSector.header.msgCount.toNat) {next : Nat} {rest : List Nat}
    (stack : db.messageAllocator.freeStack = next :: rest) (message : Message) :
    ∃ final log later sectors,
      Appended db card view chain hashSlot identity.phone message final log later sectors := by
  obtain ⟨inside, unused⟩ := core.messageFree.top stack
  have free : view.sector next = none := not_not.mp unused
  have newestInside := core.holds.messages.bound newest
    (by rw [found]; exact Option.some_ne_none _)
  have low : newest < 65536 := by
    simp at newestInside
    omega
  have nextLow : next < 65536 := by
    simp at inside
    omega
  have different : next ≠ newest := by
    rintro rfl
    rw [found] at free
    cases free
  have latest : (db.htable.htable hashSlot).latestMsgExtent = newest := by
    rw [latest_of core occupied, headOf, whole]
    rfl
  have bound := core.contact_bound stored
  obtain ⟨journal, bitmap, log, run, length, leads⟩ := @write_next_message_sector_run { db with
    messageAllocator :=
      { db.messageAllocator with
        freeStack := rest
        usedCount := db.messageAllocator.usedCount + 1 } }
    _ _ core.idle core.holds _ _ _ found inside free (db.htable.htable hashSlot).sector message
  let later := view.linkedTo (db.htable.htable hashSlot).sector newest next mSector message
  have added : later.sector next =
      some ((createNewMessageSector (db.htable.htable hashSlot).sector newest).push message) := by
    change (View.setSector _ newest _).sector next = _
    rw [set_sector_other _ _ different]
    exact set_sector_self _ _ _
  have linked : later.sector newest = some (mSector.pointTo next) := set_sector_self _ _ _
  have others : ∀ index, index ≠ next → index ≠ newest →
      later.sector index = view.sector index := by
    intro index notNext notNewest
    change (View.setSector _ newest _).sector index = _
    rw [set_sector_other _ _ notNewest]
    exact set_sector_other _ _ notNext
  have change : ChatChange view later chain (db.htable.htable hashSlot).sector
      (next :: newest :: older) := grow_change core.chats bound whole found low free message rfl
    added (Or.inr linked) others
  have taken : ∀ other, later.sector other ≠ none ↔
      view.sector other ≠ none ∨ other = next := by
    intro other
    by_cases isNext : other = next
    · rw [isNext, added]
      simp
    · by_cases isNewest : other = newest
      · rw [isNewest, linked, found]
        simp
      · rw [others other isNext isNewest]
        simp [isNext]
  refine ⟨appendedDatabase db hashSlot next
      { db.messageAllocator with
        freeStack := rest
        usedCount := db.messageAllocator.usedCount + 1 } journal bitmap,
    log, later, next :: newest :: older, ?_, rfl, rfl, rfl, index_not_end inside, change,
    grow_messages core.chats whole found free message added (Or.inr linked) others,
    core.chat_change occupied change rfl rfl (core.allocate_message stack taken) leads journal,
    fun tidy => grow_tidy core.chats tidy bound whole found low free nextLow message rfl added
      linked others, fun _ _ _ _ _ _ => by omega, ?_,
    .grown newest older mSector next whole found full stack (by rw [whole]) rfl⟩
  · have logEq : log = [] ++ ([] ++ ([] ++ (log ++ ([] ++ [])))) := by simp
    rw [logEq]
    unfold appendToChat
    refine out_bind_both (out_get _ _) ?_
    simp only [latest, index_not_end newestInside, if_false, apply_writes_nil]
    refine out_bind_both (write_message_full core.holds found full message) ?_
    simp only [if_true, apply_writes_nil]
    refine out_bind_both (out_allocateMessage stack) ?_
    exact out_bind_both run (out_bind_both (out_modify _ _ _) rfl)
  · have rolls : RollsOver db view chain identity.phone (db.htable.htable hashSlot).sector newest
        next older mSector :=
      ⟨⟨identity, stored, rfl⟩, whole, found, full, rest, stack⟩
    refine leads.mono fun count seen known => ?_
    unfold whileGrowing at known
    split at known
    · exact .before known fun _ _ _ _ _ _ => by assumption
    · split at known
      · exact .unlinked _ newest next older mSector rolls (by omega) (by assumption) known
      · exact .after (congrArg View.contact known) (congrArg View.sector known)
          fun _ _ _ _ _ _ => by omega

/-- The newest sector of a chat is needed when the chat has none or it is full. -/
def NeedsSector (view : View) (chain : Nat → List Nat) (slot : Nat) : Prop :=
  ∀ newest older mSector, chain slot = newest :: older → view.sector newest = some mSector →
    messageSectorCapacity ≤ mSector.header.msgCount.toNat

/-- A message to a known contact, unless a sector is needed that does not exist. -/
theorem append_to_chat_run (core : Core db card view chain)
    (occupied : (db.htable.htable hashSlot).state = .occupied)
    (stored : view.contact (db.htable.htable hashSlot).sector = some identity)
    (given : NeedsSector view chain (db.htable.htable hashSlot).sector →
      db.messageAllocator.freeStack ≠ []) (message : Message) :
    ∃ next log later sectors,
      Appended db card view chain hashSlot identity.phone message next log later sectors := by
  cases whole : chain (db.htable.htable hashSlot).sector with
  | nil =>
      have needed : NeedsSector view chain (db.htable.htable hashSlot).sector := by
        intro newest older mSector impossible
        rw [whole] at impossible
        cases impossible
      obtain ⟨index, rest, stack⟩ := List.exists_cons_of_ne_nil (given needed)
      exact append_start core occupied stored whole stack message
  | cons newest older =>
      obtain ⟨mSector, found⟩ := @ChatsHold.member _ _ core.chats (db.htable.htable hashSlot).sector
        newest (by rw [whole]; simp)
      by_cases room : mSector.header.msgCount.toNat < messageSectorCapacity
      · exact append_room core occupied stored whole found room message
      · have full := not_lt.mp room
        have needed : NeedsSector view chain (db.htable.htable hashSlot).sector := by
          intro first others other sameChain otherFound
          rw [whole] at sameChain
          obtain ⟨rfl, _⟩ := List.cons_eq_cons.mp sameChain
          rw [found, Option.some.injEq] at otherFound
          rwa [← otherFound]
        obtain ⟨next, rest, stack⟩ := List.exists_cons_of_ne_nil (given needed)
        exact append_grow core occupied stored whole found full stack message

end Append

end SdDatabase
