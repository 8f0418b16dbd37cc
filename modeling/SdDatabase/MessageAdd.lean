import SdDatabase.MessageCalls

/-!
# Adding a message

`database_message_add` from the look-up of the phone number to the entry in the
message history, for known and for new phone numbers.
-/

namespace SdDatabase

open Bytes Device OpenAddressing

set_option autoImplicit false

/-- Whether the call takes a sector from the message allocator. -/
def asksForSector : Call → DbM Bool
  | .messageAdd phone timestamp _ str => do
      match validPhone phone, str with
      | some phone, some _ =>
          if timestamp = 0#32 then
            return false
          match ← findOccupied phone with
          | .error _ => return !(← get).contactAllocator.freeStack.isEmpty
          | .ok slot =>
              let latest := ((← get).htable.htable slot).latestMsgExtent
              if latest = uint16Max then
                return true
              match ← readMessageSector latest with
              | .error _ => return false
              | .ok content =>
                  let mSector : MessageSector := ofSector content
                  return decide (messageSectorCapacity ≤ mSector.header.msgCount.toNat)
      | _, _ => return false
  | _ => return false

/-- The call takes a sector from the message allocator while it has none. -/
def Exhausts (call : Call) (db : Database) (card : Card Sector) : Prop :=
  (out (asksForSector call) db card).1.1 = true ∧ db.messageAllocator.freeStack = []

/-- Order and history after a message was written at `hashSlot`. -/
def recordAtSlot (slot : Nat) (message : Message) : DbM StrgRet := do
  let ret ← modifyChatOrder fun order => chatOrderTouch order slot
  if ret ≠ .strgOk then
    return ret
  let latest := ((← get).htable.htable slot).latestMsgExtent
  messageHistoryAdd ⟨BitVec.ofNat 16 latest, message⟩

section MessageAdd

variable {db : Database} {card : Card Sector} {view : View} {chain : Nat → List Nat}
  {listing : Listing} {hashSlot : Nat} {identity : Identity}

theorem Mounted.message_history (mounted : Mounted db card view chain listing) {started : Nat}
    {log : WriteLog Sector} {during : Nat → View → Prop}
    (leads : Leads card log db.usageBitmap { view with messageRing := started } during)
    (journal : JournalHeader) :
    Mounted (messageHistoryDatabase db started journal) (applyWrites log card)
      { view with messageRing := started } chain listing :=
  ⟨mounted.core.message_history leads journal, mounted.names, mounted.order, mounted.count⟩

theorem Mounted.order_room (mounted : Mounted db card view chain listing)
    (occupied : (db.htable.htable hashSlot).state = .occupied)
    (stored : view.contact (db.htable.htable hashSlot).sector = some identity) :
    hashSlot ∈ db.chatOrder.mem ∨ db.chatOrder.mem.length < chatOrderEntries := by
  by_cases member : hashSlot ∈ db.chatOrder.mem
  · exact Or.inl member
  · right
    have nodup : (hashSlot :: db.chatOrder.mem).Nodup :=
      List.nodup_cons.mpr ⟨member, mounted.order.nodup⟩
    have subset : hashSlot :: db.chatOrder.mem ⊆ listing.map Prod.fst := by
      intro slot inList
      rcases List.mem_cons.mp inList with rfl | inOrder
      · exact List.mem_map.mpr ⟨_, mounted.listed_of occupied stored, rfl⟩
      · obtain ⟨slotOccupied, _⟩ := (mounted.order.mem slot).mp inOrder
        obtain ⟨known, entry⟩ := mounted.core.table.entry slot slotOccupied
        exact List.mem_map.mpr ⟨_, mounted.listed_of slotOccupied entry.stored, rfl⟩
    have length := (List.subperm_of_subset nodup subset).length_le
    rw [List.length_cons, List.length_map] at length
    have slots := mounted.count_slots
    simp at slots ⊢
    omega

/-- The end of the call, once the message is in the chat and the contact in the name
index. -/
theorem record_at_slot_run (mounted : Mounted db card view chain listing)
    (occupied : (db.htable.htable hashSlot).state = .occupied)
    (stored : view.contact (db.htable.htable hashSlot).sector = some identity)
    {later : View} {sectors : List Nat} {message : Message}
    (change : ChatChange view later chain (db.htable.htable hashSlot).sector sectors)
    (messages : chatMessages later.sector sectors =
      message :: chatOf view chain (db.htable.htable hashSlot).sector)
    (newest : sectors.headD uint16Max ≠ uint16Max)
    {middle : Database} {after : Card Sector}
    (core : Core middle after later
      (Function.update chain (db.htable.htable hashSlot).sector sectors))
    (table : middle.htable = latestTable db.htable hashSlot (sectors.headD uint16Max))
    (index : middle.nameIndex = db.nameIndex) (order : middle.chatOrder = db.chatOrder) :
    ∃ next log started,
      out (recordAtSlot hashSlot message) middle after = ((.strgOk, next), log) ∧
      Leads after log next.usageBitmap { later with messageRing := started }
        (fun _ seen => seen = later ∨ seen = { later with messageRing := started }) ∧
      Mounted next (applyWrites log after) { later with messageRing := started }
        (Function.update chain (db.htable.htable hashSlot).sector sectors) listing ∧
      modelOf next { later with messageRing := started }
          (Function.update chain (db.htable.htable hashSlot).sector sectors) listing =
        { people := Model.insert
            ⟨identity, message :: chatOf view chain (db.htable.htable hashSlot).sector⟩
            (Model.without identity.phone (modelOf db view chain listing).people)
          recent := Model.touch identity.phone (modelOf db view chain listing).recent } ∧
      next.messageAllocator = middle.messageAllocator := by
  have touched : OrderHolds ⟨hashSlot :: db.chatOrder.mem.erase hashSlot⟩ middle.htable := by
    rw [table]
    exact mounted.order.touch occupied newest
  obtain ⟨changed, model⟩ := mounted.chat_change occupied stored change
    (core.order_only ⟨hashSlot :: db.chatOrder.mem.erase hashSlot⟩) table index touched
  obtain ⟨started, journal, log, _, run, leads⟩ := message_history_add_run changed.core
    ⟨BitVec.ofNat 16 (middle.htable.htable hashSlot).latestMsgExtent, message⟩
  refine ⟨messageHistoryDatabase
      { middle with chatOrder := ⟨hashSlot :: db.chatOrder.mem.erase hashSlot⟩ } started journal,
    log, started, ?_, leads, changed.message_history leads journal, ?_, rfl⟩
  · have logEq : log = [] ++ ([] ++ log) := by simp
    rw [logEq]
    refine out_bind_both (out_modifyChatOrder _) ?_
    rw [order, chat_order_touch_eq (mounted.order_room occupied stored)]
    exact out_bind_both (out_get _ _) run
  · refine Eq.trans ?_ (model.trans ?_)
    · rfl
    · rw [messages]
      congr 1
      change phoneAt db view hashSlot :: (db.chatOrder.mem.erase hashSlot).map _ = _
      rw [phone_at_listed occupied stored, recent_erase mounted occupied stored]
      rfl

theorem message_views_history {later : View} {laterChain : Nat → List Nat} {phone : List Byte}
    {message : Message} {first second : WriteLog Sector} {bitmap next : UsageBitmap}
    {started : Nat}
    (long : ∀ slot newest added older mSector,
      RollsOver db view chain phone slot newest added older mSector → 10 < first.length)
    (leadsFirst : Leads card first bitmap later
      (MessageViews db view chain phone message later laterChain))
    (leadsSecond : Leads (applyWrites first card) second next { later with messageRing := started }
      fun _ seen => seen = later ∨ seen = { later with messageRing := started }) :
    Leads card (first ++ second) next { later with messageRing := started }
      (MessageViews db view chain phone message { later with messageRing := started }
        laterChain) := by
  refine (leadsFirst.append leadsSecond).mono ?_
  rintro count seen (⟨_, known⟩ | ⟨late, known⟩)
  · cases known with
    | before same early => exact .before same early
    | entered slot unnamed absent free is same => exact .entered slot unnamed absent free is same
    | unlinked slot newest added older mSector rolls late early same =>
        exact .unlinked slot newest added older mSector rolls late early same
    | after contact sector late => exact .after contact sector late
  · have whole : ∀ slot newest added older mSector,
        RollsOver db view chain phone slot newest added older mSector → 10 < count := by
      intro slot newest added older mSector rolls
      exact lt_of_lt_of_le (long _ _ _ _ _ rolls) late
    rcases known with same | same
    · exact .after (by rw [same]) (by rw [same]) whole
    · exact .after (congrArg View.contact same) (congrArg View.sector same) whole

/-- A call that adds a message for the contact in the given slot, run to its end. -/
structure Added (program : DbM StrgRet) (db : Database) (card : Card Sector) (view : View)
    (chain : Nat → List Nat) (model : Model) (identity : Identity) (slot : Nat)
    (message : Message) (next : Database) (log : WriteLog Sector) (later : View)
    (laterChain : Nat → List Nat) (listing : Listing) : Prop where
  run : out program db card = ((.strgOk, next), log)
  leads : Leads card log next.usageBitmap later
    (MessageViews db view chain identity.phone message later laterChain)
  mounted : Mounted next (applyWrites log card) later laterChain listing
  tidy : Tidy view chain → Tidy later laterChain
  model : modelOf next later laterChain listing = model
  contact : later.contact = (view.setContact slot (some identity)).contact
  messages : chatOf later laterChain slot = message :: chatOf view chain slot
  growth : ∃ sectors, laterChain = Function.update chain slot sectors ∧
    ChatGrowth view slot message (chain slot) db.messageAllocator.freeStack later sectors
      next.messageAllocator.freeStack

theorem Added.carries {program : DbM StrgRet} {model : Model} {slot : Nat} {message : Message}
    {next : Database} {log : WriteLog Sector} {later : View} {laterChain : Nat → List Nat}
    (added : Added program db card view chain model identity slot message next log later
      laterChain listing) :
    Carries program db card view chain .strgOk model
      (MessageViews db view chain identity.phone message) :=
  ⟨next, log, later, laterChain, listing, added.run, added.leads, added.mounted, added.tidy,
    added.model⟩

theorem message_add_known (mounted : Mounted db card view chain listing)
    (occupied : (db.htable.htable hashSlot).state = .occupied)
    (stored : view.contact (db.htable.htable hashSlot).sector = some identity)
    (room : NeedsSector view chain (db.htable.htable hashSlot).sector →
      db.messageAllocator.freeStack ≠ [])
    {phone str : Option CString} {timestamp : BitVec 32} {direction : Bool} {text : CString}
    (given : validPhone phone = some identity.phone) (content : str = some text)
    (timed : timestamp ≠ 0#32) :
    ∃ next log later laterChain, Added (databaseMessageAdd phone timestamp direction str) db card
      view chain
      { people := Model.insert
          ⟨identity, createMessage timestamp direction text.val ::
            chatOf view chain (db.htable.htable hashSlot).sector⟩
          (Model.without identity.phone (modelOf db view chain listing).people)
        recent := Model.touch identity.phone (modelOf db view chain listing).recent }
      identity (db.htable.htable hashSlot).sector (createMessage timestamp direction text.val)
      next log later laterChain listing := by
  subst content
  obtain ⟨middle, log, later, sectors, appended⟩ := append_to_chat_run mounted.core occupied stored
    room (createMessage timestamp direction text.val)
  have entry := latest_table_entry db.htable hashSlot (sectors.headD uint16Max) hashSlot
  have laterOccupied : (middle.htable.htable hashSlot).state = .occupied := by
    rw [appended.table, entry.1]
    exact occupied
  have laterStored : later.contact (middle.htable.htable hashSlot).sector = some identity := by
    rw [appended.table, entry.2, appended.change.contact]
    exact stored
  have findLater := out_findOccupied_known appended.core laterOccupied laterStored
  obtain ⟨next, lastLog, started, record, leads, final, model, allocator⟩ := record_at_slot_run
    mounted occupied stored appended.change appended.messages appended.newest appended.core
    appended.table appended.index appended.order
  have kept : later.contact = (view.setContact (db.htable.htable hashSlot).sector
      (some identity)).contact := by
    rw [appended.change.contact]
    exact (set_contact_same stored).symm
  refine ⟨next, log ++ lastLog, _, _, ?_,
    message_views_history appended.long appended.leads leads, ?_, ?_, model, kept, ?_, sectors,
    rfl, ?_⟩
  · have logEq : log ++ lastLog = [] ++ ([] ++ (log ++ ([] ++ lastLog))) := by simp
    rw [logEq]
    unfold databaseMessageAdd
    simp only [given, timed, if_false]
    refine out_bind_both (out_findOccupied_known mounted.core occupied stored) ?_
    refine out_bind_both (out_pure _ _ false) ?_
    have inserted : out (hashInsertMessage identity.phone
        (createMessage timestamp direction text.val)) db card = ((true, middle), log) := by
      have whole : log = [] ++ ([] ++ log) := by simp
      have claim : out (claimEntryForMessage identity.phone hashSlot) db card =
          ((true, db), []) := by
        rw [claimEntryForMessage, out_bind_of (out_get _ _)]
        simp only [occupied, if_true, apply_writes_nil]
        rfl
      rw [whole, hashInsertMessage]
      exact out_bind_both (find_present mounted.core.table mounted.core.holds.contacts
        mounted.core.distinct occupied stored) (out_bind_both claim appended.run)
    exact out_bind_both inserted (out_bind_both findLater record)
  · rw [apply_writes_append]
    exact final
  · intro tidy
    have changed := appended.tidy tidy
    exact ⟨changed.nexts, changed.covered⟩
  · rw [chatOf, Function.update_self]
    exact appended.messages
  · rw [allocator]
    exact appended.growth.congr rfl rfl

theorem without_insert {person : Person} {people : List Person}
    (absent : ∀ other ∈ people, other.identity.phone ≠ person.identity.phone) (chat : List Message) :
    Model.without person.identity.phone (Model.insert ⟨person.identity, chat⟩ people) = people := by
  have whole := List.takeWhile_append_dropWhile
    (p := fun other : Person => decide (nameKey other.identity < nameKey person.identity))
    (l := people)
  have kept : ∀ part, part ⊆ people →
      part.filter (fun other => decide (other.identity.phone ≠ person.identity.phone)) = part :=
    fun part inside => List.filter_eq_self.mpr fun other member =>
      decide_eq_true (absent other (inside member))
  rw [Model.without, Model.insert, List.filter_append, List.filter_cons_of_neg (by simp),
    kept _ (List.takeWhile_sublist _).subset, kept _ (List.dropWhile_sublist _).subset, whole]

theorem claim_entry_new (core : Core db card view chain) (unnamed : Identity)
    (noName : unnamed.name = [])
    (absent : ∀ sector other, view.contact sector = some other → other.phone ≠ unnamed.phone)
    {sector : Nat} {rest : List Nat} (stack : db.contactAllocator.freeStack = sector :: rest) :
    ∃ hashSlot journal bitmap log,
      out (hashFindEntry unnamed.phone) db card = ((some hashSlot, db), []) ∧
      out (claimEntryForMessage unnamed.phone hashSlot) db card =
        ((true, enteredDatabase db hashSlot sector unnamed journal bitmap), log) ∧
      hashSlot < hashTableSize ∧ (db.htable.htable hashSlot).state ≠ .occupied ∧
      Reaches (tableCell db.htable view.contact) (tablePath unnamed.phone) hashSlot ∧
      Leads card log bitmap (view.setContact sector (some unnamed))
        fun _ seen => seen = view ∨ seen = view.setContact sector (some unnamed) := by
  obtain ⟨hashSlot, run, bound, free, reaches⟩ := find_absent core.table core.holds.contacts absent
  obtain ⟨inside, _⟩ := core.contactFree.top stack
  have notEnd : sector ≠ uint16Max := by
    simp at inside ⊢
    omega
  obtain ⟨journal, bitmap, log, write, leads⟩ := @write_contact_run
    { db with contactAllocator := (freeListAllocate db.contactAllocator).2 }
    _ _ core.idle core.holds _ inside unnamed
  refine ⟨hashSlot, journal, bitmap, log, run, ?_, bound, free, reaches, leads⟩
  have record : createContact [] unnamed.phone = unnamed.record := by
    rw [Identity.record, noName]
  have logEq : log = [] ++ ([] ++ (log ++ ([] ++ []))) := by simp
  rw [logEq, claimEntryForMessage, record]
  refine out_bind_both (out_get _ _) ?_
  simp only [free, if_false, apply_writes_nil]
  refine out_bind_both (out_allocateContact stack) ?_
  simp only [notEnd, if_false, apply_writes_nil]
  exact out_bind_both write (out_bind_both (out_modify _ _ _) rfl)

theorem claim_entry_full (core : Core db card view chain) {phone : List Byte}
    (absent : ∀ sector other, view.contact sector = some other → other.phone ≠ phone)
    (none_ : db.contactAllocator.freeStack = []) (message : Message) :
    out (hashInsertMessage phone message) db card = ((false, db), []) := by
  obtain ⟨hashSlot, run, _, free, _⟩ := find_absent core.table core.holds.contacts absent
  have claim : out (claimEntryForMessage phone hashSlot) db card = ((false, db), []) := by
    rw [claimEntryForMessage, out_bind_of (out_get _ _)]
    simp only [free, if_false, apply_writes_nil, List.nil_append]
    rw [out_bind_of (out_allocateContact_empty none_)]
    rfl
  have logEq : ([] : WriteLog Sector) = [] ++ ([] ++ []) := rfl
  rw [logEq, hashInsertMessage]
  exact out_bind_both run (out_bind_both claim rfl)

/-- A message is sent to a number without a contact: the entry is claimed, the message is
written, and the new contact is found again to be indexed. -/
theorem message_add_new_run (core : Core db card view chain) {unnamed : Identity}
    (noName : unnamed.name = [])
    (absent : ∀ sector other, view.contact sector = some other → other.phone ≠ unnamed.phone)
    {phone : Option CString} {timestamp : BitVec 32} {direction : Bool} {text : CString}
    (given : validPhone phone = some unnamed.phone) (timed : timestamp ≠ 0#32)
    {entered middle indexed next : Database} {log chatLog lastLog : WriteLog Sector}
    (find : out (hashFindEntry unnamed.phone) db card = ((some hashSlot, db), []))
    (claim : out (claimEntryForMessage unnamed.phone hashSlot) db card = ((true, entered), log))
    (append : out (appendToChat hashSlot (createMessage timestamp direction text.val)) entered
      (applyWrites log card) = ((true, middle), chatLog))
    (again : out (findOccupied unnamed.phone) middle (applyWrites chatLog (applyWrites log card)) =
      ((.ok hashSlot, middle), []))
    (index : out (sortedArrayInsert unnamed.record hashSlot) middle
      (applyWrites chatLog (applyWrites log card)) = ((.strgOk, indexed), []))
    (record : out (recordAtSlot hashSlot (createMessage timestamp direction text.val)) indexed
      (applyWrites chatLog (applyWrites log card)) = ((.strgOk, next), lastLog)) :
    out (databaseMessageAdd phone timestamp direction (some text)) db card =
      ((.strgOk, next), log ++ (chatLog ++ lastLog)) := by
  have contactRecord : createContact [] unnamed.phone = unnamed.record := by
    rw [Identity.record, noName]
  have logEq : log ++ (chatLog ++ lastLog) =
      [] ++ ([] ++ ((log ++ chatLog) ++ ([] ++ ([] ++ lastLog)))) := by simp
  have inserted : out (hashInsertMessage unnamed.phone
      (createMessage timestamp direction text.val)) db card = ((true, middle), log ++ chatLog) := by
    rw [← List.nil_append (log ++ chatLog), hashInsertMessage]
    exact out_bind_both find (out_bind_both claim append)
  have indexRun : out (if true = true then
      sortedArrayInsert (createContact [] unnamed.phone) hashSlot else pure .strgOk) middle
      (applyWrites chatLog (applyWrites log card)) = ((.strgOk, indexed), []) := by
    rw [if_pos rfl, contactRecord]
    exact index
  rw [logEq]
  unfold databaseMessageAdd
  simp only [given, timed, if_false]
  refine out_bind_both (out_findOccupied_new core absent) ?_
  refine out_bind_both (out_pure _ _ true) ?_
  refine out_bind_both inserted ?_
  simp only [apply_writes_append]
  refine out_bind_both again ?_
  rw [← List.nil_append lastLog]
  exact out_bind_both indexRun record

/-- No chat of a number without a contact rolls over, and behind the claim of the entry the new
chat has no sectors that could. -/
theorem message_views_new {unnamed : Identity} (noName : unnamed.name = [])
    (absent : ∀ sector other, view.contact sector = some other → other.phone ≠ unnamed.phone)
    {sector : Nat} (fresh : view.contact sector = none) (noChat : chain sector = [])
    (distinct : Distinct (view.setContact sector (some unnamed)).contact)
    {entered : Database} {message : Message} {later : View} {laterChain : Nat → List Nat}
    {claimed count : Nat} {seen : View}
    (known : thenDuring claimed
      (fun _ seen => seen = view ∨ seen = view.setContact sector (some unnamed))
      (MessageViews entered (view.setContact sector (some unnamed)) chain unnamed.phone message
        later laterChain) count seen) :
    MessageViews db view chain unnamed.phone message later laterChain count seen := by
  have noRoll : ∀ slot newest added older mSector,
      ¬RollsOver db view chain unnamed.phone slot newest added older mSector := by
    intro slot newest added older mSector rolls
    obtain ⟨known, stored, same⟩ := rolls.contact
    exact absent slot known stored same
  rcases known with ⟨_, same | same⟩ | ⟨_, known⟩
  · exact .before same fun _ _ _ _ _ rolls => absurd rolls (noRoll _ _ _ _ _)
  · exact .entered sector unnamed absent fresh ⟨rfl, noName⟩ same
  · cases known with
    | before same _ => exact .entered sector unnamed absent fresh ⟨rfl, noName⟩ same
    | entered slot other nowAbsent =>
        exact absurd rfl (nowAbsent sector unnamed (set_contact_self _ _ _))
    | unlinked slot newest added older mSector rolls =>
        obtain ⟨other, otherStored, same⟩ := rolls.contact
        have here := distinct _ _ _ _ otherStored (set_contact_self _ _ _) same
        have whole := rolls.whole
        rw [here, noChat] at whole
        cases whole
    | after contact sector_ _ =>
        exact .after contact sector_ fun _ _ _ _ _ rolls => absurd rolls (noRoll _ _ _ _ _)

theorem without_entered (mounted : Mounted db card view chain listing) {unnamed : Identity}
    (absent : ∀ sector other, view.contact sector = some other → other.phone ≠ unnamed.phone) :
    Model.without unnamed.phone
        (Model.insert ⟨unnamed, []⟩ (modelOf db view chain listing).people) =
      (modelOf db view chain listing).people := by
  have others : ∀ other ∈ (modelOf db view chain listing).people,
      other.identity.phone ≠ unnamed.phone := by
    intro other member
    obtain ⟨slot, stored, _⟩ := (mem_people mounted other).mp member
    exact absent slot other.identity stored
  exact @without_insert ⟨unnamed, []⟩ _ others _

theorem message_add_new (mounted : Mounted db card view chain listing) (unnamed : Identity)
    (noName : unnamed.name = [])
    (absent : ∀ sector other, view.contact sector = some other → other.phone ≠ unnamed.phone)
    {sector : Nat} {rest : List Nat} (stack : db.contactAllocator.freeStack = sector :: rest)
    (room : db.messageAllocator.freeStack ≠ [])
    {phone str : Option CString} {timestamp : BitVec 32} {direction : Bool} {text : CString}
    (given : validPhone phone = some unnamed.phone) (content : str = some text)
    (timed : timestamp ≠ 0#32) :
    ∃ next log later laterChain laterListing,
      Added (databaseMessageAdd phone timestamp direction str) db card view chain
        { people := Model.insert ⟨unnamed, [createMessage timestamp direction text.val]⟩
            (modelOf db view chain listing).people
          recent := Model.touch unnamed.phone (modelOf db view chain listing).recent }
        unnamed sector (createMessage timestamp direction text.val) next log later laterChain
        laterListing := by
  subst content
  obtain ⟨hashSlot, journal, bitmap, log, find, claim, bound, free, reaches, leads⟩ :=
    claim_entry_new mounted.core unnamed noName absent stack
  have fresh : view.contact sector = none :=
    not_not.mp (mounted.core.contactFree.top stack).2
  have noChat := free_slot_empty mounted.core fresh
  have entered := mounted.core.enter unnamed absent stack bound free reaches leads journal
  obtain ⟨_, indexed, indexedModel⟩ :=
    mounted.enter unnamed absent stack bound free reaches leads journal
  have entrySelf := @entered_self db hashSlot sector unnamed journal bitmap
  have nowOccupied : ((enteredDatabase db hashSlot sector unnamed journal bitmap).htable.htable
      hashSlot).state = .occupied := by
    rw [entrySelf]
    rfl
  have nowSector : ((enteredDatabase db hashSlot sector unnamed journal bitmap).htable.htable
      hashSlot).sector = sector := by
    rw [entrySelf]
    rfl
  have nowStored : (view.setContact sector (some unnamed)).contact
      ((enteredDatabase db hashSlot sector unnamed journal bitmap).htable.htable hashSlot).sector =
      some unnamed := by
    rw [nowSector]
    exact set_contact_self _ _ _
  obtain ⟨middle, chatLog, later, sectors, appended⟩ := append_to_chat_run entered nowOccupied
    nowStored (fun _ => room) (createMessage timestamp direction text.val)
  have entry := latest_table_entry (enteredDatabase db hashSlot sector unnamed journal bitmap).htable
    hashSlot (sectors.headD uint16Max) hashSlot
  have laterOccupied : (middle.htable.htable hashSlot).state = .occupied := by
    rw [appended.table, entry.1]
    exact nowOccupied
  have laterStored : later.contact (middle.htable.htable hashSlot).sector = some unnamed := by
    rw [appended.table, entry.2, appended.change.contact]
    exact nowStored
  have findLater := out_findOccupied_known appended.core laterOccupied laterStored
  have contacts : contactAt middle.htable later.contact =
      Function.update (contactAt db.htable view.contact) hashSlot (some unnamed) := by
    rw [appended.table, appended.change.contact, contact_at_latest,
      contact_at_entered mounted.core fresh hashSlot journal bitmap]
  have names : NamesHold middle.nameIndex listing (contactAt db.htable view.contact) := by
    rw [appended.index]
    exact mounted.names
  have slots := mounted.count_slots
  rw [stack, List.length_cons] at slots
  obtain ⟨insertRun, _⟩ := index_insert appended.core.holds.contacts names (contact_at_free free)
    contacts (fresh_phone mounted absent) (by omega)
  obtain ⟨next, lastLog, started, record, lastLeads, final, model, allocator⟩ := record_at_slot_run
    indexed nowOccupied nowStored appended.change appended.messages appended.newest
    (appended.core.names_only (listedIndex (placed (hashSlot, unnamed) listing))) appended.table
    rfl appended.order
  have whole := message_views_history appended.long appended.leads lastLeads
  have modelEq : modelOf next { later with messageRing := started }
      (Function.update chain ((enteredDatabase db hashSlot sector unnamed journal bitmap).htable.htable
        hashSlot).sector sectors) (placed (hashSlot, unnamed) listing) =
      { people := Model.insert ⟨unnamed, [createMessage timestamp direction text.val]⟩
          (modelOf db view chain listing).people
        recent := Model.touch unnamed.phone (modelOf db view chain listing).recent } := by
    rw [model, indexedModel, without_entered mounted absent, nowSector]
    congr 2
    rw [show chatOf (view.setContact sector (some unnamed)) chain sector = [] by
      rw [chatOf, noChat]; rfl]
  refine ⟨next, log ++ (chatLog ++ lastLog), _, _, placed (hashSlot, unnamed) listing, ?_,
    (leads.append whole).mono ?_, ?_, ?_, modelEq, appended.change.contact, ?_, sectors, ?_, ?_⟩
  · exact message_add_new_run mounted.core noName absent given timed find claim appended.run
      findLater insertRun record
  · intro count seen known
    exact message_views_new noName absent fresh noChat entered.distinct known
  · rw [apply_writes_append, apply_writes_append]
    exact final
  · intro tidy
    have changed := appended.tidy ⟨tidy.nexts, tidy.covered⟩
    exact ⟨changed.nexts, changed.covered⟩
  · have messages := appended.messages
    rw [nowSector] at messages ⊢
    rw [chatOf, Function.update_self]
    exact messages
  · rw [nowSector]
  · have growth := appended.growth
    rw [nowSector] at growth
    rw [allocator]
    exact growth.congr rfl rfl

/-- The call is not for a contact that a message can be written to. -/
def AddRefused (view : View) (phone : Option CString) (timestamp : BitVec 32)
    (str : Option CString) : Prop :=
  str ≠ none → timestamp ≠ 0#32 → ∀ number, validPhone phone = some number →
    ∀ slot identity, view.contact slot = some identity → identity.phone ≠ number

def addViews (db : Database) (view : View) (chain : Nat → List Nat) (phone : Option CString)
    (timestamp : BitVec 32) (direction : Bool) (str : Option CString) :
    View → (Nat → List Nat) → Nat → View → Prop :=
  fun later laterChain count seen => seen = view ∧ AddRefused view phone timestamp str ∨
    ∃ number text, validPhone phone = some number ∧ str = some text ∧ timestamp ≠ 0#32 ∧
      MessageViews db view chain number (createMessage timestamp direction text.val) later
        laterChain count seen

theorem asks_known_iff (core : Core db card view chain)
    (occupied : (db.htable.htable hashSlot).state = .occupied)
    (stored : view.contact (db.htable.htable hashSlot).sector = some identity)
    {phone str : Option CString} {timestamp : BitVec 32} (direction : Bool) {text : CString}
    (given : validPhone phone = some identity.phone) (content : str = some text)
    (timed : timestamp ≠ 0#32) :
    (out (asksForSector (.messageAdd phone timestamp direction str)) db card).1.1 = true ↔
      NeedsSector view chain (db.htable.htable hashSlot).sector := by
  subst content
  have find := out_findOccupied_known core occupied stored
  unfold asksForSector
  simp only [given, timed, if_false]
  rw [out_bind_of find]
  simp only [apply_writes_nil]
  rw [out_bind_of (out_get _ _)]
  simp only [apply_writes_nil]
  cases whole : chain (db.htable.htable hashSlot).sector with
  | nil =>
      rw [if_pos ((latest_end_iff core occupied).mpr whole)]
      refine iff_of_true rfl fun newest older mSector impossible => ?_
      rw [whole] at impossible
      cases impossible
  | cons newest older =>
      obtain ⟨mSector, found⟩ := @ChatsHold.member _ _ core.chats (db.htable.htable hashSlot).sector
        newest (by rw [whole]; simp)
      have latest : (db.htable.htable hashSlot).latestMsgExtent = newest := by
        rw [latest_of core occupied, headOf, whole]
        rfl
      have notEnd := index_not_end (core.holds.messages.bound newest
        (by rw [found]; exact Option.some_ne_none _))
      have content := (core.holds.messages.sectors newest mSector found).2
      rw [latest, if_neg notEnd, out_bind_of (out_readMessageSector_stored core.holds.messages found)]
      simp only [content]
      refine decide_eq_true_iff.trans
        ⟨fun full first others other sameChain otherFound => ?_,
          fun needs => needs newest older mSector whole found⟩
      obtain ⟨rfl, _⟩ := List.cons_eq_cons.mp (whole.symm.trans sameChain)
      rwa [← Option.some_injective _ (found.symm.trans otherFound)]

theorem asks_new (core : Core db card view chain) {number : List Byte}
    (absent : ∀ sector other, view.contact sector = some other → other.phone ≠ number)
    {phone str : Option CString} {timestamp : BitVec 32} (direction : Bool) {text : CString}
    (given : validPhone phone = some number) (content : str = some text)
    (timed : timestamp ≠ 0#32) (room : db.contactAllocator.freeStack ≠ []) :
    (out (asksForSector (.messageAdd phone timestamp direction str)) db card).1.1 = true := by
  subst content
  unfold asksForSector
  simp only [given, timed, if_false]
  rw [out_bind_of (out_findOccupied_new core absent)]
  simp only [apply_writes_nil]
  rw [out_bind_of (out_get _ _)]
  simpa using room

theorem message_add_refused (mounted : Mounted db card view chain listing)
    {phone str : Option CString} {timestamp : BitVec 32} {direction : Bool}
    (refused : out (databaseMessageAdd phone timestamp direction str) db card =
      ((.strgFail, db), [])) (unserved : AddRefused view phone timestamp str) :
    Carries (databaseMessageAdd phone timestamp direction str) db card view chain .strgFail
      (modelOf db view chain listing) (addViews db view chain phone timestamp direction str) :=
  carries_unchanged mounted refused (fun _ => Or.inl ⟨rfl, unserved⟩)

theorem message_add_spec (mounted : Mounted db card view chain listing)
    (phone : Option CString) (timestamp : BitVec 32) (direction : Bool) (str : Option CString)
    (room : ¬Exhausts (.messageAdd phone timestamp direction str) db card) :
    Carries (databaseMessageAdd phone timestamp direction str) db card view chain
      ((modelOf db view chain listing).addMessage phone timestamp direction str).1
      ((modelOf db view chain listing).addMessage phone timestamp direction str).2
      (addViews db view chain phone timestamp direction str) := by
  unfold Model.addMessage
  cases given : validPhone phone with
  | none =>
      have refused : checkedIdentity (some noName) phone = none := by
        cases checked : checkedIdentity (some noName) phone with
        | none => rfl
        | some unnamed =>
            rw [(checked_identity_some checked).2] at given
            cases given
      simp only [refused]
      refine message_add_refused mounted ?_ fun _ _ number valid => by
        rw [given] at valid
        cases valid
      unfold databaseMessageAdd
      simp only [given]
      rfl
  | some number =>
      obtain ⟨unnamed, checked, rfl, noName_⟩ := valid_phone_identity given
      simp only [checked]
      cases str with
      | none =>
          refine message_add_refused mounted ?_ fun none_ => absurd rfl none_
          unfold databaseMessageAdd
          simp only [given]
          rfl
      | some text =>
          by_cases timed : timestamp = 0#32
          · have unserved : AddRefused view phone timestamp (some text) :=
              fun _ given => absurd timed given
            simp only [timed, if_true] at unserved ⊢
            refine message_add_refused mounted ?_ unserved
            unfold databaseMessageAdd
            simp only [given, if_true]
            rfl
          · simp only [timed, if_false]
            rcases look_up mounted.core unnamed.phone with
              ⟨hashSlot, identity, occupied, stored, same, _⟩ | ⟨absent, find⟩
            · have found := model_find mounted occupied stored
              rw [same] at found
              simp only [found]
              have givenKnown := given
              rw [← same] at givenKnown
              obtain ⟨next, log, after, afterChain, added⟩ := @message_add_known _ _ _ _ _ _ _ mounted
                occupied stored
                (fun needs none_ => room
                  ⟨(asks_known_iff mounted.core occupied stored direction givenKnown rfl
                    timed).mpr needs, none_⟩) _ _ _ direction text givenKnown rfl timed
              have known := added.carries
              rw [same] at known
              exact known.mono fun later laterChain count seen views =>
                Or.inr ⟨_, text, given, rfl, timed, views⟩
            · simp only [model_find_none mounted absent]
              have people : (modelOf db view chain listing).people.length = listing.length :=
                List.length_map _
              have slots := mounted.count_slots
              cases stack : db.contactAllocator.freeStack with
              | nil =>
                  rw [stack, List.length_nil] at slots
                  rw [people, if_pos (by omega)]
                  refine message_add_refused mounted ?_ fun _ _ number valid => by
                    rw [given, Option.some.injEq] at valid
                    rw [← valid]
                    exact absent
                  unfold databaseMessageAdd
                  simp only [given, timed, if_false]
                  have logEq : ([] : WriteLog Sector) = [] ++ ([] ++ ([] ++ [])) := rfl
                  rw [logEq]
                  refine out_bind_both find (out_bind_both (out_pure _ _ true) ?_)
                  exact out_bind_both (claim_entry_full mounted.core absent stack _) rfl
              | cons sector rest =>
                  rw [stack, List.length_cons] at slots
                  rw [people, if_neg (by omega)]
                  obtain ⟨next, log, after, afterChain, afterListing, added⟩ := @message_add_new
                    _ _ _ _ _ mounted unnamed noName_ absent _ _ stack (fun none_ => room
                      ⟨asks_new mounted.core absent direction given rfl timed
                        (by rw [stack]; simp), none_⟩) _ _ _ direction text given rfl timed
                  exact added.carries.mono fun later laterChain count seen views =>
                    Or.inr ⟨_, text, given, rfl, timed, views⟩

end MessageAdd

end SdDatabase
