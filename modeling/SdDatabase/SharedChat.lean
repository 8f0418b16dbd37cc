import SdDatabase.ContactFaults
import SdDatabase.CutRuns
import SdDatabase.Filling

/-!
# A chat removal that fails

`remove_message_chat` gives back the sectors of a chat one by one, and when a write fails
behind the first of them the entry of the contact keeps naming that sector. The next chat that
is started gets the sector, and both contacts show it.
-/

namespace SdDatabase

open Bytes Device

set_option autoImplicit false

/-- A program run to its end while writes fail. -/
def Machine.failing {A : Type} (machine : Machine) (program : DbM A) (writes : Nat → Bool) :
    A × Machine :=
  let outcome := exec program machine.db (.failing writes) machine.card
  (outcome.1.1, ⟨outcome.1.2, outcome.2.2⟩)

def allBut (number : Nat) : Nat → Bool := fun write => decide (write ≠ number)

section Removal

variable {db : Database} {card : Card Sector} {view : View}

theorem exec_quiet {A : Type} {program : DbM A} {value : A} {later : Database}
    (run : out program db card = ((value, later), [])) (writes : Nat → Bool) :
    exec program db (.failing writes) card = ((value, later), .failing writes, card) := by
  have accepted := @exec_accepted _ _ _ program db card writes (by
    rw [run]
    exact fun index within => absurd within (Nat.not_lt_zero _))
  rw [run] at accepted
  exact accepted

theorem refused_message_journalAdd (index : Nat) (content : Sector) :
    refused (journalAdd .message index content) db card 0 =
      .done (false, { db with
        journal := journalDataInit .message (u16 index)
        usageBitmap := stampBitmap db.usageBitmap (usageBitmapFindSector (u16 index)) }) := rfl

theorem remove_sector_refused (holds : Holds db.usageBitmap card view) {index : Nat}
    {mSector : MessageSector} (found : view.sector index = some mSector) {writes : Nat → Bool}
    (fails : writes 0 = false) :
    ∃ journal, exec (removeMessageSector index) db (.failing writes) card =
      ((.error .strgFail, { db with journal := journal }),
        .failing fun write => writes (write + 1), card) := by
  have bound := holds.messages.bound index (by rw [found]; exact Option.some_ne_none _)
  have below : messageDataSector index < 65536 := by
    simp at bound ⊢
    omega
  have narrow : u16 (messageDataSector index) = messageDataSector index := u16_of_lt below
  have added := out_journalAdd db card .message (card (messageRaw index)) below
  have refusal := @refused_message_journalAdd db card (messageDataSector index)
    (card (messageRaw index))
  rw [narrow, message_stamped holds.bits bound] at refusal
  have stopped := @exec_stops _ _ _ _ db _ card 0 _ writes
    (by rw [added]; exact Nat.succ_pos _) (fun _ early => absurd early (Nat.not_lt_zero _)) fails
    refusal
  refine ⟨journalDataInit .message (messageDataSector index), ?_⟩
  have used : out (checkUsageBit (messageDataSector index)) db card = ((true, db), []) := by
    rw [out_checkUsageBit, holds.messages.usage bound, found]
    rfl
  unfold removeMessageSector
  rw [exec_bind_of (exec_quiet used writes), if_neg (by simp),
    exec_bind_of (exec_quiet (out_readMessageSector_stored holds.messages found) writes)]
  dsimp only
  rw [exec_bind_of stopped]
  rfl

theorem all_but_behind (number : Nat) :
    (fun write => allBut (number + 5) (write + 5)) = allBut number := by
  funext write
  exact decide_eq_decide.mpr (not_congr (Nat.add_right_cancel_iff))

theorem all_but_before {number write : Nat} (before : write < number) :
    allBut number write = true :=
  decide_eq_true (Nat.ne_of_lt before)

theorem remove_loop_stops {removed : Nat} {start : Nat} {sectors : List Nat} (fuel : Nat)
    (idle : JournalIdle card) (holds : Holds db.usageBitmap card view)
    (linked : PrevChain view.sector start sectors) (separate : sectors.Nodup)
    (inside : removed < sectors.length) (enough : removed < fuel) :
    ∃ journal bitmap log later,
      exec (removeMessageChatLoop fuel start) db (.failing (allBut (5 * removed))) card =
        ((false, { db with
          journal := journal
          usageBitmap := bitmap
          messageAllocator := (sectors.take removed).foldl freeListFree db.messageAllocator }),
          .failing later, applyWrites log card) ∧
      (∀ write, later write = true) ∧
      Leads card log bitmap (view.clearSectors (sectors.take removed)) fun _ _ => True := by
  induction removed generalizing fuel start sectors db card view with
  | zero =>
      obtain ⟨fewer, rfl⟩ := Nat.exists_eq_add_of_lt enough
      obtain ⟨newest, older, rfl⟩ := List.exists_cons_of_length_pos inside
      obtain ⟨rfl, mSector, found, _⟩ := linked
      have notEnd : start ≠ uint16Max :=
        index_not_end (holds.messages.bound start (by rw [found]; exact Option.some_ne_none _))
      obtain ⟨journal, refused⟩ := @remove_sector_refused db card view holds start mSector found
        (allBut 0) rfl
      refine ⟨journal, db.usageBitmap, [], fun write => allBut 0 (write + 1), ?_, fun write => ?_,
        ?_⟩
      · rw [Nat.mul_zero, Nat.zero_add, removeMessageChatLoop, if_neg notEnd,
          exec_bind_of refused]
        rfl
      · exact decide_eq_true (Nat.succ_ne_zero write)
      · rw [List.take_zero, clear_sectors_nil]
        exact leads_nil idle holds fun _ => trivial
  | succ removed ih =>
      obtain ⟨fewer, rfl⟩ := Nat.exists_eq_add_of_lt enough
      obtain ⟨newest, older, rfl⟩ :=
        List.exists_cons_of_length_pos (Nat.zero_lt_of_lt inside)
      obtain ⟨rfl, mSector, found, behind⟩ := linked
      have notEnd : start ≠ uint16Max :=
        index_not_end (holds.messages.bound start (by rw [found]; exact Option.some_ne_none _))
      have apart := List.nodup_cons.mp separate
      have kept : PrevChain (view.setSector start none).sector mSector.header.prev.toNat older := by
        apply behind.congr
        intro other member
        apply set_sector_other
        rintro rfl
        exact apart.1 member
      obtain ⟨journal, bitmap, log, run, length, leads⟩ := remove_message_sector_run idle holds found
      have first := @exec_accepted _ _ _ (removeMessageSector start) db card
        (allBut (5 * (removed + 1))) (by
          rw [run, length]
          exact fun index within => all_but_before (by omega))
      rw [run, length, Nat.mul_add, Nat.mul_one, all_but_behind] at first
      obtain ⟨lastJournal, lastBitmap, lastLog, later, rest, accepts, lastLeads⟩ := @ih
        { db with
          journal := journal
          usageBitmap := bitmap
          messageAllocator := freeListFree db.messageAllocator start }
        (applyWrites log card) _ _ older (removed + 1 + fewer) leads.idle leads.holds kept apart.2
        (Nat.lt_of_succ_lt_succ inside) (by omega)
      refine ⟨lastJournal, lastBitmap, log ++ lastLog, later, ?_, accepts, ?_⟩
      · rw [Nat.mul_add, Nat.mul_one, removeMessageChatLoop, if_neg notEnd, exec_bind_of first,
          apply_writes_append]
        exact rest
      · rw [List.take_succ_cons, clear_sectors_cons]
        exact (leads.append lastLeads).mono fun _ _ _ => trivial

theorem remove_chat_refused {chain : Nat → List Nat} (core : Core db card view chain)
    {hashSlot : Nat} {identity : Identity}
    (occupied : (db.htable.htable hashSlot).state = .occupied)
    (stored : view.contact (db.htable.htable hashSlot).sector = some identity)
    {newest next : Nat} {older : List Nat}
    (whole : chain (db.htable.htable hashSlot).sector = newest :: next :: older)
    {phone : Option CString} (given : validPhone phone = some identity.phone) :
    ∃ journal bitmap log faults,
      exec (databaseMessageRemoveChat phone) db (.failing (allBut 5)) card =
        ((.strgFail, { db with
          journal := journal
          usageBitmap := bitmap
          messageAllocator := freeListFree db.messageAllocator newest }), faults,
          applyWrites log card) ∧
      Leads card log bitmap (view.setSector newest none) fun _ _ => True := by
  have latest : (db.htable.htable hashSlot).latestMsgExtent = newest := by
    rw [latest_of core occupied, headOf, whole]
    rfl
  have linked := core.chats.linked (db.htable.htable hashSlot).sector
  have separate := core.chats.separate (db.htable.htable hashSlot).sector
  rw [← latest_of core occupied, latest, whole] at linked
  rw [whole] at separate
  have notEnd : newest ≠ uint16Max :=
    index_not_end (core.holds.messages.bound newest (linked.stored newest List.mem_cons_self))
  obtain ⟨journal, bitmap, log, later, removed, _, leads⟩ :=
    @remove_loop_stops db card view 1 newest _ 65537 core.idle core.holds linked separate
      (Nat.succ_lt_succ (Nat.succ_pos _)) (by decide)
  rw [List.take_succ_cons, List.take_zero, clear_sectors_cons, clear_sectors_nil] at leads
  refine ⟨journal, bitmap, log, .failing later, ?_, leads⟩
  have found := out_findOccupied_present core.table core.holds.contacts (fun _ _ => id)
    core.distinct occupied stored
  have inner : exec (hashRemoveMessage identity.phone) db (.failing (allBut 5)) card =
      ((false, { db with
        journal := journal
        usageBitmap := bitmap
        messageAllocator := freeListFree db.messageAllocator newest }), .failing later,
        applyWrites log card) := by
    unfold hashRemoveMessage
    rw [exec_bind_of (exec_quiet found _)]
    dsimp only
    rw [exec_bind_of (exec_get _ _ _), latest, removeMessageChat]
    exact (exec_bind_of removed).trans rfl
  unfold databaseMessageRemoveChat
  rw [given]
  dsimp only
  rw [exec_bind_of (exec_quiet (out_findOccupied_known core occupied stored) _)]
  dsimp only
  rw [exec_bind_of (exec_get _ _ _), latest, if_neg notEnd, exec_bind_of inner]
  rfl

end Removal

/-- What the lookups and the first message of a chat need. The entries may name any sectors. -/
structure Loose (db : Database) (card : Card Sector) (view : View) (latest : Nat → Nat) : Prop
    where
  idle : JournalIdle card
  holds : Holds db.usageBitmap card view
  distinct : Distinct view.contact
  table : TableHolds db.htable view.contact latest
  messageRing : db.messageHistory = ringPosition view.messageRing

section Loose

variable {db : Database} {card : Card Sector} {view : View} {latest : Nat → Nat}
  (loose : Loose db card view latest) {hashSlot : Nat} {identity : Identity}
  (occupied : (db.htable.htable hashSlot).state = .occupied)
  (stored : view.contact (db.htable.htable hashSlot).sector = some identity)

include loose occupied stored

theorem Loose.find : out (findOccupied identity.phone) db card = ((.ok hashSlot, db), []) := by
  rw [findOccupied, out_bind_of (out_findOccupied_present loose.table loose.holds.contacts
    (fun _ _ => id) loose.distinct occupied stored)]
  rfl

theorem Loose.get_chat {sectors : List Nat}
    (linked : PrevChain view.sector (db.htable.htable hashSlot).latestMsgExtent sectors)
    (counted : Counted view.sector sectors) (short : sectors.length ≤ totalMessageSectorSize)
    (some_ : chatMessages view.sector sectors ≠ [])
    {phone : Option CString} (given : validPhone phone = some identity.phone) :
    out (databaseMessageGetChat phone 0 1 true) db card =
      (((.strgOk, (chatMessages view.sector sectors).take 1), db), []) := by
  have filled : sectors ≠ [] := by
    rintro rfl
    exact some_ rfl
  have notEnd : (db.htable.htable hashSlot).latestMsgExtent ≠ uint16Max := by
    obtain ⟨head, rest, rfl⟩ := List.exists_cons_of_ne_nil filled
    rw [linked.1]
    exact index_not_end (loose.holds.messages.bound head (linked.stored head List.mem_cons_self))
  have shown : ¬(chatMessages view.sector sectors).length ≤ 0 := by
    rw [Nat.le_zero, List.length_eq_zero_iff]
    exact some_
  have read := out_readNMessages loose.holds.messages.stored linked counted short 0 1
  rw [if_neg (by simp [filled]), if_neg shown] at read
  have logEq : ([] : WriteLog Sector) = [] ++ ([] ++ []) := rfl
  rw [logEq]
  unfold databaseMessageGetChat
  rw [given]
  apply out_bind_both (loose.find occupied stored)
  apply out_bind_both (out_get _ _)
  rw [if_neg notEnd]
  exact read

omit stored in
theorem Loose.append_first (none_ : (db.htable.htable hashSlot).latestMsgExtent = uint16Max)
    {index : Nat} {rest : List Nat} (stack : db.messageAllocator.freeStack = index :: rest)
    (bound : index < totalMessageSectorSize) (free : view.sector index = none)
    (message : Message) :
    ∃ allocator journal bitmap log,
      out (appendToChat hashSlot message) db card =
        ((true, appendedDatabase db hashSlot index allocator journal bitmap), log) ∧
      Loose (appendedDatabase db hashSlot index allocator journal bitmap) (applyWrites log card)
        (view.setSector index (some ((createNewMessageSector
          (db.htable.htable hashSlot).sector uint16Max).push message)))
        (Function.update latest (db.htable.htable hashSlot).sector index) := by
  have noEnd := index_not_end bound
  obtain ⟨journal, bitmap, log, run, leads⟩ := @write_new_message_sector_run { db with
    messageAllocator :=
      { db.messageAllocator with
        freeStack := rest
        usedCount := db.messageAllocator.usedCount + 1 } }
    _ _ loose.idle loose.holds _ bound free (db.htable.htable hashSlot).sector message
  refine ⟨{ db.messageAllocator with
      freeStack := rest
      usedCount := db.messageAllocator.usedCount + 1 }, journal, bitmap, log, ?_, leads.idle,
    leads.holds, loose.distinct, loose.table.setLatest occupied index, loose.messageRing⟩
  have logEq : log = [] ++ ([] ++ (log ++ ([] ++ []))) := by simp
  rw [logEq]
  unfold appendToChat
  apply out_bind_both (out_get _ _)
  simp only [none_, if_true, apply_writes_nil]
  apply out_bind_both (out_allocateMessage stack)
  simp only [noEnd, if_false]
  exact out_bind_both run (out_bind_both (out_modify _ _ _) rfl)

theorem Loose.insert {message : Message} {result : Bool} {next : Database}
    {log : WriteLog Sector}
    (append : out (appendToChat hashSlot message) db card = ((result, next), log)) :
    out (hashInsertMessage identity.phone message) db card = ((result, next), log) := by
  have claim : out (claimEntryForMessage identity.phone hashSlot) db card = ((true, db), []) := by
    rw [claimEntryForMessage, out_bind_of (out_get _ _)]
    simp only [occupied, if_true, apply_writes_nil]
    rfl
  have logEq : log = [] ++ ([] ++ log) := by simp
  rw [logEq, hashInsertMessage]
  exact out_bind_both (find_present loose.table loose.holds.contacts loose.distinct occupied stored)
    (out_bind_both claim append)

omit occupied stored in
theorem Loose.record
    (room : hashSlot ∈ db.chatOrder.mem ∨ db.chatOrder.mem.length < chatOrderEntries)
    (message : Message) :
    ∃ next log started,
      out (recordAtSlot hashSlot message) db card = ((.strgOk, next), log) ∧
      next.htable = db.htable ∧
      Loose next (applyWrites log card) { view with messageRing := started } latest := by
  obtain ⟨started, journal, log, _, run, leads⟩ := @history_add_run _ messageHistoryLayout
    messageHistoryFrame
    { db with chatOrder := ⟨hashSlot :: db.chatOrder.mem.erase hashSlot⟩ } card view loose.idle
    loose.holds loose.messageRing
    ⟨BitVec.ofNat 16 (db.htable.htable hashSlot).latestMsgExtent, message⟩
  refine ⟨messageHistoryDatabase
      { db with chatOrder := ⟨hashSlot :: db.chatOrder.mem.erase hashSlot⟩ } started journal,
    log, started, ?_, rfl, leads.idle, leads.holds, loose.distinct, loose.table, rfl⟩
  have logEq : log = [] ++ ([] ++ log) := by simp
  rw [logEq]
  apply out_bind_both (out_modifyChatOrder _)
  rw [chat_order_touch_eq room]
  exact out_bind_both (out_get _ _) run

/-- The first message of a chat is taken, and the table names the sector that was freed last. -/
theorem Loose.start_chat (none_ : (db.htable.htable hashSlot).latestMsgExtent = uint16Max)
    {index : Nat} {rest : List Nat} (stack : db.messageAllocator.freeStack = index :: rest)
    (bound : index < totalMessageSectorSize) (free : view.sector index = none)
    (room : hashSlot ∈ db.chatOrder.mem ∨ db.chatOrder.mem.length < chatOrderEntries)
    {phone : Option CString} (given : validPhone phone = some identity.phone)
    {timestamp : BitVec 32} (timed : timestamp ≠ 0#32) (direction : Bool) (text : CString) :
    ∃ next log started,
      out (databaseMessageAdd phone timestamp direction (some text)) db card =
        ((.strgOk, next), log) ∧
      next.htable = latestTable db.htable hashSlot index ∧
      Loose next (applyWrites log card)
        { view.setSector index (some ((createNewMessageSector
            (db.htable.htable hashSlot).sector uint16Max).push
              (createMessage timestamp direction text.val))) with messageRing := started }
        (Function.update latest (db.htable.htable hashSlot).sector index) := by
  obtain ⟨allocator, journal, bitmap, first, append, middle⟩ :=
    loose.append_first occupied none_ stack bound free
      (createMessage timestamp direction text.val)
  have entry := latest_table_entry db.htable hashSlot index hashSlot
  have found := middle.find (entry.1.trans occupied) ((congrArg _ entry.2).trans stored)
  obtain ⟨next, second, started, recorded, table, last⟩ := middle.record room
    (createMessage timestamp direction text.val)
  rw [← apply_writes_append] at last
  refine ⟨next, first ++ second, started, ?_, table, last⟩
  have logEq : first ++ second = [] ++ ([] ++ (first ++ ([] ++ second))) := by simp
  rw [logEq]
  unfold databaseMessageAdd
  rw [given]
  dsimp only
  rw [if_neg timed]
  apply out_bind_both (loose.find occupied stored)
  apply out_bind_both (out_pure _ _ _)
  simp only [apply_writes_nil]
  apply out_bind_both (loose.insert occupied stored append)
  simp only [Bool.not_true, Bool.false_eq_true, if_false]
  apply out_bind_both found
  exact recorded

theorem Loose.get_first {index slot : Nat} {message : Message}
    (names : (db.htable.htable hashSlot).latestMsgExtent = index)
    (first : view.sector index = some ((createNewMessageSector slot uint16Max).push message))
    {phone : Option CString} (given : validPhone phone = some identity.phone) :
    out (databaseMessageGetChat phone 0 1 true) db card = (((.strgOk, [message]), db), []) := by
  have messages : chatMessages view.sector [index] = [message] := by
    rw [chat_messages_cons first, new_sector_newest]
    rfl
  have linked : PrevChain view.sector (db.htable.htable hashSlot).latestMsgExtent [index] := by
    refine ⟨names, _, first, ?_⟩
    rw [(push_links _ _).1]
    rfl
  have counted : Counted view.sector [index] := by
    intro position member mSector found
    rw [List.mem_singleton.mp member, first, Option.some.injEq] at found
    rw [← found, push_count (new_sector_room _ _)]
    simp [createNewMessageSector]
  have shown := loose.get_chat occupied stored linked counted
    (show 1 ≤ totalMessageSectorSize by decide)
    (by rw [messages]; exact List.cons_ne_nil _ _) given
  rw [messages] at shown
  exact shown

end Loose

section Shared

variable {machine : Machine} {view : View} {chain : Nat → List Nat} {listing : Listing}

theorem entry_of_chat (mounted : Mounted machine.db machine.card view chain listing)
    {number : List Byte} (some_ : machine.chatSectors number ≠ []) :
    ∃ hashSlot identity, machine.Occupied hashSlot ∧
      view.contact (machine.db.htable.htable hashSlot).sector = some identity ∧
      identity.phone = number ∧
      (chain (machine.db.htable.htable hashSlot).sector).length =
        (machine.chatSectors number).length := by
  rcases look_up mounted.core number with ⟨hashSlot, identity, occupied, stored, rfl, _⟩ | ⟨_, find⟩
  · exact ⟨hashSlot, identity, occupied, stored, rfl, (chat_sectors_length mounted stored).symm⟩
  · refine absurd ?_ some_
    rw [Machine.chatSectors, Machine.run_of find]

theorem entry_without_chat (mounted : Mounted machine.db machine.card view chain listing)
    {phone : Option CString} {number : List Byte} (given : validPhone phone = some number)
    {record : Contact} (known : (machine.run (databaseContactGet phone true)).1 = .ok record)
    (empty : (machine.run (databaseMessageGetChat phone 0 1 true)).1.1 = .strgEmpty) :
    ∃ hashSlot identity, machine.Occupied hashSlot ∧
      view.contact (machine.db.htable.htable hashSlot).sector = some identity ∧
      identity.phone = number ∧
      (machine.db.htable.htable hashSlot).latestMsgExtent = uint16Max := by
  rcases look_up mounted.core number with ⟨hashSlot, identity, occupied, stored, same, find⟩ |
    ⟨_, find⟩
  · refine ⟨hashSlot, identity, occupied, stored, same, ?_⟩
    by_contra notEnd
    have ran : out (databaseMessageGetChat phone 0 1 true) machine.db machine.card =
        out (readNMessages (machine.db.htable.htable hashSlot).latestMsgExtent 0 1) machine.db
          machine.card := by
      unfold databaseMessageGetChat
      rw [given]
      dsimp only
      rw [out_bind_of find]
      dsimp only
      rw [out_bind_of (out_get _ _), if_neg notEnd]
      rfl
    rw [Machine.run, ran, out_readNMessages_slot mounted.core occupied] at empty
    revert empty
    dsimp only
    split_ifs <;> intro empty <;> cases empty
  · have missing : out (databaseContactGet phone true) machine.db machine.card =
        ((.error .strgEmpty, machine.db), []) := by
      unfold databaseContactGet
      rw [given]
      dsimp only
      rw [out_bind_of find]
      rfl
    rw [Machine.run_of missing] at known
    cases known

/-- The entry of a number names this sector as the newest one of its chat. -/
def Machine.NamesSector (machine : Machine) (number : List Byte) (sector : Nat) : Prop :=
  ∃ hashSlot, (machine.run (findOccupied number)).1 = .ok hashSlot ∧
    (machine.db.htable.htable hashSlot).latestMsgExtent = sector

/-- The next message sector to be given out is this one, and its usage bit is clear. -/
def Machine.FreeNext (machine : Machine) (sector : Nat) : Prop :=
  machine.db.messageAllocator.freeStack.head? = some sector ∧
    usageBit machine.db.usageBitmap (u16 (messageDataSector sector)) = false

/-- A removal that meets one failing write, the first behind the newest sector of the chat,
fails and leaves the contact with a free sector. The next message for a contact without a chat
takes this sector and is then shown in both chats. -/
theorem failed_removal_shares_chat (reachable : Reachable machine)
    {phone other : Option CString} {number others : List Byte}
    (given : validPhone phone = some number) (givenOther : validPhone other = some others)
    (long : 2 ≤ (machine.chatSectors number).length) {record : Contact}
    (known : (machine.run (databaseContactGet other true)).1 = .ok record)
    (empty : (machine.run (databaseMessageGetChat other 0 1 true)).1.1 = .strgEmpty)
    {timestamp : BitVec 32} (timed : timestamp ≠ 0#32) (direction : Bool) (text : CString) :
    ∃ failed added sector, machine.failing (databaseMessageRemoveChat phone) (allBut 5) =
        (.strgFail, failed) ∧
      failed.NamesSector number sector ∧ failed.FreeNext sector ∧
      failed.run (databaseMessageAdd other timestamp direction (some text)) = (.strgOk, added) ∧
      added.NamesSector others sector ∧
      ∀ either ∈ [phone, other], (added.run (databaseMessageGetChat either 0 1 true)).1 =
        (.strgOk, [createMessage timestamp direction text.val]) := by
  obtain ⟨model, view, chain, listing, mounted, _⟩ := reachable.sound
  have core := mounted.core
  obtain ⟨hashSlot, identity, occupied, stored, rfl, length⟩ := entry_of_chat mounted
    (List.ne_nil_of_length_pos (lt_of_lt_of_le (by decide) long))
  obtain ⟨otherSlot, otherIdentity, occupiedOther, storedOther, rfl, none_⟩ :=
    entry_without_chat mounted givenOther known empty
  rw [← length] at long
  obtain ⟨newest, rest, first⟩ := List.exists_cons_of_length_pos (lt_of_lt_of_le (by decide) long)
  rw [first, List.length_cons] at long
  obtain ⟨next, older, rfl⟩ := List.exists_cons_of_length_pos (Nat.le_of_succ_le_succ long)
  have whole := first
  have names : (machine.db.htable.htable hashSlot).latestMsgExtent = newest := by
    rw [latest_of core occupied, headOf, whole]
    rfl
  have inUse : view.sector newest ≠ none :=
    (core.chats.linked (machine.db.htable.htable hashSlot).sector).stored newest
      (by rw [whole]; exact List.mem_cons_self)
  have inside := core.holds.messages.bound newest inUse
  have different : hashSlot ≠ otherSlot := by
    rintro rfl
    exact index_not_end inside (names.symm.trans none_)
  obtain ⟨journal, bitmap, log, faults, failed, leads⟩ :=
    remove_chat_refused core occupied stored whole given
  have stack := (@FreeHold.free _ _ _
    (fun other => view.sector other ≠ none ∧ other ≠ newest) core.messageFree _ inside inUse
    fun _ => Iff.rfl).1
  have loose : Loose { machine.db with
      journal := journal
      usageBitmap := bitmap
      messageAllocator := freeListFree machine.db.messageAllocator newest }
      (applyWrites log machine.card) (view.setSector newest none) (headOf chain) :=
    ⟨leads.idle, leads.holds, core.distinct, core.table, core.messageRing⟩
  obtain ⟨last, more, started, added, table, shared⟩ := loose.start_chat occupiedOther storedOther
    none_ stack inside (set_sector_self _ _ _) (mounted.order_room occupiedOther storedOther)
    givenOther timed direction text
  have clear : usageBit bitmap (u16 (messageDataSector newest)) = false := by
    rw [@MessagesHold.usage { machine.db with usageBitmap := bitmap } _ _ leads.holds.messages _
      inside, set_sector_self]
    rfl
  have kept := latest_table_other machine.db.htable different newest
  have named := latest_table_self machine.db.htable otherSlot newest
  rw [← table] at kept named
  refine ⟨⟨{ machine.db with
        journal := journal
        usageBitmap := bitmap
        messageAllocator := freeListFree machine.db.messageAllocator newest },
      applyWrites log machine.card⟩,
    ⟨last, applyWrites more (applyWrites log machine.card)⟩, newest, ?_,
    ⟨hashSlot, congrArg Prod.fst (Machine.run_of (loose.find occupied stored)), names⟩,
    ⟨congrArg List.head? stack, clear⟩, Machine.run_of added,
    ⟨otherSlot, congrArg Prod.fst (Machine.run_of (shared.find (by rw [named]; exact occupiedOther)
      (by rw [named]; exact storedOther))), by rw [named]⟩, ?_⟩
  · rw [Machine.failing, failed]
  have taken := @set_sector_self (view.setSector newest none) newest
    (some ((createNewMessageSector (machine.db.htable.htable otherSlot).sector uint16Max).push
      (createMessage timestamp direction text.val)))
  have here := @Loose.get_first _ _ _ _ shared hashSlot _ (by rw [kept]; exact occupied)
    (by rw [kept]; exact stored) _ _ _ (by rw [kept]; exact names) taken _ given
  have there := @Loose.get_first _ _ _ _ shared otherSlot _ (by rw [named]; exact occupiedOther)
    (by rw [named]; exact storedOther) _ _ _ (by rw [named]) taken _ givenOther
  intro either member
  rcases List.mem_pair.mp member with rfl | rfl
  · rw [Machine.run_of here]
  · rw [Machine.run_of there]

end Shared

/-- The contact that the messages of the example create. -/
def exampleUnnamed : Identity where
  name := []
  phone := exampleText.val
  nameShort := by decide
  nameText := by decide
  phoneShort := by decide
  phoneGiven := by decide
  phoneText := exampleText.property

theorem example_adds_sound {count : Nat} (few : count < totalMessageSectorSize) :
    ∃ chat recent, (exampleAdds (count + 1)).Sound ⟨[⟨exampleUnnamed, chat⟩], recent⟩ ∧
      chat.length = count + 1 := by
  induction count with
  | zero =>
      have room : ¬Exhausts (exampleAdd 7#32) exampleMachine.format.db
          exampleMachine.format.card := by
        rintro ⟨_, none_⟩
        rw [Machine.format_eq] at none_
        exact format_allocator_some none_
      exact ⟨[exampleMessage 7#32], [exampleText.val],
        (Machine.call_sound (Machine.format_sound exampleMachine) _ room).1, rfl⟩
  | succ count ih =>
      obtain ⟨chat, recent, sound, length⟩ := ih (Nat.lt_of_succ_lt few)
      have room : ¬Exhausts (exampleAdd 7#32) (exampleAdds (count + 1)).db
          (exampleAdds (count + 1)).card := by
        rintro ⟨_, none_⟩
        obtain ⟨_, _, _, _, left, messages, fills, many⟩ := @example_adds_fill count (by
          simp at few ⊢
          omega)
        obtain ⟨_, _, filled⟩ := fills.newest
        have some_ : 0 < left := by
          rw [many] at filled
          simp at few filled
          omega
        exact fills.stack_some some_ none_
      exact ⟨exampleMessage 7#32 :: chat, Model.touch exampleText.val recent,
        (Machine.call_sound sound _ room).1, by rw [List.length_cons, length]⟩

def exampleNamed : Identity where
  name := exampleOther.val
  phone := exampleOther.val
  nameShort := by decide
  nameText := exampleOther.property
  phoneShort := by decide
  phoneGiven := by decide
  phoneText := exampleOther.property

/-- One contact with four messages and one without. -/
def exampleTwoContacts : Machine :=
  ((exampleAdds 4).run (Call.run (.contactAdd (some exampleOther) (some exampleOther)))).2

theorem example_two_contacts : Reachable exampleTwoContacts ∧
    2 ≤ (exampleTwoContacts.chatSectors exampleText.val).length ∧
    (∃ record, (exampleTwoContacts.run (databaseContactGet (some exampleOther) true)).1 =
      .ok record) ∧
    (exampleTwoContacts.run (databaseMessageGetChat (some exampleOther) 0 1 true)).1.1 =
      .strgEmpty := by
  have few : 3 < totalMessageSectorSize := by decide
  obtain ⟨chat, recent, before, length⟩ := example_adds_sound few
  obtain ⟨_, _, _, _, _, _, fills, _⟩ := @example_adds_fill 3 (by decide)
  have room : ¬Exhausts (.contactAdd (some exampleOther) (some exampleOther)) (exampleAdds 4).db
      (exampleAdds 4).card := by
    rintro ⟨asks, _⟩
    cases asks
  have after : exampleTwoContacts.Sound
      ⟨[⟨exampleUnnamed, chat⟩, ⟨exampleNamed, []⟩], recent⟩ :=
    (Machine.call_sound before _ room).1
  have long := long_chat_sectors after List.mem_cons_self
    (show messageSectorCapacity < chat.length by rw [length]; decide)
  obtain ⟨view, chain, listing, mounted, _, is⟩ := after
  have shown := contact_get_spec mounted (some exampleOther) true
  have empty := get_chat_spec mounted (some exampleOther) 0 1 true
  rw [is] at shown empty
  refine ⟨.called fills.reachable _ room, long, ⟨exampleNamed.record, ?_⟩, ?_⟩
  · rw [Machine.run_of shown]
    rfl
  · rw [Machine.run_of empty]
    rfl

theorem failed_removal_shares_chat_example :
    ∃ failed added sector,
      exampleTwoContacts.failing (databaseMessageRemoveChat (some exampleText)) (allBut 5) =
        (.strgFail, failed) ∧
      failed.NamesSector exampleText.val sector ∧ failed.FreeNext sector ∧
      failed.run (databaseMessageAdd (some exampleOther) 7#32 true (some exampleText)) =
        (.strgOk, added) ∧
      added.NamesSector exampleOther.val sector ∧
      ∀ either ∈ [some exampleText, some exampleOther],
        (added.run (databaseMessageGetChat either 0 1 true)).1 =
          (.strgOk, [createMessage 7#32 true exampleText.val]) := by
  obtain ⟨reachable, long, ⟨_, known⟩, empty⟩ := example_two_contacts
  have other_valid : validPhone (some exampleOther) = some exampleOther.val := by decide
  exact failed_removal_shares_chat reachable example_valid other_valid long known empty (by decide)
    true exampleText

end SdDatabase
