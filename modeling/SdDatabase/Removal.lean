import SdDatabase.ChatCalls

/-!
# Calls that remove

A chat is removed sector by sector, from the newest to the oldest, and a contact
after its chat. A cut leaves the oldest part of the chat.
-/

namespace SdDatabase

open Bytes Device

set_option autoImplicit false

/-- The views of a removal that is cut: every five writes one sector of the chat is
gone. -/
def shortened (view : View) (chain : Nat → List Nat) (phone : Option CString) :
    View → (Nat → List Nat) → Nat → View → Prop :=
  fun later _ count seen => seen = later ∨
    ∃ slot identity, view.contact slot = some identity ∧ validPhone phone = some identity.phone ∧
      seen = view.clearSectors ((chain slot).take (count / 5))

section Removal

variable {db : Database} {card : Card Sector} {view : View} {chain : Nat → List Nat}
  {listing : Listing} {hashSlot : Nat} {identity : Identity}

theorem clear_change (core : Core db card view chain) (slot : Nat) :
    ChatChange view (view.clearSectors (chain slot)) chain slot [] := by
  have change := @drop_change _ _ slot core.chats (chain slot).length
  rwa [List.take_length, List.drop_length] at change

theorem Core.free_chat (core : Core db card view chain) (slot : Nat) :
    FreeHold ((chain slot).foldl freeListFree db.messageAllocator) totalMessageSectorSize
      fun index => (view.clearSectors (chain slot)).sector index ≠ none := by
  have stored := (core.chats.linked slot).stored
  refine core.messageFree.free_all (core.chats.separate slot)
    (fun index member => core.holds.messages.bound index (stored index member)) stored ?_
  intro other
  simp only [View.clearSectors]
  by_cases member : other ∈ chain slot
  · simp [member]
  · simp [member]

theorem remove_message_chat_run (core : Core db card view chain)
    (occupied : (db.htable.htable hashSlot).state = .occupied) :
    ∃ journal bitmap log,
      out (removeMessageChat (db.htable.htable hashSlot).latestMsgExtent) db card =
        ((true,
          { db with
            journal := journal
            usageBitmap := bitmap
            messageAllocator :=
              (chain (db.htable.htable hashSlot).sector).foldl freeListFree db.messageAllocator }),
          log) ∧
      log.length = 5 * (chain (db.htable.htable hashSlot).sector).length ∧
      Leads card log bitmap (view.clearSectors (chain (db.htable.htable hashSlot).sector))
        fun count seen => seen =
          view.clearSectors ((chain (db.htable.htable hashSlot).sector).take (count / 5)) := by
  have short := core.short (db.htable.htable hashSlot).sector
  rw [latest_of core occupied]
  exact remove_message_chat_loop_run 65537 core.idle core.holds (core.chats.linked _)
    (core.chats.separate _) (by simp at short; omega)

theorem hash_remove_message_run (core : Core db card view chain)
    (occupied : (db.htable.htable hashSlot).state = .occupied)
    (stored : view.contact (db.htable.htable hashSlot).sector = some identity) :
    ∃ journal bitmap log,
      out (hashRemoveMessage identity.phone) db card =
        ((true,
          { db with
            journal := journal
            usageBitmap := bitmap
            messageAllocator :=
              (chain (db.htable.htable hashSlot).sector).foldl freeListFree db.messageAllocator
            htable := latestTable db.htable hashSlot uint16Max }), log) ∧
      log.length = 5 * (chain (db.htable.htable hashSlot).sector).length ∧
      Leads card log bitmap (view.clearSectors (chain (db.htable.htable hashSlot).sector))
        fun count seen => seen =
          view.clearSectors ((chain (db.htable.htable hashSlot).sector).take (count / 5)) := by
  obtain ⟨journal, bitmap, log, run, length, leads⟩ := remove_message_chat_run core occupied
  refine ⟨journal, bitmap, log, ?_, length, leads⟩
  rw [hashRemoveMessage, out_bind_of (out_findOccupied_present core.table core.holds.contacts
    (fun _ _ => id) core.distinct occupied stored)]
  simp only [apply_writes_nil, List.nil_append]
  rw [out_bind_of (out_get _ _)]
  simp only [apply_writes_nil, List.nil_append]
  rw [out_bind_of run]
  simp only [Bool.not_true, Bool.false_eq_true, if_false]
  rw [setLatestMsgExtent, modifyTable, out_bind_of (out_modify _ _ _)]
  simp only [out_pure, List.append_nil]
  rfl

theorem message_remove_chat_spec (mounted : Mounted db card view chain listing)
    (phone : Option CString) :
    Carries (databaseMessageRemoveChat phone) db card view chain
      ((modelOf db view chain listing).removeChat phone).1
      ((modelOf db view chain listing).removeChat phone).2 (shortened view chain phone) := by
  unfold Model.removeChat databaseMessageRemoveChat
  cases given : validPhone phone with
  | none => exact carries_unchanged mounted rfl (fun _ => Or.inl rfl)
  | some text =>
      rcases look_up mounted.core text with
        ⟨hashSlot, identity, occupied, stored, rfl, find⟩ | ⟨absent, find⟩
      · have noChat := latest_end_iff mounted.core occupied
        have empty := chat_empty_iff mounted.core.chats (db.htable.htable hashSlot).sector
        simp only [model_find mounted occupied stored]
        by_cases none_ : chain (db.htable.htable hashSlot).sector = []
        · rw [if_pos (empty.mpr none_)]
          refine carries_unchanged mounted ?_ (fun _ => Or.inl rfl)
          rw [out_bind_of find]
          simp only [apply_writes_nil, List.nil_append]
          rw [out_bind_of (out_get _ _)]
          simp only [noChat.mpr none_, if_true, apply_writes_nil, List.nil_append]
          rfl
        · rw [if_neg (mt empty.mp none_)]
          obtain ⟨journal, bitmap, log, run, _, leads⟩ :=
            hash_remove_message_run mounted.core occupied stored
          have change := clear_change mounted.core (db.htable.htable hashSlot).sector
          have core := (mounted.core.chat_change occupied change rfl rfl
            (mounted.core.free_chat _) leads journal).order_only
              ⟨db.chatOrder.mem.erase hashSlot⟩
          obtain ⟨after, model⟩ := mounted.chat_change occupied stored change core rfl rfl
            mounted.order.forget
          refine ⟨_, log, _, _, listing, ?_, ?_, after,
            fun tidy => clear_tidy mounted.core.chats tidy, ?_⟩
          · have logEq : log = [] ++ ([] ++ (log ++ ([] ++ []))) := by simp
            rw [logEq]
            refine out_bind_both find (out_bind_both (out_get _ _) ?_)
            simp only [mt noChat.mp none_, if_false]
            refine out_bind_both run (out_bind_both (out_modifyChatOrder _) ?_)
            rw [chat_order_remove_eq]
            rfl
          · exact leads.mono fun count seen known =>
              Or.inr ⟨_, identity, stored, given, known⟩
          · rw [model]
            congr 1
            exact recent_erase mounted occupied stored
      · simp only [model_find_none mounted absent]
        refine carries_unchanged mounted ?_ (fun _ => Or.inl rfl)
        rw [out_bind_of find]
        rfl

/-- The table without the contact of a hash slot. -/
def deletedTable (table : HashTable) (hashSlot : Nat) : HashTable :=
  { table.setEntry hashSlot { table.htable hashSlot with state := .deleted } with
    numElems := table.numElems - 1 }

theorem Core.remove_contact (core : Core db card view chain)
    (occupied : (db.htable.htable hashSlot).state = .occupied)
    (stored : view.contact (db.htable.htable hashSlot).sector = some identity)
    (noChat : chain (db.htable.htable hashSlot).sector = [])
    {log : WriteLog Sector} {bitmap : UsageBitmap} {during : Nat → View → Prop}
    (leads : Leads card log bitmap (view.setContact (db.htable.htable hashSlot).sector none) during)
    (journal : JournalHeader) :
    Core
      { db with
        journal := journal
        usageBitmap := bitmap
        contactAllocator := freeListFree db.contactAllocator (db.htable.htable hashSlot).sector
        htable := deletedTable db.htable hashSlot }
      (applyWrites log card) (view.setContact (db.htable.htable hashSlot).sector none) chain where
  idle := leads.idle
  holds := leads.holds
  distinct first second left right firstIs secondIs same := by
    have kept : ∀ slot known, (view.setContact (db.htable.htable hashSlot).sector none).contact
        slot = some known → view.contact slot = some known := by
      intro slot known found
      by_cases here : slot = (db.htable.htable hashSlot).sector
      · rw [here, set_contact_self] at found
        cases found
      · rwa [set_contact_other _ _ here] at found
    exact core.distinct first second left right (kept _ _ firstIs) (kept _ _ secondIs) same
  chats := by
    refine ⟨core.chats.linked, core.chats.owned, core.chats.counted, core.chats.separate, ?_⟩
    intro slot some_
    have different : slot ≠ (db.htable.htable hashSlot).sector := by
      rintro rfl
      exact some_ noChat
    rw [set_contact_other _ _ different]
    exact core.chats.contacts slot some_
  table := core.table.delete occupied _ rfl _
  contactFree := by
    refine (core.contactFree.free (core.contact_bound stored)
      (by rw [stored]; exact Option.some_ne_none _) ?_).2
    intro other
    by_cases same : other = (db.htable.htable hashSlot).sector
    · rw [same, set_contact_self]
      simp
    · rw [set_contact_other _ _ same]
      simp [same]
  messageFree := core.messageFree
  messageRing := core.messageRing
  callRing := core.callRing

/-- Memory after a contact was removed that had the chat `sectors`. -/
def removedDatabase (db : Database) (hashSlot : Nat) (sectors : List Nat) (journal : JournalHeader)
    (bitmap : UsageBitmap) : Database :=
  { db with
    journal := journal
    usageBitmap := bitmap
    contactAllocator := freeListFree db.contactAllocator (db.htable.htable hashSlot).sector
    messageAllocator := sectors.foldl freeListFree db.messageAllocator
    htable := deletedTable (latestTable db.htable hashSlot uint16Max) hashSlot }

theorem hash_remove_run (core : Core db card view chain)
    (occupied : (db.htable.htable hashSlot).state = .occupied)
    (stored : view.contact (db.htable.htable hashSlot).sector = some identity) :
    ∃ journal bitmap log,
      out (hashRemove identity.phone) db card =
        ((true, removedDatabase db hashSlot (chain (db.htable.htable hashSlot).sector) journal
          bitmap), log) ∧
      Core (removedDatabase db hashSlot (chain (db.htable.htable hashSlot).sector) journal bitmap)
        (applyWrites log card)
        ((view.clearSectors (chain (db.htable.htable hashSlot).sector)).setContact
          (db.htable.htable hashSlot).sector none)
        (Function.update chain (db.htable.htable hashSlot).sector []) ∧
      Leads card log bitmap
        ((view.clearSectors (chain (db.htable.htable hashSlot).sector)).setContact
          (db.htable.htable hashSlot).sector none)
        fun count seen => seen = (view.clearSectors
            (chain (db.htable.htable hashSlot).sector)).setContact
              (db.htable.htable hashSlot).sector none ∨
          seen = view.clearSectors
            ((chain (db.htable.htable hashSlot).sector).take (count / 5)) := by
  obtain ⟨journal, bitmap, log, run, length, leads⟩ := remove_message_chat_run core occupied
  have change := clear_change core (db.htable.htable hashSlot).sector
  have middle := core.chat_change occupied change rfl rfl (core.free_chat _) leads journal
  have sectorSame := (latest_table_entry db.htable hashSlot uint16Max hashSlot).2
  have stateSame := (latest_table_entry db.htable hashSlot uint16Max hashSlot).1
  have cleared : (view.clearSectors (chain (db.htable.htable hashSlot).sector)).contact
      (db.htable.htable hashSlot).sector = some identity := stored
  obtain ⟨lastJournal, lastBitmap, lastLog, lastRun, lastLeads⟩ :=
    @remove_contact_run { db with
      journal := journal
      usageBitmap := bitmap
      messageAllocator :=
        (chain (db.htable.htable hashSlot).sector).foldl freeListFree db.messageAllocator
      htable := latestTable db.htable hashSlot uint16Max } _ _ middle.idle middle.holds _ _ cleared
  have noChat : Function.update chain (db.htable.htable hashSlot).sector []
      ((latestTable db.htable hashSlot uint16Max).htable hashSlot).sector = [] := by
    rw [sectorSame, Function.update_self]
  have leadsHere : Leads (applyWrites log card) lastLog lastBitmap
      ((view.clearSectors (chain (db.htable.htable hashSlot).sector)).setContact
        ((latestTable db.htable hashSlot uint16Max).htable hashSlot).sector none)
      fun _ _ => True := by
    rw [sectorSame]
    exact lastLeads.mono fun _ _ _ => trivial
  have final := middle.remove_contact (stateSame.trans occupied)
    (by rw [← sectorSame] at cleared; exact cleared) noChat leadsHere lastJournal
  have removed : removedDatabase db hashSlot (chain (db.htable.htable hashSlot).sector) lastJournal
      lastBitmap =
      { db with
        journal := lastJournal
        usageBitmap := lastBitmap
        contactAllocator := freeListFree db.contactAllocator (db.htable.htable hashSlot).sector
        messageAllocator :=
          (chain (db.htable.htable hashSlot).sector).foldl freeListFree db.messageAllocator
        htable := deletedTable (latestTable db.htable hashSlot uint16Max) hashSlot } := rfl
  refine ⟨lastJournal, lastBitmap, log ++ lastLog, ?_, ?_, ?_⟩
  rotate_left
  · rw [apply_writes_append]
    rw [removed]
    simpa only [List.headD_nil, sectorSame] using final
  · refine (leads.append lastLeads).mono ?_
    rintro count seen (⟨early, known⟩ | ⟨late, known | known⟩)
    · exact Or.inr known
    · rw [length] at late
      right
      rw [known, List.take_of_length_le (by omega)]
    · exact Or.inl known
  · have logEq : log ++ lastLog =
        [] ++ ([] ++ (log ++ ([] ++ ([] ++ (lastLog ++ ([] ++ [])))))) := by simp
    rw [logEq, hashRemove]
    refine out_bind_both (out_findOccupied_present core.table core.holds.contacts (fun _ _ => id)
      core.distinct occupied stored) (out_bind_both (out_get _ _) (out_bind_both run (out_bind_both
        (out_modify _ _ _) (out_bind_both (out_get _ _) ?_))))
    change out (removeContact ((latestTable db.htable hashSlot uint16Max).htable
      hashSlot).sector >>= _) _ _ = _
    rw [sectorSame]
    exact out_bind_both lastRun (out_bind_both (out_modify _ _ _) rfl)

theorem OrderHolds.delete (order : OrderHolds db.chatOrder db.htable) :
    OrderHolds ⟨db.chatOrder.mem.erase hashSlot⟩
      (deletedTable (latestTable db.htable hashSlot uint16Max) hashSlot) where
  nodup := order.nodup.erase _
  mem other := by
    rw [order.nodup.mem_erase_iff, order.mem]
    by_cases same : other = hashSlot
    · rw [same]
      simp [deletedTable, HashTable.setEntry]
    · have kept : (deletedTable (latestTable db.htable hashSlot uint16Max) hashSlot).htable other =
          db.htable.htable other :=
        (Function.update_of_ne same _ _).trans (latest_table_other _ same _)
      rw [kept]
      simp [same]

theorem Mounted.remove (mounted : Mounted db card view chain listing)
    (occupied : (db.htable.htable hashSlot).state = .occupied)
    (stored : view.contact (db.htable.htable hashSlot).sector = some identity)
    {next : Database} {after : Card Sector}
    (core : Core next after
      ((view.clearSectors (chain (db.htable.htable hashSlot).sector)).setContact
        (db.htable.htable hashSlot).sector none)
      (Function.update chain (db.htable.htable hashSlot).sector []))
    (table : next.htable = deletedTable (latestTable db.htable hashSlot uint16Max) hashSlot)
    (index : next.nameIndex = listedIndex (unlisted hashSlot listing))
    (order : next.chatOrder = ⟨db.chatOrder.mem.erase hashSlot⟩) :
    let later := (view.clearSectors (chain (db.htable.htable hashSlot).sector)).setContact
      (db.htable.htable hashSlot).sector none
    let laterChain := Function.update chain (db.htable.htable hashSlot).sector []
    Mounted next after later laterChain (unlisted hashSlot listing) ∧
      modelOf next later laterChain (unlisted hashSlot listing) =
        { people := Model.without identity.phone (modelOf db view chain listing).people
          recent := (modelOf db view chain listing).recent.erase identity.phone } := by
  intro later laterChain
  have member := mounted.listed_of occupied stored
  have change := clear_change mounted.core (db.htable.htable hashSlot).sector
  have entrySame := latest_table_entry db.htable hashSlot uint16Max
  have contacts : contactAt next.htable later.contact =
      Function.update (contactAt db.htable view.contact) hashSlot none := by
    have deleted := contact_at_delete (mounted.core.table.setLatest occupied uint16Max)
      ((entrySame hashSlot).1.trans occupied)
      { (latestTable db.htable hashSlot uint16Max).htable hashSlot with state := .deleted } rfl
      (db.htable.numElems - 1)
    rw [show db.htable.setEntry hashSlot { db.htable.htable hashSlot with
      latestMsgExtent := uint16Max } = latestTable db.htable hashSlot uint16Max from rfl,
      (entrySame hashSlot).2, contact_at_latest] at deleted
    rw [table]
    exact deleted
  have slots := mounted.slot_iff_phone occupied stored
  refine ⟨⟨core, ?_, ?_, ?_⟩, ?_⟩
  · rw [contacts, index]
    exact mounted.names.unlist
  · rw [order, table]
    exact mounted.order.delete
  · have shorter := unlisted_length mounted.names member
    have count := mounted.count
    rw [table]
    change db.htable.numElems - 1 = _
    omega
  · rw [modelOf]
    congr 1
    · rw [modelOf, ← map_unlisted (fun _ => rfl) slots]
      refine List.map_congr_left fun item inList => ?_
      obtain ⟨inListing, different⟩ := mem_unlisted.mp inList
      have notHere := mounted.sectors_apart occupied inListing different
      have kept : next.htable.htable item.1 = db.htable.htable item.1 := by
        rw [table]
        exact (Function.update_of_ne different _ _).trans (latest_table_other _ different _)
      rw [personAt, personAt, kept]
      congr 1
      exact chat_of_change_other change notHere
    · rw [order, ← recent_erase mounted occupied stored]
      refine List.map_congr_left fun other inOrder => ?_
      have different := (mounted.order.nodup.mem_erase_iff.mp inOrder).1
      rw [phoneAt, phoneAt, contacts, Function.update_of_ne different]

theorem contact_remove_run (mounted : Mounted db card view chain listing)
    (occupied : (db.htable.htable hashSlot).state = .occupied)
    (stored : view.contact (db.htable.htable hashSlot).sector = some identity)
    {phone : Option CString} (given : validPhone phone = some identity.phone) :
    ∃ next log, out (databaseContactRemove phone) db card = ((.strgOk, next), log) ∧
      next.htable = deletedTable (latestTable db.htable hashSlot uint16Max) hashSlot ∧
      next.nameIndex = listedIndex (unlisted hashSlot listing) ∧
      next.chatOrder = ⟨db.chatOrder.mem.erase hashSlot⟩ ∧
      Core next (applyWrites log card)
        ((view.clearSectors (chain (db.htable.htable hashSlot).sector)).setContact
          (db.htable.htable hashSlot).sector none)
        (Function.update chain (db.htable.htable hashSlot).sector []) ∧
      Leads card log next.usageBitmap
        ((view.clearSectors (chain (db.htable.htable hashSlot).sector)).setContact
          (db.htable.htable hashSlot).sector none)
        fun count seen => seen = (view.clearSectors
            (chain (db.htable.htable hashSlot).sector)).setContact
              (db.htable.htable hashSlot).sector none ∨
          seen = view.clearSectors
            ((chain (db.htable.htable hashSlot).sector).take (count / 5)) := by
  have find := out_findOccupied_known mounted.core occupied stored
  have member := mounted.listed_of occupied stored
  have removed := out_sortedArrayRemove mounted.core.holds.contacts mounted.readable
    mounted.names member
  obtain ⟨journal, bitmap, log, run, core, leads⟩ := hash_remove_run
    (mounted.core.names_only (listedIndex (unlisted hashSlot listing))) occupied stored
  refine ⟨_, log, ?_, rfl, rfl, rfl, core.order_only ⟨db.chatOrder.mem.erase hashSlot⟩, leads⟩
  have logEq : log = [] ++ ([] ++ ([] ++ ([] ++ (log ++ ([] ++ []))))) := by simp
  unfold databaseContactRemove
  rw [given, logEq]
  refine out_bind_both find (out_bind_both (out_get _ _) (out_bind_both
    (out_readContact_slot mounted.core stored) (out_bind_both removed ?_)))
  refine out_bind_both run ?_
  refine out_bind_both (out_modifyChatOrder _) ?_
  rw [chat_order_remove_eq]
  rfl

theorem contact_remove_spec (mounted : Mounted db card view chain listing)
    (phone : Option CString) :
    Carries (databaseContactRemove phone) db card view chain
      ((modelOf db view chain listing).removeContact phone).1
      ((modelOf db view chain listing).removeContact phone).2 (shortened view chain phone) := by
  unfold Model.removeContact
  cases given : validPhone phone with
  | none =>
      refine carries_unchanged mounted ?_ (fun _ => Or.inl rfl)
      unfold databaseContactRemove
      rw [given]
      rfl
  | some text =>
      rcases look_up mounted.core text with
        ⟨hashSlot, identity, occupied, stored, rfl, find⟩ | ⟨absent, find⟩
      · simp only [model_find mounted occupied stored, Option.isNone_some, Bool.false_eq_true,
          if_false]
        obtain ⟨next, log, run, table, index, order, core, leads⟩ :=
          contact_remove_run mounted occupied stored given
        obtain ⟨after, model⟩ := mounted.remove occupied stored core table index order
        refine ⟨next, log, _, _, _, run, ?_, after, ?_, model⟩
        · refine leads.mono ?_
          rintro count seen (known | known)
          · exact Or.inl known
          · exact Or.inr ⟨_, identity, stored, given, known⟩
        · intro tidy
          have cleared := @clear_tidy _ _ (db.htable.htable hashSlot).sector
            mounted.core.chats tidy
          exact ⟨cleared.nexts, cleared.covered⟩
      · simp only [model_find_none mounted absent, Option.isNone_none, if_true]
        refine carries_unchanged mounted ?_ (fun _ => Or.inl rfl)
        unfold databaseContactRemove
        rw [given, out_bind_of find]
        rfl

end Removal

end SdDatabase
