import SdDatabase.Model

/-!
# Calls that only read

On a mounted database these calls return what the abstract phone book says and
change neither memory nor card.
-/

namespace SdDatabase

open Bytes Device

set_option autoImplicit false

section Reading

variable {db : Database} {card : Card Sector} {view : View} {chain : Nat → List Nat}
  {listing : Listing}

theorem out_findOccupied_known (core : Core db card view chain) {hashSlot : Nat}
    {identity : Identity} (occupied : (db.htable.htable hashSlot).state = .occupied)
    (stored : view.contact (db.htable.htable hashSlot).sector = some identity) :
    out (findOccupied identity.phone) db card = ((.ok hashSlot, db), []) := by
  rw [findOccupied, out_bind_of (out_findOccupied_present core.table core.holds.contacts
    (fun _ _ => id) core.distinct occupied stored)]
  rfl

theorem out_findOccupied_new (core : Core db card view chain) {phone : List Byte}
    (absent : ∀ sector identity, view.contact sector = some identity → identity.phone ≠ phone) :
    out (findOccupied phone) db card = ((.error .strgEmpty, db), []) := by
  rw [findOccupied, out_bind_of (out_findOccupied_absent core.table core.holds.contacts
    (fun _ _ => id) absent)]
  rfl

/-- On a card that shows at least the contacts of the table, a phone number is that of one of
them, or the look-up fails. -/
theorem look_up_part (core : Core db card view chain) {next : Database} {other : Card Sector}
    {seen : View} (table : next.htable = db.htable)
    (contacts : ContactsHold next.usageBitmap other seen.contact)
    (part : ∀ sector identity, view.contact sector = some identity →
      seen.contact sector = some identity) (phone : List Byte) :
    (∃ hashSlot identity, (db.htable.htable hashSlot).state = .occupied ∧
      view.contact (db.htable.htable hashSlot).sector = some identity ∧ identity.phone = phone ∧
      out (findOccupied phone) next other = ((.ok hashSlot, next), [])) ∨
    ((∀ sector identity, view.contact sector = some identity → identity.phone ≠ phone) ∧
      out (findOccupied phone) next other = ((.error .strgEmpty, next), [])) := by
  have holds := core.table
  rw [← table] at holds ⊢
  rcases Core.known_or_new view phone with ⟨sector, identity, stored, rfl⟩ | absent
  · left
    obtain ⟨hashSlot, occupied, place⟩ :=
      holds.placed sector (by rw [stored]; exact Option.some_ne_none _)
    have here : view.contact (next.htable.htable hashSlot).sector = some identity := by
      rw [place, stored]
    refine ⟨hashSlot, identity, occupied, here, rfl, ?_⟩
    rw [findOccupied, out_bind_of (out_findOccupied_present holds contacts part core.distinct
      occupied here)]
    rfl
  · right
    refine ⟨absent, ?_⟩
    rw [findOccupied, out_bind_of (out_findOccupied_absent holds contacts part absent)]
    rfl

theorem look_up (core : Core db card view chain) (phone : List Byte) :
    (∃ hashSlot identity, (db.htable.htable hashSlot).state = .occupied ∧
      view.contact (db.htable.htable hashSlot).sector = some identity ∧ identity.phone = phone ∧
      out (findOccupied phone) db card = ((.ok hashSlot, db), [])) ∨
    ((∀ sector identity, view.contact sector = some identity → identity.phone ≠ phone) ∧
      out (findOccupied phone) db card = ((.error .strgEmpty, db), [])) :=
  look_up_part core rfl core.holds.contacts (fun _ _ => id) phone

theorem out_readContact_slot (core : Core db card view chain) {hashSlot : Nat}
    {identity : Identity}
    (stored : view.contact (db.htable.htable hashSlot).sector = some identity) :
    out (readContact (db.htable.htable hashSlot).sector) db card =
      ((.ok identity.record, db), []) := by
  rw [out_readContact core.holds.contacts (core.contact_bound stored), stored]

theorem latest_of (core : Core db card view chain) {hashSlot : Nat}
    (occupied : (db.htable.htable hashSlot).state = .occupied) :
    (db.htable.htable hashSlot).latestMsgExtent =
      headOf chain (db.htable.htable hashSlot).sector := by
  obtain ⟨_, entry⟩ := core.table.entry hashSlot occupied
  exact entry.latest

theorem latest_end_iff (core : Core db card view chain) {hashSlot : Nat}
    (occupied : (db.htable.htable hashSlot).state = .occupied) :
    (db.htable.htable hashSlot).latestMsgExtent = uint16Max ↔
      chain (db.htable.htable hashSlot).sector = [] := by
  rw [latest_of core occupied]
  exact core.chats.head_member core.holds.messages.bound

theorem chat_empty_iff (chats : ChatsHold view chain) (slot : Nat) :
    chatOf view chain slot = [] ↔ chain slot = [] := by
  constructor
  · intro none_
    cases whole : chain slot with
    | nil => rfl
    | cons index rest =>
        obtain ⟨mSector, found⟩ := @ChatsHold.member _ _ chats slot index
          (by rw [whole]; simp)
        have counted := chats.counted slot index (by rw [whole]; simp) mSector found
        rw [chatOf, whole, chat_messages_cons found, List.append_eq_nil_iff] at none_
        have length := newest_first_length mSector mSector.header.msgCount.toNat
        rw [show newestFirst mSector mSector.header.msgCount.toNat = [] from none_.1] at length
        simp only [List.length_nil] at length
        omega
  · intro none_
    rw [chatOf, none_]
    rfl

theorem out_readNMessages_slot (core : Core db card view chain) {hashSlot : Nat}
    (occupied : (db.htable.htable hashSlot).state = .occupied) (start n : Nat) :
    out (readNMessages (db.htable.htable hashSlot).latestMsgExtent start n) db card =
      ((if n = 0 ∨ chain (db.htable.htable hashSlot).sector = [] then (.strgOk, [])
        else if (chatOf view chain (db.htable.htable hashSlot).sector).length ≤ start then
          (.strgFail, [])
        else (.strgOk,
          ((chatOf view chain (db.htable.htable hashSlot).sector).drop start).take n), db),
        []) := by
  rw [latest_of core occupied]
  exact out_readNMessages core.holds.messages.stored (core.chats.linked _) (core.chats.counted _)
    (core.short _) start n

theorem contact_get_part (mounted : Mounted db card view chain listing) {next : Database}
    {other : Card Sector} {seen : View} (table : next.htable = db.htable)
    (contacts : ContactsHold next.usageBitmap other seen.contact)
    (part : ∀ sector identity, view.contact sector = some identity →
      seen.contact sector = some identity) (phone : Option CString) (given : Bool) :
    out (databaseContactGet phone given) next other =
      (((modelOf db view chain listing).getContact phone given, next), []) := by
  unfold databaseContactGet Model.getContact
  cases given with
  | false => rfl
  | true =>
      cases valid : validPhone phone with
      | none => rfl
      | some text =>
          rcases look_up_part mounted.core table contacts part text with
            ⟨hashSlot, identity, occupied, stored, rfl, run⟩ | ⟨absent, run⟩
          · simp only [model_find mounted occupied stored]
            rw [out_bind_of run]
            simp only [apply_writes_nil, List.nil_append]
            rw [out_bind_of (out_get _ _), table]
            simp only [apply_writes_nil, List.nil_append]
            rw [out_readContact contacts (mounted.core.contact_bound stored), part _ _ stored]
          · simp only [model_find_none mounted absent]
            rw [out_bind_of run]
            rfl

theorem contact_get_spec (mounted : Mounted db card view chain listing)
    (phone : Option CString) (given : Bool) :
    out (databaseContactGet phone given) db card =
      (((modelOf db view chain listing).getContact phone given, db), []) :=
  contact_get_part mounted rfl mounted.core.holds.contacts (fun _ _ => id) phone given

theorem out_listContacts (mounted : Mounted db card view chain listing) (count rank : Nat)
    (read : List Contact) :
    out (listContacts count rank read) db card =
      ((((.strgOk : StrgRet), read ++ ((listing.drop rank).take count).map fun item =>
        item.2.record), db), []) := by
  induction count generalizing rank read with
  | zero => simp [listContacts]
  | succ count ih =>
      rw [listContacts, out_bind_of (out_get _ _)]
      simp only [apply_writes_nil, List.nil_append, mounted.names.index, listedIndex,
        List.getElem?_map]
      cases found : listing[rank]? with
      | none =>
          rw [List.drop_eq_nil_of_le (List.getElem?_eq_none_iff.mp found)]
          simp
      | some item =>
          obtain ⟨bound, same⟩ := List.getElem?_eq_some_iff.mp found
          have stored := (mounted.listed_contact (List.mem_of_getElem? found)).2
          simp only [Option.map_some]
          rw [out_bind_of (out_get _ _)]
          simp only [apply_writes_nil, List.nil_append, listedEntry]
          rw [out_bind_of (out_readContact_slot mounted.core stored)]
          simp only [apply_writes_nil, List.nil_append]
          rw [ih, List.drop_eq_getElem_cons bound, same]
          simp

theorem contact_list_spec (mounted : Mounted db card view chain listing) (start n : Nat)
    (given : Bool) :
    out (databaseContactList start n given) db card =
      (((modelOf db view chain listing).listContacts start n given, db), []) := by
  have length : db.nameIndex.mem.length = listing.length := by
    rw [mounted.names.index, listedIndex, List.length_map]
  unfold databaseContactList Model.listContacts
  cases given with
  | false => rfl
  | true =>
      simp only [Bool.not_true, Bool.false_eq_true, if_false, modelOf, List.length_map]
      rw [out_bind_of (out_get _ _), length]
      simp only [apply_writes_nil, List.nil_append]
      by_cases past : listing.length ≤ start
      · rw [if_pos past, if_pos past]
        rfl
      · rw [if_neg past, if_neg past, out_listContacts mounted, List.nil_append, ← List.map_drop,
          ← List.map_take, List.map_map]
        rfl

theorem contact_seek_spec (mounted : Mounted db card view chain listing)
    (text : Option CString) (given : Bool) :
    out (databaseContactSeek text given) db card =
      (((modelOf db view chain listing).seekContact text given, db), []) := by
  unfold databaseContactSeek Model.seekContact
  cases given with
  | false => rfl
  | true =>
      cases valid : validStr text maxNameLen with
      | none => rfl
      | some bytes =>
          obtain ⟨noNul, short⟩ : (∀ character ∈ bytes, character ≠ 0#8) ∧
              bytes.length ≤ maxNameLen := by
            unfold validStr at valid
            split at valid
            · cases valid
            · rename_i whole
              split at valid
              · obtain rfl := Option.some_injective _ valid
                exact ⟨whole.property, by assumption⟩
              · cases valid
          simp only [modelOf, List.countP_map]
          exact out_sortedArraySeek mounted.core.holds.contacts mounted.readable mounted.names
            noNul short

theorem contact_count_spec (mounted : Mounted db card view chain listing) :
    out databaseContactCount db card =
      (((modelOf db view chain listing).people.length, db), []) := by
  rw [modelOf, List.length_map, ← mounted.count]
  rfl

theorem get_chat_spec (mounted : Mounted db card view chain listing) (phone : Option CString)
    (start n : Nat) (given : Bool) :
    out (databaseMessageGetChat phone start n given) db card =
      (((modelOf db view chain listing).getChat phone start n given, db), []) := by
  unfold databaseMessageGetChat Model.getChat
  cases given with
  | false => rfl
  | true =>
      cases valid : validPhone phone with
      | none => rfl
      | some text =>
          rcases look_up mounted.core text with
            ⟨hashSlot, identity, occupied, stored, rfl, run⟩ | ⟨absent, run⟩
          · have noChat := latest_end_iff mounted.core occupied
            have empty := chat_empty_iff mounted.core.chats (db.htable.htable hashSlot).sector
            simp only [model_find mounted occupied stored]
            rw [out_bind_of run]
            simp only [apply_writes_nil, List.nil_append]
            rw [out_bind_of (out_get _ _)]
            simp only [apply_writes_nil, List.nil_append]
            by_cases none_ : chain (db.htable.htable hashSlot).sector = []
            · rw [if_pos (noChat.mpr none_), if_pos (empty.mpr none_)]
              rfl
            · rw [if_neg (mt noChat.mp none_), if_neg (mt empty.mp none_),
                out_readNMessages_slot mounted.core occupied]
              simp only [none_, or_false]
          · simp only [model_find_none mounted absent]
            rw [out_bind_of run]
            rfl

theorem chat_count_spec :
    out databaseChatCount db card = (((modelOf db view chain listing).recent.length, db), []) := by
  rw [modelOf, List.length_map]
  rfl

theorem out_listChats (mounted : Mounted db card view chain listing) (count rank : Nat)
    (read : List ChatSummary) :
    out (listChats count rank read) db card =
      ((((.strgOk : StrgRet),
        read ++ ((((modelOf db view chain listing).recent.drop rank).take count).filterMap
          (modelOf db view chain listing).summary)), db), []) := by
  induction count generalizing rank read with
  | zero => simp [listChats]
  | succ count ih =>
      rw [listChats, out_bind_of (out_get _ _)]
      simp only [apply_writes_nil, List.nil_append]
      have recent : (modelOf db view chain listing).recent =
          db.chatOrder.mem.map (phoneAt db view) := rfl
      cases found : db.chatOrder.mem[rank]? with
      | none =>
          rw [recent, List.drop_eq_nil_of_le
            (by rw [List.length_map]; exact List.getElem?_eq_none_iff.mp found)]
          simp
      | some hashSlot =>
          obtain ⟨occupied, chat⟩ := (mounted.order.mem hashSlot).mp (List.mem_of_getElem? found)
          obtain ⟨identity, entry⟩ := mounted.core.table.entry hashSlot occupied
          have some_ := mt (latest_end_iff mounted.core occupied).mpr chat
          obtain ⟨newest, older, messages⟩ := List.exists_cons_of_ne_nil
            (mt (chat_empty_iff mounted.core.chats _).mp some_)
          have atRank : (modelOf db view chain listing).recent[rank]? = some identity.phone := by
            rw [recent, List.getElem?_map, found, Option.map_some,
              phone_at_listed occupied entry.stored]
          obtain ⟨bound, same⟩ := List.getElem?_eq_some_iff.mp atRank
          have shown : (modelOf db view chain listing).summary identity.phone =
              some ⟨identity.record, newest⟩ := by
            rw [Model.summary, model_find mounted occupied entry.stored, messages]
            rfl
          simp only []
          rw [out_bind_of (out_get _ _)]
          simp only [apply_writes_nil, List.nil_append]
          rw [out_bind_of (out_readContact_slot mounted.core entry.stored)]
          simp only [apply_writes_nil, List.nil_append]
          rw [out_bind_of (out_readNMessages_slot mounted.core occupied 0 1)]
          simp only [some_, one_ne_zero, or_false, if_false, messages, List.length_cons,
            Nat.le_zero, Nat.add_eq_zero_iff, and_false, List.drop_zero, List.take_succ_cons,
            List.take_zero, List.headD_cons, apply_writes_nil, List.nil_append]
          rw [ih, List.drop_eq_getElem_cons bound, List.take_succ_cons, same,
            List.filterMap_cons_some shown, List.append_assoc]
          rfl

theorem chat_list_spec (mounted : Mounted db card view chain listing) (start n : Nat)
    (given : Bool) :
    out (databaseChatList start n given) db card =
      (((modelOf db view chain listing).listChats start n given, db), []) := by
  have length : (modelOf db view chain listing).recent.length = db.chatOrder.mem.length :=
    List.length_map _
  unfold databaseChatList Model.listChats
  cases given with
  | false => rfl
  | true =>
      simp only [Bool.not_true, Bool.false_eq_true, if_false]
      rw [out_bind_of (out_get _ _), length]
      simp only [apply_writes_nil, List.nil_append]
      by_cases past : db.chatOrder.mem.length ≤ start
      · rw [if_pos past, if_pos past]
        rfl
      · rw [if_neg past, if_neg past, out_listChats mounted]
        rfl

end Reading

end SdDatabase
