import SdDatabase.ContactRebuild

/-!
# Rebuilding the table and the free lists

The two scans of `hash_table.c` at start-up. Behind every step the table knows
the contacts of the slots passed so far and the free lists hold the indices
passed that are not in use, so behind the last step they hold what the card does.
-/

namespace SdDatabase

open Bytes Device BitScan

set_option autoImplicit false

def slotsBelow (count : Nat) (contact : Nat → Option Identity) (slot : Nat) : Option Identity :=
  if slot < count then contact slot else none

theorem slots_below_all {contact : Nat → Option Identity}
    (bound : ∀ slot, contact slot ≠ none → slot < hashTableEntries) :
    slotsBelow hashTableEntries contact = contact := by
  funext slot
  unfold slotsBelow
  split
  next => rfl
  next above =>
    by_contra given
    exact above (bound slot (Ne.symm given))

/-- Only the table and the contact allocator have changed since `base`, and they
know the slots below `count`. -/
structure ContactsBuilt (base : Database) (contact : Nat → Option Identity) (count : Nat)
    (db : Database) : Prop where
  same : db = { base with htable := db.htable, contactAllocator := db.contactAllocator }
  table : TableHolds db.htable (slotsBelow count contact) fun _ => uint16Max
  number : db.htable.numElems = (List.range count).countP fun slot => (contact slot).isSome
  free : FreeBelow db.contactAllocator hashTableEntries count fun slot => (contact slot).isSome

section Contacts

variable {base db : Database} {card : Card Sector} {view : View} {count : Nat}

theorem ContactsBuilt.bitmap (built : ContactsBuilt base view.contact count db) :
    db.usageBitmap = base.usageBitmap := by
  rw [built.same]

section Represented

variable {bitmap : UsageBitmap} {contact : Nat → Option Identity}
  (contacts : ContactsHold bitmap card contact)

include contacts

theorem stored_phone_record : storedPhone bitmap card = contactPhones contact := by
  funext slot
  rw [storedPhone, stored_contact_record contacts, contactPhones, Option.map_map]
  congr 1
  funext identity
  exact record_phone_cstr identity

theorem slot_taken_record (slot : Nat) :
    slotTaken bitmap card slot = (contact slot).isSome := by
  have intact : slotCorrupt bitmap card slot = false := by
    unfold slotCorrupt
    by_cases inside : slot / 6 < totalContactSectorSize
    · cases used : usageBit bitmap (slot / 6) with
      | false => rw [Bool.and_false, Bool.false_and]
      | true => rw [(contacts.sectors _ inside used).valid, Bool.not_true, Bool.and_false]
    · rw [decide_eq_false inside, Bool.false_and, Bool.false_and]
  rw [slotTaken, intact, Bool.or_false, stored_contact_record contacts, Option.isSome_map]

theorem contacts_formed (distinct : Distinct contact) : ContactsFormed bitmap card where
  onlySlots physSector inside used _ := (contacts.sectors physSector inside used).slots.onlySlots
  inside slot given := by
    apply contacts.bound
    intro nothing
    rw [stored_contact_record contacts, nothing] at given
    exact given rfl
  distinct := by
    rw [stored_phone_record contacts]
    exact distinct.phones

end Represented

/-- The first scan enters all contacts of the card into the table. -/
theorem hash_reconstruct_contact_run (contacts : ContactsHold base.usageBitmap card view.contact)
    (distinct : Distinct view.contact) (fresh : ContactsBuilt base view.contact 0 base) :
    ∃ next, out hashReconstructContact base card = ((true, next), []) ∧
      ContactsBuilt base view.contact hashTableEntries next := by
  have phones : ∀ count, phonesBelow count (storedPhone base.usageBitmap card) =
      contactPhones (slotsBelow count view.contact) := by
    intro count
    rw [stored_phone_record contacts]
    funext slot
    unfold phonesBelow contactPhones slotsBelow
    split <;> rfl
  have taken : slotTaken base.usageBitmap card = fun slot => (view.contact slot).isSome :=
    funext (slot_taken_record contacts)
  have stored : (fun slot => (storedContact base.usageBitmap card slot).isSome) =
      fun slot => (view.contact slot).isSome := by
    funext slot
    rw [stored_contact_record contacts, Option.isSome_map]
  have start : ContactsEntered base card 0 base :=
    { same := rfl
      size := fresh.table.size
      table := by
        rw [phones]
        exact fresh.table.phones
      noChats := fresh.table.newest
      number := fresh.number
      free := by
        rw [taken]
        exact fresh.free }
  have scanned := @contact_scan_run _ card (fun _ => false) (contacts_formed contacts distinct) start
  rw [lossy_none] at scanned
  rcases scanned with ⟨⟨physSector, _, _, impossible⟩, _⟩ | ⟨_, next, run, entered⟩
  · cases impossible
  · refine ⟨next, run, entered.same, ?_, ?_, ?_⟩
    · have table := entered.table
      rw [phones] at table
      exact table.holds entered.size entered.noChats
    · rw [entered.number, stored]
    · have free := entered.free
      rw [taken] at free
      exact free

end Contacts

/-- The last sector below `count` that the scan takes for the head of the slot's chat. -/
def latestHead (view : View) (slot : Nat) : Nat → Nat
  | 0 => uint16Max
  | count + 1 =>
      match view.sector count with
      | none => latestHead view slot count
      | some mSector =>
          if view.sector mSector.header.next.toNat = none ∧
              mSector.header.contactIndex.toNat = slot then count
          else latestHead view slot count

/-- Only the table and the message allocator have changed since `base`, and they
know the sectors below `count`. -/
structure MessagesBuilt (base : Database) (view : View) (count : Nat) (db : Database) : Prop where
  same : db = { base with htable := db.htable, messageAllocator := db.messageAllocator }
  table : TableHolds db.htable view.contact fun slot => latestHead view slot count
  number : db.htable.numElems = base.htable.numElems
  free : FreeBelow db.messageAllocator totalMessageSectorSize count fun index =>
    (view.sector index).isSome

section Messages

variable {base db : Database} {card : Card Sector} {view : View} {count : Nat}

theorem latest_head_skip (slot : Nat) {limit : Nat} (order : count ≤ limit)
    (none_ : ∀ index, count ≤ index → index < limit → view.sector index = none) :
    latestHead view slot limit = latestHead view slot count := by
  obtain ⟨more, rfl⟩ := Nat.exists_eq_add_of_le order
  induction more with
  | zero => rfl
  | succ more ih =>
      rw [← Nat.add_assoc, latestHead, none_ (count + more) (by omega) (by omega)]
      exact ih (by omega) fun index low high => none_ index low (by omega)

theorem MessagesBuilt.bitmap (built : MessagesBuilt base view count db) :
    db.usageBitmap = base.usageBitmap := by
  rw [built.same]

theorem free_messages_run (built : MessagesBuilt base view count db) {limit : Nat}
    (order : count ≤ limit)
    (none_ : ∀ index, count ≤ index → index < limit → view.sector index = none) :
    ∃ next, out (freeMessages count limit) db card = ((PUnit.unit, next), []) ∧
      MessagesBuilt base view limit next := by
  refine ⟨_, out_modify _ _ _, ?_⟩
  refine ⟨?_, ?_, built.number, ?_⟩
  · rw [built.same]
  · have same : (fun slot => latestHead view slot limit) = fun slot => latestHead view slot count :=
      funext fun slot => latest_head_skip slot order none_
    rw [same]
    exact built.table
  · exact built.free.free_range order fun index low high => by rw [none_ index low high]; rfl

theorem is_chat_head_iff (messages : MessagesHold db.usageBitmap card view.sector)
    (mSector : MessageSector) :
    isChatHead db.usageBitmap mSector = true ↔ view.sector mSector.header.next.toNat = none := by
  unfold isChatHead
  dsimp only
  generalize mSector.header.next.toNat = next
  rw [Bool.or_eq_true, Bool.or_eq_true, decide_eq_true_eq, decide_eq_true_eq]
  by_cases inside : next < totalMessageSectorSize
  · have usage := messages.usage inside
    have notEnd : next ≠ uint16Max := by
      simp at inside ⊢
      omega
    rw [usage]
    have notPast : ¬totalMessageSectorSize ≤ next := by omega
    simp only [notEnd, notPast, false_or]
    simp
  · have none_ : view.sector next = none := by
      by_contra given
      exact inside (messages.bound next given)
    have past : totalMessageSectorSize ≤ next := by omega
    simp only [past, none_, or_true, true_or]

theorem scanned_phone (identity : Identity) :
    ((List.ofFn identity.record.phone).take
      (min identity.record.phoneLen.toNat maxPhoneLen)).takeWhile (· ≠ 0#8) = identity.phone := by
  have short := identity.phoneShort
  have length : min identity.record.phoneLen.toNat maxPhoneLen = identity.phone.length := by
    rw [record_phoneLen]
    simp
    omega
  rw [length, record_phone_take, List.takeWhile_eq_self_iff]
  exact fun character member => by simpa using identity.phoneText character member

section Scan

variable (contacts : ContactsHold base.usageBitmap card view.contact)
  (messages : MessagesHold base.usageBitmap card view.sector)
  (distinct : Distinct view.contact)
  (owners : ∀ index mSector, view.sector index = some mSector →
    view.contact mSector.header.contactIndex.toNat ≠ none)

include contacts messages distinct owners

omit messages in
theorem insert_message_run (built : MessagesBuilt base view count db) {mSector : MessageSector}
    (stored : view.sector count = some mSector)
    (free : FreeBelow db.messageAllocator totalMessageSectorSize (count + 1) fun index =>
      (view.sector index).isSome)
    (head : view.sector mSector.header.next.toNat = none) :
    ∃ next, out (insertMessageFromSector mSector count) db card = ((.strgOk, next), []) ∧
      MessagesBuilt base view (count + 1) next := by
  obtain ⟨identity, owner⟩ := Option.ne_none_iff_exists'.mp (owners count mSector stored)
  obtain ⟨slot, occupied, place⟩ := built.table.placed mSector.header.contactIndex.toNat
    (by rw [owner]; exact Option.some_ne_none _)
  have reads : ContactsHold db.usageBitmap card view.contact := by
    rw [built.bitmap]
    exact contacts
  have bound := contacts.bound _ (by rw [owner]; exact Option.some_ne_none identity)
  have read := out_readContact reads bound
  rw [owner] at read
  have find := find_present built.table reads distinct occupied (by rw [place]; exact owner)
  have keep : ¬((db.htable.htable slot).state ≠ .occupied ∨
      (db.htable.htable slot).sector ≠ mSector.header.contactIndex.toNat) := by
    rw [occupied, place]
    simp
  refine ⟨{ db with
    htable := db.htable.setEntry slot { db.htable.htable slot with latestMsgExtent := count } },
    ?_, ?_⟩
  · have logEq : ([] : WriteLog Sector) = [] ++ ([] ++ ([] ++ ([] ++ []))) := rfl
    unfold insertMessageFromSector
    rw [logEq]
    refine out_bind_both read ?_
    simp only [scanned_phone]
    refine out_bind_both find (out_bind_both (out_get _ _) ?_)
    simp only [if_neg keep]
    exact out_bind_both (out_modify _ _ _) rfl
  · have latest : (fun slot => latestHead view slot (count + 1)) =
        Function.update (fun slot => latestHead view slot count) (db.htable.htable slot).sector
          count := by
      funext other
      rw [latestHead, stored, place]
      by_cases same : other = mSector.header.contactIndex.toNat
      · rw [same, Function.update_self]
        exact if_pos ⟨head, rfl⟩
      · rw [Function.update_of_ne same]
        exact if_neg fun both => same both.2.symm
    refine ⟨?_, ?_, built.number, free⟩
    · rw [built.same]
    · rw [latest]
      exact built.table.setLatest occupied count

theorem scan_message_run (built : MessagesBuilt base view count db) {mSector : MessageSector}
    (stored : view.sector count = some mSector) (atEnd : Prop) [Decidable atEnd] (after : Nat)
    (rest : DbM (Option Nat)) :
    ∃ next,
      out (do
        let proceed ← match ← readMessageSector count with
          | .error ret => pure (ret ≠ .strgFail : Bool)
          | .ok content => do
              let mSector : MessageSector := ofSector content
              if isChatHead (← get).usageBitmap mSector then
                pure ((← insertMessageFromSector mSector count) ≠ .strgFail : Bool)
              else pure true
        if !proceed then
          return none
        if atEnd then
          return some after
        rest) db card =
      out (if atEnd then pure (some after) else rest) next card ∧
      MessagesBuilt base view (count + 1) next := by
  have reads : MessagesHold db.usageBitmap card view.sector := by
    rw [built.bitmap]
    exact messages
  have content := (messages.sectors count mSector stored).2
  have passed : FreeBelow db.messageAllocator totalMessageSectorSize (count + 1) fun index =>
      (view.sector index).isSome := built.free.skip (by rw [stored]; rfl)
  have headIff := is_chat_head_iff reads mSector
  by_cases head : view.sector mSector.header.next.toNat = none
  · obtain ⟨next, run, done⟩ := @insert_message_run _ _ card _ _ contacts distinct owners
      built _ stored passed head
    refine ⟨next, ?_, done⟩
    rw [out_bind_of (out_readMessageSector_stored reads stored)]
    simp only [content, apply_writes_nil, List.nil_append]
    rw [out_bind_of (out_get _ _)]
    simp only [headIff.mpr head, if_true, apply_writes_nil, List.nil_append]
    rw [out_bind_of run]
    simp only [apply_writes_nil, List.nil_append]
    rw [out_bind_of (out_pure _ _ _)]
    simp
  · refine ⟨db, ?_, built.same, ?_, built.number, passed⟩
    · have noHead : isChatHead db.usageBitmap mSector = false := by
        rw [← Bool.not_eq_true, headIff]
        exact head
      rw [out_bind_of (out_readMessageSector_stored reads stored)]
      simp only [content, apply_writes_nil, List.nil_append]
      rw [out_bind_of (out_get _ _)]
      simp only [noHead, apply_writes_nil, List.nil_append]
      rw [if_neg Bool.false_ne_true, out_bind_of (out_pure _ _ _)]
      simp
    · have same : (fun slot => latestHead view slot (count + 1)) =
          fun slot => latestHead view slot count := by
        funext slot
        rw [latestHead, stored]
        exact if_neg fun both => head both.1
      rw [same]
      exact built.table

omit contacts distinct owners in
theorem next_message_sector (bits : BitmapHolds base.usageBitmap card) :
    (∃ index mSector, getNextBit base.usageBitmap (messageDataSector count)
        (messageDataSector (totalMessageSectorSize - 1)) = messageDataSector index ∧
      view.sector index = some mSector ∧ count ≤ index ∧
      ∀ other, count ≤ other → other < index → view.sector other = none) ∨
    (getNextBit base.usageBitmap (messageDataSector count)
        (messageDataSector (totalMessageSectorSize - 1)) = uint16Max ∧
      ∀ other, count ≤ other → view.sector other = none) := by
  have last : messageDataSector (totalMessageSectorSize - 1) = 30252 := rfl
  have start : messageDataSector count = 1667 + count := rfl
  have unused : ∀ other, other < totalMessageSectorSize →
      usageBit base.usageBitmap (1667 + other) = false → view.sector other = none := by
    intro other inside clear
    have used : usageBit base.usageBitmap (1667 + other) = (view.sector other).isSome :=
      messages.used other inside
    rw [clear] at used
    simpa using used.symm
  rw [last, start]
  rcases get_next_bit_spec base.usageBitmap (1667 + count) 30252 with
    ⟨dataSector, result, used, low, high, least⟩ | ⟨result, none_⟩
  · left
    have region : dataSector < 32512 := by
      simp at high
      omega
    have bound : dataSector < 30253 := by
      by_contra above
      rw [bits.beyond dataSector (by simp; omega) (by simp; omega)] at used
      cases used
    have inside : dataSector - 1667 < totalMessageSectorSize := by
      simp
      omega
    have place : 1667 + (dataSector - 1667) = dataSector := by omega
    have stored : usageBit base.usageBitmap (1667 + (dataSector - 1667)) =
        (view.sector (dataSector - 1667)).isSome := messages.used _ inside
    rw [place, used] at stored
    obtain ⟨mSector, found⟩ := Option.isSome_iff_exists.mp stored.symm
    refine ⟨dataSector - 1667, mSector, ?_, found, by omega, fun other above below => ?_⟩
    · rw [result, u16_of_lt (by omega)]
      exact place.symm
    · refine unused other (by omega) ?_
      by_contra set
      have := least (1667 + other) (by simpa using set) (by omega)
      omega
  · right
    refine ⟨result, fun other above => ?_⟩
    by_cases inside : other < totalMessageSectorSize
    · refine unused other inside (none_ _ (by omega) ?_)
      simp at inside ⊢
      omega
    · by_contra given
      exact inside (messages.bound other given)

theorem reconstruct_messages_run (bits : BitmapHolds base.usageBitmap card) (fuel : Nat)
    (built : MessagesBuilt base view count db) (short : count ≤ totalMessageSectorSize)
    (enough : totalMessageSectorSize ≤ count + fuel) :
    ∃ next after, out (reconstructMessages fuel (getNextBit base.usageBitmap
        (messageDataSector count) (messageDataSector (totalMessageSectorSize - 1))) count) db card =
        ((some after, next), []) ∧
      MessagesBuilt base view after next ∧ after ≤ totalMessageSectorSize ∧
      ∀ index, after ≤ index → view.sector index = none := by
  induction fuel generalizing count db with
  | zero =>
      refine ⟨db, count, rfl, built, short, fun index above => ?_⟩
      by_contra given
      exact absurd (messages.bound index given) (by omega)
  | succ fuel ih =>
      unfold reconstructMessages
      rcases @next_message_sector _ _ _ count messages bits with
        ⟨index, mSector, result, stored, low, none_⟩ | ⟨result, none_⟩
      · have inside := messages.bound index (by rw [stored]; exact Option.some_ne_none _)
        have size : totalMessageSectorSize = 28586 := rfl
        rw [size] at inside enough
        have goes : ¬(messageDataSector index = uint16Max ∨
            messageDataSector (totalMessageSectorSize - 1) < messageDataSector index) := by
          simp
          omega
        have back : u16 (messageDataSector index - messageDataStartSector) = index := by
          simp
          exact u16_of_lt (by omega)
        have step : u16 (index + 1) = index + 1 := u16_of_lt (by omega)
        obtain ⟨middle, freed, builtMiddle⟩ := @free_messages_run _ _ card _ _ built index low none_
        obtain ⟨next, run, builtNext⟩ := @scan_message_run _ _ _ _ _ contacts messages distinct
          owners builtMiddle _ stored (messageDataSector index =
            messageDataSector (totalMessageSectorSize - 1)) _ (u16 (index + 1)) (do
            reconstructMessages fuel (getNextBit (← get).usageBitmap
              (u16 (messageDataSector index + 1))
              (messageDataSector (totalMessageSectorSize - 1))) (u16 (index + 1)))
        have finish : ∃ last after, out (if messageDataSector index =
            messageDataSector (totalMessageSectorSize - 1) then pure (some (u16 (index + 1))) else do
              reconstructMessages fuel (getNextBit (← get).usageBitmap
                (u16 (messageDataSector index + 1))
                (messageDataSector (totalMessageSectorSize - 1))) (u16 (index + 1))) next card =
            ((some after, last), []) ∧
          MessagesBuilt base view after last ∧ after ≤ totalMessageSectorSize ∧
            ∀ other, after ≤ other → view.sector other = none := by
          rw [step]
          by_cases atEnd : messageDataSector index = messageDataSector (totalMessageSectorSize - 1)
          · rw [if_pos atEnd]
            have last : index = 28585 := by
              simp at atEnd
              omega
            refine ⟨next, index + 1, rfl, builtNext, by rw [size]; omega, fun other above => ?_⟩
            by_contra given
            have bound := messages.bound other given
            rw [size] at bound
            omega
          · have further : u16 (messageDataSector index + 1) = messageDataSector (index + 1) := by
              simp
              rw [u16_of_lt (by omega)]
              omega
            obtain ⟨last, after, later, done⟩ := ih builtNext (by rw [size]; omega)
              (by rw [size]; omega)
            refine ⟨last, after, ?_, done⟩
            rw [if_neg atEnd, out_bind_of (out_get _ _)]
            simp only [apply_writes_nil, List.nil_append, builtNext.bitmap, further]
            exact later
        obtain ⟨last, after, later, done⟩ := finish
        refine ⟨last, after, ?_, done⟩
        have logEq : ([] : WriteLog Sector) = [] ++ [] := rfl
        rw [result, if_neg goes, back, logEq]
        exact out_bind_both freed (run.trans later)
      · refine ⟨db, count, ?_, built, short, none_⟩
        rw [result, if_pos (Or.inl rfl)]
        rfl

theorem hash_reconstruct_message_run (bits : BitmapHolds base.usageBitmap card)
    (fresh : MessagesBuilt base view 0 base) :
    ∃ next, out hashReconstructMessage base card = ((true, next), []) ∧
      MessagesBuilt base view totalMessageSectorSize next := by
  obtain ⟨middle, after, run, built, short, none_⟩ := reconstruct_messages_run contacts messages
    distinct owners bits (totalMessageSectorSize + 1) fresh (Nat.zero_le _) (by omega)
  obtain ⟨next, freed, done⟩ := @free_messages_run _ _ card _ _ built _ short
    fun index above _ => none_ index above
  refine ⟨next, ?_, done⟩
  have logEq : ([] : WriteLog Sector) = [] ++ ([] ++ ([] ++ [])) := rfl
  unfold hashReconstructMessage
  rw [logEq]
  exact out_bind_both (out_get _ _) (out_bind_both run (out_bind_both freed rfl))

end Scan

end Messages

end SdDatabase
