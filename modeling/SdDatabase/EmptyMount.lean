import SdDatabase.MessageRebuild
import SdDatabase.Remount
import SdDatabase.Run
import Mathlib.Data.Finset.Card

/-!
# Mounting a card without contacts

A start-up on a card on which no contact is in use removes every chat it finds,
however much of the chats is left, and ends with an empty phone book. Only the two
histories are as the card has them.
-/

namespace SdDatabase

open Bytes Device

set_option autoImplicit false

def usedMessages (bitmap : UsageBitmap) : Finset Nat :=
  (Finset.range totalMessageSectorSize).filter fun index =>
    usageBit bitmap (messageDataSector index) = true

theorem mem_used_messages {bitmap : UsageBitmap} {index : Nat} :
    index ∈ usedMessages bitmap ↔
      index < totalMessageSectorSize ∧ usageBit bitmap (messageDataSector index) = true := by
  rw [usedMessages, Finset.mem_filter, Finset.mem_range]

theorem used_messages_few (bitmap : UsageBitmap) :
    (usedMessages bitmap).card ≤ totalMessageSectorSize := by
  have few := Finset.card_filter_le (Finset.range totalMessageSectorSize) fun index =>
    usageBit bitmap (messageDataSector index) = true
  rwa [Finset.card_range] at few

/-- No contact is in use, and the message sectors in use name a contact slot and, before
them, a message sector or none. -/
structure Stray (bitmap : UsageBitmap) (card : Card Sector) : Prop where
  contacts : ∀ physSector < totalContactSectorSize, usageBit bitmap physSector = false
  owner : ∀ index ∈ usedMessages bitmap,
    (ofSector (card (messageRaw index)) : MessageSector).header.contactIndex.toNat <
      hashTableEntries
  prev : ∀ index ∈ usedMessages bitmap,
    messagePrev card index = uint16Max ∨ messagePrev card index < totalMessageSectorSize

/-- Sectors were freed, and the journal was used for it. -/
structure OnlyFreed (before after : Database) : Prop where
  same : after = { before with
    journal := after.journal
    usageBitmap := after.usageBitmap
    messageAllocator := after.messageAllocator }
  fewer : ∀ dataSector, usageBit after.usageBitmap dataSector = true →
    usageBit before.usageBitmap dataSector = true

theorem OnlyFreed.refl (db : Database) : OnlyFreed db db := ⟨rfl, fun _ used => used⟩

theorem OnlyFreed.trans {first second third : Database} (left : OnlyFreed first second)
    (right : OnlyFreed second third) : OnlyFreed first third where
  same := by
    rw [right.same, left.same]
  fewer dataSector used := left.fewer dataSector (right.fewer dataSector used)

/-- Only the journal and the bitmap differ. -/
def SameAbove (first second : Card Sector) : Prop := ∀ raw, 12 ≤ raw → second raw = first raw

theorem SameAbove.trans {first second third : Card Sector} (left : SameAbove first second)
    (right : SameAbove second third) : SameAbove first third :=
  fun raw high => (right raw high).trans (left raw high)

theorem Stray.freed {before after : Database} {card later : Card Sector}
    (stray : Stray before.usageBitmap card) (freed : OnlyFreed before after)
    (same : SameAbove card later) : Stray after.usageBitmap later := by
  have still : ∀ index ∈ usedMessages after.usageBitmap,
      index ∈ usedMessages before.usageBitmap := by
    intro index member
    obtain ⟨inside, used⟩ := mem_used_messages.mp member
    exact mem_used_messages.mpr ⟨inside, freed.fewer _ used⟩
  have content : ∀ index, later (messageRaw index) = card (messageRaw index) := by
    intro index
    apply same
    simp only [messageRaw]
    omega
  constructor
  · intro physSector inside
    have unused := stray.contacts physSector inside
    by_contra used
    rw [Bool.not_eq_false] at used
    rw [freed.fewer _ used] at unused
    cases unused
  · intro index member
    rw [content]
    exact stray.owner index (still index member)
  · intro index member
    rw [messagePrev, content]
    exact stray.prev index (still index member)

section Orphans

variable {db : Database} {card : Card Sector}

theorem bit_removed_freed (index : Nat) : OnlyFreed db (bitRemoved db index) where
  same := rfl
  fewer dataSector used := by
    rw [bit_removed_usage, Function.update_apply] at used
    split at used
    · cases used
    · exact used

theorem bit_removed_fewer {index : Nat} (member : index ∈ usedMessages db.usageBitmap) :
    (usedMessages (bitRemoved db index).usageBitmap).card < (usedMessages db.usageBitmap).card := by
  apply Finset.card_lt_card
  apply (Finset.ssubset_iff_of_subset ?_).mpr
  · refine ⟨index, member, fun still => ?_⟩
    have used := (mem_used_messages.mp still).2
    rw [bit_removed_usage, Function.update_self] at used
    cases used
  · intro other still
    obtain ⟨inside, used⟩ := mem_used_messages.mp still
    exact mem_used_messages.mpr ⟨inside, (bit_removed_freed index).fewer _ used⟩

theorem remove_stray_run (startIndex jumpsLeft curr : Nat) (stray : Stray db.usageBitmap card)
    (inside : curr = uint16Max ∨ curr < totalMessageSectorSize)
    (enough : (usedMessages db.usageBitmap).card < jumpsLeft) :
    ∃ ret next log, out (removeOrphanedFrom startIndex jumpsLeft curr) db card =
        ((ret, next), log) ∧ ret ≠ .strgFail ∧ OnlyFreed db next ∧
      SameAbove card (applyWrites log card) := by
  induction jumpsLeft generalizing curr db card with
  | zero => exact absurd enough (Nat.not_lt_zero _)
  | succ jumpsLeft ih =>
      have stays : ∀ ret : StrgRet, ret ≠ .strgFail → ∃ last next log,
          ((ret, db), ([] : WriteLog Sector)) = ((last, next), log) ∧ last ≠ .strgFail ∧
            OnlyFreed db next ∧ SameAbove card (applyWrites log card) :=
        fun ret fine => ⟨ret, db, [], rfl, fine, .refl db, fun _ _ => rfl⟩
      unfold removeOrphanedFrom
      by_cases ends : curr = uint16Max
      · rw [if_pos ends]
        exact stays _ (by decide)
      · have bound := inside.resolve_left ends
        rw [if_neg ends, out_bind, out_checkUsageBit, message_narrow bound]
        cases used : usageBit db.usageBitmap (messageDataSector curr) with
        | false => exact stays _ (by decide)
        | true =>
            simp only [Bool.not_true, Bool.false_eq_true, if_false, apply_writes_nil,
              List.nil_append]
            have member := mem_used_messages.mpr ⟨bound, used⟩
            have read := out_readMessageSector db card bound
            cases valid : sectorCrcValid (card (messageRaw curr)) with
            | false =>
                rw [valid] at read
                rw [out_bind_of read]
                exact stays _ (by decide)
            | true =>
                rw [valid] at read
                rw [out_bind_of read]
                simp only [if_true, apply_writes_nil, List.nil_append]
                rw [out_bind_of (out_removeMessageBit db card bound)]
                simp only [ne_eq, not_true_eq_false, if_false]
                have fewer := bit_removed_fewer member
                have above : SameAbove card
                    (applyWrites (bitRemovalLog db.usageBitmap curr) card) :=
                  fun raw high => bit_removal_low db card bound raw high
                have more : jumpsLeft ≠ 0 := by
                  have some_ := Finset.card_pos.mpr ⟨curr, member⟩
                  omega
                have step : ∀ middle : Database, middle.usageBitmap =
                    (bitRemoved db curr).usageBitmap → OnlyFreed db middle →
                    ∃ ret next log, out (if jumpsLeft = 0 then pure .strgFail
                        else removeOrphanedFrom startIndex jumpsLeft
                          (ofSector (card (messageRaw curr)) : MessageSector).header.prev.toNat)
                        middle (applyWrites (bitRemovalLog db.usageBitmap curr) card) =
                          ((ret, next), log) ∧ ret ≠ .strgFail ∧ OnlyFreed db next ∧
                      SameAbove card (applyWrites log
                        (applyWrites (bitRemovalLog db.usageBitmap curr) card)) := by
                  intro middle bits freed
                  rw [if_neg more]
                  obtain ⟨ret, next, log, run, fine, later, same⟩ :=
                    @ih middle _ _ (stray.freed freed above) (stray.prev curr member)
                      (by rw [bits]; omega)
                  exact ⟨ret, next, log, run, fine, freed.trans later, above.trans same⟩
                by_cases behind : curr ≤ startIndex
                · obtain ⟨ret, next, log, run, fine, freed, same⟩ := step
                    { bitRemoved db curr with
                      messageAllocator := freeListFree db.messageAllocator curr } rfl
                    ⟨rfl, (bit_removed_freed curr).fewer⟩
                  refine ⟨ret, next, bitRemovalLog db.usageBitmap curr ++ log, ?_, fine, freed, ?_⟩
                  · rw [if_pos behind, out_bind_of (out_modify _ _ _)]
                    exact congrArg (fun outcome =>
                      (outcome.1, bitRemovalLog db.usageBitmap curr ++ ([] ++ outcome.2))) run
                  · rw [apply_writes_append]
                    exact same
                · obtain ⟨ret, next, log, run, fine, freed, same⟩ :=
                    step (bitRemoved db curr) rfl (bit_removed_freed curr)
                  refine ⟨ret, next, bitRemovalLog db.usageBitmap curr ++ log, ?_, fine, freed, ?_⟩
                  · rw [if_neg behind, run]
                  · rw [apply_writes_append]
                    exact same

theorem out_readContact_stray (stray : Stray db.usageBitmap card) {slot : Nat}
    (bound : slot < hashTableEntries) :
    out (readContact slot) db card = ((.error .strgEmpty, db), []) := by
  have unused := stray.contacts _ (slot_sector_bound bound)
  unfold readContact
  rw [out_bind, out_checkUsageBit, slot_narrow bound, unused]
  rfl

theorem insert_stray_run (stray : Stray db.usageBitmap card) {index : Nat}
    (member : index ∈ usedMessages db.usageBitmap) :
    ∃ ret next log, out (insertMessageFromSector (ofSector (card (messageRaw index))) index)
        db card = ((ret, next), log) ∧ ret ≠ .strgFail ∧ OnlyFreed db next ∧
      SameAbove card (applyWrites log card) := by
  have few := used_messages_few db.usageBitmap
  have bound := (mem_used_messages.mp member).1
  obtain ⟨ret, next, log, run, fine, freed, same⟩ := remove_stray_run index
    (totalMessageSectorSize + 1) index stray (Or.inr bound) (by omega)
  unfold insertMessageFromSector
  dsimp only
  rw [out_bind_of (out_readContact_stray stray (stray.owner index member))]
  refine ⟨if ret = .strgOk then .strgEmpty else ret, next, log, ?_, ?_, freed, same⟩
  · have removed : out (do
        let ret ← removeOrphanedMessageChat index
        return if ret = .strgOk then .strgEmpty else ret : DbM StrgRet) db card =
        ((if ret = .strgOk then .strgEmpty else ret, next), log ++ []) := out_bind_both run rfl
    rw [List.append_nil] at removed
    exact removed
  · split
    · decide
    · exact fine

theorem scan_stray_run (stray : Stray db.usageBitmap card) {index : Nat}
    (member : index ∈ usedMessages db.usageBitmap) (atEnd : Prop) [Decidable atEnd] (after : Nat)
    (rest : DbM (Option Nat)) :
    ∃ (next : Database) (log : WriteLog Sector),
      out (do
        let proceed ← match ← readMessageSector index with
          | .error ret => pure (ret ≠ .strgFail : Bool)
          | .ok content => do
              let mSector : MessageSector := ofSector content
              if isChatHead (← get).usageBitmap mSector then
                pure ((← insertMessageFromSector mSector index) ≠ .strgFail : Bool)
              else pure true
        if !proceed then
          return none
        if atEnd then
          return some after
        rest) db card =
      ((out (if atEnd then pure (some after) else rest) next (applyWrites log card)).1,
        log ++ (out (if atEnd then pure (some after) else rest) next (applyWrites log card)).2) ∧
      OnlyFreed db next ∧ SameAbove card (applyWrites log card) := by
  have read := out_readMessageSector db card (mem_used_messages.mp member).1
  cases valid : sectorCrcValid (card (messageRaw index)) with
  | false =>
      rw [valid] at read
      refine ⟨db, [], ?_, .refl db, fun _ _ => rfl⟩
      rw [out_bind_of read]
      rfl
  | true =>
      rw [valid] at read
      cases head : isChatHead db.usageBitmap (ofSector (card (messageRaw index))) with
      | false =>
          refine ⟨db, [], ?_, .refl db, fun _ _ => rfl⟩
          rw [out_bind_of read]
          simp only [if_true, apply_writes_nil, List.nil_append]
          rw [out_bind_of (out_get _ _), head]
          rfl
      | true =>
          obtain ⟨ret, next, log, run, fine, freed, same⟩ := insert_stray_run stray member
          refine ⟨next, log, ?_, freed, same⟩
          rw [out_bind_of read]
          simp only [if_true, apply_writes_nil, List.nil_append]
          rw [out_bind_of (out_get _ _), head]
          simp only [if_true, apply_writes_nil, List.nil_append]
          rw [out_bind_of run]
          cases ret <;> first | exact absurd rfl fine | rfl

/-- The scan over the message sectors never fails and enters nothing into the table. -/
theorem scan_strays_run (fuel count : Nat) (stray : Stray db.usageBitmap card) :
    ∃ answer next log, out (reconstructMessages fuel (getNextBit db.usageBitmap
        (messageDataSector count) (messageDataSector (totalMessageSectorSize - 1))) count) db card =
        ((some answer, next), log) ∧ OnlyFreed db next ∧ SameAbove card (applyWrites log card) := by
  induction fuel generalizing count db card with
  | zero => exact ⟨_, db, [], rfl, .refl db, fun _ _ => rfl⟩
  | succ fuel ih =>
      unfold reconstructMessages
      rcases next_used_message db.usageBitmap count with
        ⟨index, _, inside, result, used, _⟩ | ⟨result, _⟩
      · have small := inside
        have size : totalMessageSectorSize = 28586 := rfl
        rw [size] at small
        have goes : ¬(messageDataSector index = uint16Max ∨
            messageDataSector (totalMessageSectorSize - 1) < messageDataSector index) := by
          simp
          omega
        have back : u16 (messageDataSector index - messageDataStartSector) = index := by
          simp
          exact u16_of_lt (by omega)
        have freed : OnlyFreed db { db with
            messageAllocator := freeListFreeRange db.messageAllocator count index } :=
          ⟨rfl, fun _ still => still⟩
        have member := mem_used_messages.mpr ⟨inside, used⟩
        obtain ⟨next, log, run, scanned, same⟩ :=
          scan_stray_run (stray.freed freed fun _ _ => rfl) member
            (messageDataSector index = messageDataSector (totalMessageSectorSize - 1))
            (u16 (index + 1)) (do
              reconstructMessages fuel (getNextBit (← get).usageBitmap
                (u16 (messageDataSector index + 1))
                (messageDataSector (totalMessageSectorSize - 1))) (u16 (index + 1)))
        have further : u16 (messageDataSector index + 1) = messageDataSector (index + 1) := by
          simp
          rw [u16_of_lt (by omega)]
          omega
        rw [result, if_neg goes, back]
        obtain ⟨answer, last, more, rest, left, above⟩ : ∃ answer last more,
            out (if messageDataSector index = messageDataSector (totalMessageSectorSize - 1) then
                pure (some (u16 (index + 1)))
              else do
                reconstructMessages fuel (getNextBit (← get).usageBitmap
                  (u16 (messageDataSector index + 1))
                  (messageDataSector (totalMessageSectorSize - 1))) (u16 (index + 1)))
              next (applyWrites log card) = ((some answer, last), more) ∧ OnlyFreed next last ∧
            SameAbove (applyWrites log card) (applyWrites more (applyWrites log card)) := by
          split
          · exact ⟨_, next, [], rfl, .refl next, fun _ _ => rfl⟩
          · have step : u16 (index + 1) = index + 1 := u16_of_lt (by omega)
            rw [out_bind_of (out_get _ _), further, step]
            exact ih (index + 1) (stray.freed (freed.trans scanned) same)
        refine ⟨answer, last, log ++ more, ?_, (freed.trans scanned).trans left, ?_⟩
        · refine (out_bind_of (out_freeMessages count index db card)).trans ?_
          refine (congrArg (fun outcome => (outcome.1, [] ++ outcome.2)) run).trans ?_
          rw [rest]
          rfl
        · rw [apply_writes_append]
          exact same.trans above
      · rw [if_pos result]
        exact ⟨count, db, [], rfl, .refl db, fun _ _ => rfl⟩

end Orphans

theorem hash_reconstruct_stray_run {db : Database} {card : Card Sector}
    (stray : Stray db.usageBitmap card) :
    ∃ next log, out hashReconstructMessage db card = ((true, next), log) ∧ OnlyFreed db next ∧
      SameAbove card (applyWrites log card) := by
  obtain ⟨answer, next, log, run, freed, same⟩ :=
    scan_strays_run (totalMessageSectorSize + 1) 0 stray
  refine ⟨{ next with
    messageAllocator := freeListFreeRange next.messageAllocator answer totalMessageSectorSize },
    log, ?_, freed.trans ⟨rfl, fun _ still => still⟩, same⟩
  have logEq : log = [] ++ (log ++ ([] ++ [])) := by simp
  rw [logEq]
  unfold hashReconstructMessage
  exact out_bind_both (out_get _ _) (out_bind_both run
    (out_bind_both (out_freeMessages _ _ _ _) (out_pure _ _ _)))

/-- A phone book without people, in memory. -/
structure NoPeople (db : Database) : Prop where
  table : ∃ latest, TableHolds db.htable blankView.contact latest
  unused : ∀ physSector < totalContactSectorSize, usageBit db.usageBitmap physSector = false
  number : db.htable.numElems = 0
  names : db.nameIndex.mem = []
  order : db.chatOrder.mem = []

/-- What a start-up needs of a card to find nobody on it, and the rings that it finds. -/
structure BareCard (card : Card Sector) (messages calls : RingBuffer) : Prop where
  good : getSuperheaderStatus (card superheaderSector) = .good
  idle : JournalIdle card
  stamped : ∀ sector < usageBitmapSectorSize,
    sectorCrcValid (card (usageBitmapStartSector + sector)) = true
  stray : ∀ bitmap, Stray (loadedBitmap card (List.range usageBitmapSectorSize) bitmap) card
  messageRing : ∀ rb db later, SameAbove card later →
    out (initRingBuffer rb totalMessageHistorySectorSize
      (dataSectorToRaw messageHistoryDataStartSector)) db later = ((some messages, db), [])
  callRing : ∀ rb db later, SameAbove card later →
    out (initRingBuffer rb totalCallHistorySectorSize
      (dataSectorToRaw callHistoryDataStartSector)) db later = ((some calls, db), [])

section Mount

variable {card : Card Sector} {messages calls : RingBuffer}

theorem no_contacts_hold {bitmap : UsageBitmap}
    (unused : ∀ physSector < totalContactSectorSize, usageBit bitmap physSector = false) :
    ContactsHold bitmap card blankView.contact where
  bound _ given := absurd rfl given
  used physSector inside := by
    rw [unused physSector inside]
    simp [blankView]
  sectors physSector inside used := by
    rw [unused physSector inside] at used
    cases used

theorem blank_distinct : Distinct blankView.contact := by
  intro _ _ _ _ stored
  cases stored

theorem build_nothing_run {db : Database} (contacts : ContactsHold db.usageBitmap card
      blankView.contact)
    (table : TableHolds db.htable blankView.contact fun _ => uint16Max) :
    out chatOrderBuild db card = ((.strgOk, { db with chatOrder := ⟨[]⟩ }), []) ∧
      out sortedArrayBuild db card = ((.strgOk, { db with nameIndex := ⟨[]⟩ }), []) := by
  have free : ∀ slot, (db.htable.htable slot).state ≠ .occupied := by
    intro slot occupied
    obtain ⟨identity, entry⟩ := table.entry slot occupied
    cases entry.stored
  constructor
  · have none_ : (List.range hashTableSize).filter (hasChat db.htable) = [] := by
      rw [List.filter_eq_nil_iff]
      intro slot _ listed
      exact free slot (has_chat_iff.mp listed).1
    obtain ⟨order, perm, _, run⟩ := @out_chatOrderBuild db card (fun _ => .zero)
      (fun slot member => by rw [none_] at member; cases member)
      (by rw [none_]; exact Nat.zero_le _)
    rw [none_] at perm
    rw [run, perm.eq_nil]
  · obtain ⟨listing, run, names⟩ :=
      @sorted_array_build_run db card blankView _ table contacts blank_distinct
    have none_ : listing = [] := by
      apply List.eq_nil_iff_forall_not_mem.mpr
      rintro ⟨slot, identity⟩ member
      exact free slot (contact_at_some ((names.listed slot identity).mp member)).1
    rw [run, none_]
    rfl

theorem out_historyInit_bare (bare : BareCard card messages calls) {later : Card Sector}
    (same : SameAbove card later) (db : Database) :
    out historyInit db later =
      ((.strgOk, { db with messageHistory := messages, callHistory := calls }), []) := by
  have logEq : ([] : WriteLog Sector) = [] ++ ([] ++ ([] ++ ([] ++ ([] ++ ([] ++ []))))) := rfl
  unfold historyInit
  rw [logEq]
  exact out_bind_both (out_get _ _) (out_bind_both (bare.messageRing _ _ _ same)
    (out_bind_both (out_modify _ _ _) (out_bind_both (out_get _ _)
      (out_bind_both (bare.callRing _ _ _ same) (out_bind_both (out_modify _ _ _) rfl)))))

theorem database_rebuild_bare (bare : BareCard card messages calls) (db : Database) :
    ∃ next log, out databaseRebuild db card = ((.strgOk, next), log) ∧ NoPeople next ∧
      next.messageHistory = messages ∧ next.callHistory = calls ∧
      SameAbove card (applyWrites log card) := by
  obtain ⟨base, baseEq⟩ : ∃ base : Database, base =
      { db with
        contactAllocator := ⟨[], hashTableEntries, hashTableEntries⟩
        messageAllocator := ⟨[], totalMessageSectorSize, totalMessageSectorSize⟩
        htable := hashInit hashTableSize
        usageBitmap := loadedBitmap card (List.range usageBitmapSectorSize) db.usageBitmap } :=
    ⟨_, rfl⟩
  have stray : Stray base.usageBitmap card := by
    rw [baseEq]
    exact bare.stray _
  have loadRun : out readUsageBitmap
      { db with
        contactAllocator := ⟨[], hashTableEntries, hashTableEntries⟩
        messageAllocator := ⟨[], totalMessageSectorSize, totalMessageSectorSize⟩
        htable := hashInit hashTableSize } card = ((true, base), []) := by
    have valid : ((List.range usageBitmapSectorSize).all fun sector => sectorCrcValid
        (bitmapSector (loadedBitmap card (List.range usageBitmapSectorSize) db.usageBitmap)
          sector)) = true := by
      rw [List.all_eq_true]
      intro sector member
      rw [loaded_sector _ _ _ (Or.inl member)]
      exact bare.stamped sector (List.mem_range.mp member)
    have logEq : ([] : WriteLog Sector) = [] ++ ([] ++ []) := rfl
    unfold readUsageBitmap
    rw [logEq]
    refine out_bind_both (out_readBitmapSectors _ _ _) ?_
    simp only [if_true]
    refine out_bind_both (out_get _ _) ?_
    simp only [valid]
    rw [baseEq]
    rfl
  have fresh : ContactsBuilt base blankView.contact 0 base := by
    refine ⟨rfl, ?_, ?_, ?_⟩
    · rw [baseEq]
      exact hash_init_holds fun slot => if_neg (Nat.not_lt_zero _)
    · rw [baseEq]
      rfl
    · rw [baseEq]
      exact free_below_start _ _ _
  obtain ⟨second, contactRun, built⟩ :=
    @hash_reconstruct_contact_run base card blankView (no_contacts_hold stray.contacts)
      blank_distinct fresh
  have secondStray : Stray second.usageBitmap card := by
    rw [built.same]
    exact stray
  have secondTable : TableHolds second.htable blankView.contact fun _ => uint16Max := by
    have table := built.table
    rwa [@slots_below_all blankView.contact fun slot given => absurd rfl given] at table
  obtain ⟨third, log, messageRun, freed, same⟩ := hash_reconstruct_stray_run secondStray
  have thirdStray := secondStray.freed freed same
  have tableEq : third.htable = second.htable := by rw [freed.same]
  have thirdTable : TableHolds third.htable blankView.contact fun _ => uint16Max := by
    rw [tableEq]
    exact secondTable
  obtain ⟨orderRun, _⟩ := build_nothing_run (no_contacts_hold thirdStray.contacts) thirdTable
  obtain ⟨_, namesRun⟩ := @build_nothing_run _ { third with chatOrder := ⟨[]⟩ }
    (no_contacts_hold thirdStray.contacts) thirdTable
  have historyRun := out_historyInit_bare bare same
    { third with chatOrder := ⟨[]⟩, nameIndex := ⟨[]⟩ }
  refine ⟨{ third with
    chatOrder := ⟨[]⟩
    nameIndex := ⟨[]⟩
    messageHistory := messages
    callHistory := calls }, log, ?_, ⟨⟨_, thirdTable⟩, thirdStray.contacts, ?_, rfl, rfl⟩, rfl, rfl,
    same⟩
  · have logEq : log = [] ++ ([] ++ ([] ++ (log ++ ([] ++ ([] ++ []))))) := by simp
    have contactsInit : freeListEmptyInit hashTableEntries =
        some ⟨[], hashTableEntries, hashTableEntries⟩ := if_neg (by simp)
    have messagesInit : freeListEmptyInit totalMessageSectorSize =
        some ⟨[], totalMessageSectorSize, totalMessageSectorSize⟩ := if_neg (by simp)
    unfold databaseRebuild
    rw [contactsInit, messagesInit, logEq]
    refine out_bind_both (out_modify _ _ _) (out_bind_both loadRun ?_)
    refine out_bind_both contactRun (out_bind_both messageRun (out_bind_both orderRun ?_))
    exact out_bind_both namesRun historyRun
  · change third.htable.numElems = 0
    rw [tableEq, built.number]
    exact List.countP_eq_zero.mpr fun slot _ => Bool.false_ne_true

theorem database_init_bare (bare : BareCard card messages calls) (memory : Database) :
    ∃ next log, out databaseInit memory card = ((.strgOk, next), log) ∧ NoPeople next ∧
      next.messageHistory = messages ∧ next.callHistory = calls ∧
      SameAbove card (applyWrites log card) := by
  obtain ⟨next, log, run, people, messageRing, callRing, same⟩ := database_rebuild_bare bare
    { memory.clear with journal := headerOn card }
  refine ⟨next, log, ?_, people, messageRing, callRing, same⟩
  have check : out superheaderCheck memory.clear card = ((.good, memory.clear), []) := by
    unfold superheaderCheck
    have narrow : u16 superheaderSector = superheaderSector := rfl
    rw [out_bind_of (out_readSectorRaw _ _ _), narrow]
    simp only [bare.good]
    rfl
  have journal := out_journalInit_idle { memory.clear with journal := .zero } bare.idle
  have logEq : log = [] ++ ([] ++ ([] ++ ([] ++ log))) := rfl
  unfold databaseInit
  rw [logEq]
  refine out_bind_both (out_modify _ _ _) (out_bind_both check ?_)
  unfold databaseMount
  refine out_bind_both (out_modify _ _ _) (out_bind_both journal ?_)
  exact run

end Mount

def Call.showsPeople : Call → Bool
  | .contactGet .. | .contactList .. | .contactSeek .. | .contactCount | .messageGetChat ..
  | .chatList .. | .chatCount => true
  | _ => false

section Nobody

theorem NoPeople.find {db : Database} (people : NoPeople db) (card : Card Sector)
    (number : List Byte) : out (findOccupied number) db card = ((.error .strgEmpty, db), []) := by
  obtain ⟨latest, table⟩ := people.table
  rw [findOccupied, out_bind_of (out_findOccupied_absent table (no_contacts_hold people.unused)
    (fun _ _ => id) fun sector identity stored => by cases stored)]
  rfl

/-- All phone books without people answer alike. -/
def AnswersAlike {A : Type} (program : DbM A) : Prop :=
  ∃ answer, ∀ db card, NoPeople db → out program db card = ((answer, db), [])

theorem alike_pure {A : Type} (answer : A) : AnswersAlike (pure answer : DbM A) :=
  ⟨answer, fun _ _ _ => rfl⟩

theorem alike_after {A B : Type} {program : DbM A} {rest : A → DbM B} {answer : A}
    (known : ∀ db card, NoPeople db → out program db card = ((answer, db), []))
    (later : AnswersAlike (rest answer)) : AnswersAlike (program >>= rest) := by
  obtain ⟨result, run⟩ := later
  refine ⟨result, fun db card people => ?_⟩
  rw [out_bind_of (known db card people), apply_writes_nil, run db card people]
  rfl

theorem AnswersAlike.then {A B : Type} {program : DbM A} {rest : A → DbM B}
    (alike : AnswersAlike program) (later : ∀ answer, AnswersAlike (rest answer)) :
    AnswersAlike (program >>= rest) := by
  obtain ⟨answer, known⟩ := alike
  exact alike_after known (later answer)

theorem alike_contactGet (phone : Option CString) (given : Bool) :
    AnswersAlike (databaseContactGet phone given) := by
  unfold databaseContactGet
  split
  · exact alike_after (fun db card people => people.find card _) (alike_pure _)
  · exact alike_pure _

theorem alike_contactList (start n : Nat) (given : Bool) :
    AnswersAlike (databaseContactList start n given) := by
  unfold databaseContactList
  split
  · exact alike_pure _
  · refine ⟨(.strgEmpty, []), fun db card people => ?_⟩
    simp [out_bind, people.names]

theorem alike_contactSeek (text : Option CString) (given : Bool) :
    AnswersAlike (databaseContactSeek text given) := by
  unfold databaseContactSeek
  split
  · unfold sortedArraySeek
    split
    · exact alike_pure _
    · refine ⟨.ok 0, fun db card people => ?_⟩
      have index : db.nameIndex = ⟨[]⟩ := congrArg SortedArray.mk people.names
      rw [out_bind_of (out_get _ _), index]
      rfl
  · exact alike_pure _

theorem alike_contactCount : AnswersAlike databaseContactCount :=
  ⟨0, fun db card people => by simp [databaseContactCount, out_bind, hashSize, people.number]⟩

theorem alike_messageGetChat (phone : Option CString) (start n : Nat) (given : Bool) :
    AnswersAlike (databaseMessageGetChat phone start n given) := by
  unfold databaseMessageGetChat
  split
  · exact alike_after (fun db card people => people.find card _) (alike_pure _)
  · exact alike_pure _

theorem alike_chatList (start n : Nat) (given : Bool) :
    AnswersAlike (databaseChatList start n given) := by
  unfold databaseChatList
  split
  · exact alike_pure _
  · refine ⟨(.strgEmpty, []), fun db card people => ?_⟩
    simp [out_bind, people.order]

theorem alike_chatCount : AnswersAlike databaseChatCount :=
  ⟨0, fun db card people => by simp [databaseChatCount, out_bind, people.order]⟩

theorem nobody_of_mounted {db : Database} {card : Card Sector} {view : View}
    {chain : Nat → List Nat} {listing : Listing} (mounted : Mounted db card view chain listing)
    (number : db.htable.numElems = 0) : NoPeople db := by
  have listed : listing = [] := List.eq_nil_of_length_eq_zero (mounted.count.symm.trans number)
  have nobody : view.contact = blankView.contact := by
    funext slot
    by_contra given
    obtain ⟨hashSlot, occupied, place⟩ := mounted.core.table.placed slot given
    obtain ⟨identity, stored⟩ := Option.ne_none_iff_exists'.mp given
    have found : contactAt db.htable view.contact hashSlot = some identity := by
      rw [contact_at_occupied occupied, place, stored]
    have member := (mounted.names.listed hashSlot identity).mpr found
    rw [listed] at member
    cases member
  have table := mounted.core.table
  rw [nobody] at table
  constructor
  · exact ⟨_, table⟩
  · intro physSector inside
    rw [← Bool.not_eq_true, mounted.core.holds.contacts.used physSector inside]
    rintro ⟨position, _, stored⟩
    rw [nobody] at stored
    exact stored rfl
  · exact number
  · rw [mounted.names.index, listed]
    rfl
  · apply List.eq_nil_iff_forall_not_mem.mpr
    intro hashSlot member
    obtain ⟨_, entry⟩ := table.entry hashSlot ((mounted.order.mem hashSlot).mp member).1
    cases entry.stored

theorem alike_call (call : Call) (shows : call.showsPeople = true) : AnswersAlike call.run := by
  cases call with
  | contactGet => exact (alike_contactGet _ _).then fun _ => alike_pure _
  | contactList => exact (alike_contactList _ _ _).then fun _ => alike_pure _
  | contactSeek => exact (alike_contactSeek _ _).then fun _ => alike_pure _
  | contactCount => exact alike_contactCount.then fun _ => alike_pure _
  | messageGetChat => exact (alike_messageGetChat _ _ _ _).then fun _ => alike_pure _
  | chatList => exact (alike_chatList _ _ _).then fun _ => alike_pure _
  | chatCount => exact alike_chatCount.then fun _ => alike_pure _
  | _ => cases shows

end Nobody

end SdDatabase
