import SdDatabase.BitmapFaults
import SdDatabase.BlindContacts
import SdDatabase.ChatBounds
import SdDatabase.MessageRebuild
import SdDatabase.Rebuild

/-!
# The message scan with failing reads

`hash_reconstruct_message` reads every message sector in use, and for the head of a
chat its contact twice: as a record, and again in the lookup that finds its entry. The
scan gives up when the first of these reads fails. When the second one fails, the chat
counts as an orphan and its sectors are freed, unless the head can no longer be read.
-/

namespace SdDatabase

open Bytes Device BitScan OpenAddressing

set_option autoImplicit false

/-- The end of a round of `hash_reconstruct_message`. -/
def afterMessage (fuel dataSector lastFree : Nat) (proceed : Bool) : DbM (Option Nat) := do
  let last := messageDataSector (totalMessageSectorSize - 1)
  if !proceed then
    return none
  if dataSector = last then
    return some lastFree
  reconstructMessages fuel
    (getNextBit (← get).usageBitmap (u16 (dataSector + 1)) last) lastFree

/-- A usage bit of the bitmap that the card holds. -/
def cardBit (card : Card Sector) (dataSector : Nat) : Bool :=
  (cardWord card (usageBitmapFindIndex dataSector)).getLsbD (usageBitmapFindBit dataSector)

theorem card_bit_of_sector {bitmap : UsageBitmap} {card : Card Sector} {dataSector : Nat}
    (same : card (usageBitmapStartSector + usageBitmapFindSector dataSector) =
      bitmapSector bitmap (usageBitmapFindSector dataSector)) :
    cardBit card dataSector = usageBit bitmap dataSector := by
  have element : usageBitmapFindIndex dataSector % 128 < 128 := Nat.mod_lt _ (by decide)
  have sector : usageBitmapFindIndex dataSector / 128 = usageBitmapFindSector dataSector := by
    simp
    omega
  have place : usageBitmapFindSector dataSector * 128 + usageBitmapFindIndex dataSector % 128 =
      usageBitmapFindIndex dataSector := by omega
  have decoded := bitmap_word_decode bitmap (usageBitmapFindSector dataSector) element
  rw [place, ← same] at decoded
  have word : cardWord card (usageBitmapFindIndex dataSector) =
      bitmap.word (usageBitmapFindIndex dataSector) := by
    rw [← decoded, ← sector]
    rfl
  rw [cardBit, word, usage_bit_eq]

theorem card_bit_congr {card : Card Sector} {index dataSector : Nat} {content : Sector}
    (other : index ≠ usageBitmapStartSector + usageBitmapFindSector dataSector) :
    cardBit (Function.update card index content) dataSector = cardBit card dataSector := by
  have sector : usageBitmapFindIndex dataSector / elementsPerSector =
      usageBitmapFindSector dataSector := by
    simp
    omega
  rw [cardBit, cardWord, sector, Function.update_of_ne (Ne.symm other), ← sector]
  rfl

section Clears

variable (holds : Database → Card Sector → Prop)

theorem stays_readSector (index : Nat) : Stays holds (readSector index) := by
  intro db faults card given
  rw [exec_readSector]
  exact given

theorem stays_readContact (index : Nat) : Stays holds (readContact index) := by
  intro db faults card given
  rw [exec_readContact]
  exact given

theorem stays_probeFrom (phone : List Byte) (target h1 h2 count attempt : Nat) (contact : Contact)
    (firstFree : Option Nat) :
    Stays holds (probeFrom phone target h1 h2 count attempt contact firstFree) := by
  induction count generalizing attempt contact firstFree with
  | zero => exact stays_pure _
  | succ count ih =>
      unfold probeFrom
      apply stays_get
      intro db
      dsimp only
      cases (db.htable.htable ((h1 + attempt * h2) % db.htable.size)).state with
      | empty => exact stays_pure _
      | deleted => exact ih _ _ _
      | occupied =>
          refine Stays.ite ?_ (ih _ _ _)
          apply (stays_readContact holds _).bind
          intro answer
          cases answer with
          | ok found => exact Stays.ite (stays_pure _) (ih _ _ _)
          | error ret => exact Stays.ite (ih _ _ _) (Stays.ite (stays_pure _) (ih _ _ _))

theorem stays_hashFindEntry (phone : List Byte) : Stays holds (hashFindEntry phone) := by
  unfold hashFindEntry
  apply stays_get
  intro db
  exact stays_probeFrom holds _ _ _ _ _ _ _ _

variable (dataSector : Nat)

/-- The sector is not marked as used, neither in memory nor on the card. -/
structure UnusedAt (db : Database) (card : Card Sector) : Prop where
  memory : usageBit db.usageBitmap dataSector = false
  stored : cardBit card dataSector = false

theorem stays_unused_write {index : Nat} {content : Sector} (low : index < usageBitmapStartSector) :
    Stays (UnusedAt dataSector) (writeSector index content) := by
  have narrow : u16 index = index := u16_of_lt (by simp at low; omega)
  unfold writeSector
  apply Stays.bind
  · apply stays_writeBlock
    intro db card unused
    refine ⟨unused.memory, ?_⟩
    rw [narrow, card_bit_congr (by omega)]
    exact unused.stored
  · exact fun accepted => stays_pure _

theorem stays_unused_journalAdd (index : Nat) (content : Sector) :
    Stays (UnusedAt dataSector) (journalAdd .remove index content) := by
  have usage : Stays (UnusedAt dataSector)
      (journalWriteUsage (usageBitmapFindSector (u16 index))) := by
    unfold journalWriteUsage
    apply Stays.bind
    · apply stays_modify
      intro db card unused
      refine ⟨?_, unused.stored⟩
      rw [usage_bit_stamp]
      exact unused.memory
    · intro done
      apply stays_get
      exact fun db => stays_unused_write dataSector (by simp)
  unfold journalAdd
  apply Stays.bind
  · exact stays_modify fun db card unused => ⟨unused.memory, unused.stored⟩
  · intro done
    apply Stays.bind
    · unfold journalWrite
      apply usage.bind
      intro copied
      refine Stays.ite (stays_pure _) ?_
      simp only [if_true]
      refine Stays.bind (stays_pure _) fun saved => ?_
      exact Stays.ite (stays_pure _) (stays_unused_write dataSector (by simp))
    · exact fun ret => stays_pure _

theorem stays_unused_updateUsageBit (other : Nat) :
    Stays (UnusedAt dataSector) (updateUsageBit other false) := by
  intro db faults card unused
  have cleared : usageBit (setUsageBit db.usageBitmap (u16 other) false) dataSector = false := by
    rw [usage_bit_set]
    split
    · rfl
    · exact unused.memory
  rw [exec_updateUsageBit]
  cases faults.writes 0 with
  | true =>
      refine ⟨cleared, ?_⟩
      show cardBit (Function.update card (usageBitmapStartSector + usageBitmapFindSector (u16 other))
        _) dataSector = false
      by_cases same : usageBitmapFindSector dataSector = usageBitmapFindSector (u16 other)
      · have written := @card_bit_of_sector (setUsageBit db.usageBitmap (u16 other) false)
          (Function.update card (usageBitmapStartSector + usageBitmapFindSector (u16 other))
            (bitmapSector (setUsageBit db.usageBitmap (u16 other) false)
              (usageBitmapFindSector (u16 other)))) dataSector
          (by rw [same, Function.update_self])
        rw [written]
        exact cleared
      · rw [card_bit_congr (by omega)]
        exact unused.stored
  | false =>
      rw [if_neg Bool.false_ne_true, if_neg Bool.false_ne_true]
      have back : Stays (UnusedAt dataSector)
          (do
            if usageBit db.usageBitmap (u16 other) != false then
              modify fun memory => { memory with
                usageBitmap := setUsageBit memory.usageBitmap (u16 other) true }
            return StrgRet.strgFail : DbM StrgRet) := by
        by_cases given : usageBit db.usageBitmap (u16 other) = true
        · rw [given]
          apply Stays.bind
          · apply stays_modify
            intro later card kept
            refine ⟨?_, kept.stored⟩
            -- the bit that goes back was set before
            have different : dataSector ≠ u16 other := by
              intro same
              rw [← same, unused.memory] at given
              cases given
            rw [usage_bit_set, if_neg different]
            exact kept.memory
          · exact fun done => stays_pure _
        · rw [Bool.eq_false_of_not_eq_true given]
          exact stays_pure _
      exact back _ _ _ ⟨cleared, unused.stored⟩

theorem stays_unused_removeMessageBit (index : Nat) :
    Stays (UnusedAt dataSector) (removeMessageBit index) := by
  unfold removeMessageBit
  apply (stays_unused_journalAdd dataSector _ _).bind
  intro accepted
  refine Stays.ite (stays_pure _) ?_
  apply (stays_unused_updateUsageBit dataSector _).bind
  intro cleared
  refine Stays.ite (stays_pure _) ?_
  unfold journalFree
  apply Stays.bind
  · exact stays_modify fun db card unused => ⟨unused.memory, unused.stored⟩
  · intro done
    apply stays_get
    exact fun db => stays_unused_write dataSector (by simp)

theorem stays_unused_removeOrphanedFrom (startIndex jumpsLeft curr : Nat) :
    Stays (UnusedAt dataSector) (removeOrphanedFrom startIndex jumpsLeft curr) := by
  induction jumpsLeft generalizing curr with
  | zero => exact stays_pure _
  | succ jumpsLeft ih =>
      unfold removeOrphanedFrom
      refine Stays.ite (stays_pure _) ?_
      have check : Stays (UnusedAt dataSector) (checkUsageBit (messageDataSector curr)) :=
        stays_get fun db => stays_pure _
      apply check.bind
      intro used
      refine Stays.ite (stays_pure _) ?_
      apply (stays_readSector (UnusedAt dataSector) _).bind
      intro answer
      cases answer with
      | error ret => exact stays_pure _
      | ok content =>
          apply (stays_unused_removeMessageBit dataSector _).bind
          intro ret
          refine Stays.ite (stays_pure _) ?_
          dsimp only
          have rest : Stays (UnusedAt dataSector) (do
              if jumpsLeft = 0 then
                return StrgRet.strgFail
              removeOrphanedFrom startIndex jumpsLeft
                (ofSector content : MessageSector).header.prev.toNat) := by
            refine Stays.ite (stays_pure _) ?_
            exact ih _
          refine Stays.ite ?_ ?_
          · apply Stays.bind
            · exact stays_modify fun db card unused => ⟨unused.memory, unused.stored⟩
            · exact fun done => rest
          · exact rest

theorem stays_unused_insertMessage (mSector : MessageSector) (index : Nat) :
    Stays (UnusedAt dataSector) (insertMessageFromSector mSector index) := by
  have orphan : Stays (UnusedAt dataSector) (do
      let ret ← removeOrphanedMessageChat index
      return if ret = .strgOk then .strgEmpty else ret) :=
    (stays_unused_removeOrphanedFrom dataSector index _ index).bind fun ret => stays_pure _
  unfold insertMessageFromSector
  apply (stays_readContact (UnusedAt dataSector) _).bind
  intro answer
  cases answer with
  | error ret =>
      cases ret with
      | strgFail => exact stays_pure _
      | _ => exact orphan
  | ok contact =>
      apply (stays_hashFindEntry (UnusedAt dataSector) _).bind
      intro found
      cases found with
      | none => exact stays_pure _
      | some slot =>
          apply stays_get
          intro db
          apply Stays.ite orphan
          apply Stays.bind
          · exact stays_modify fun db card unused => ⟨unused.memory, unused.stored⟩
          · exact fun done => stays_pure _

theorem stays_unused_afterMessage {fuel : Nat}
    (scan : ∀ position lastFree,
      Stays (UnusedAt dataSector) (reconstructMessages fuel position lastFree))
    (position lastFree : Nat) (proceed : Bool) :
    Stays (UnusedAt dataSector) (afterMessage fuel position lastFree proceed) := by
  unfold afterMessage
  dsimp only
  refine Stays.ite (stays_pure _) ?_
  refine Stays.ite (stays_pure _) ?_
  apply stays_get
  exact fun db => scan _ _

theorem stays_unused_reconstruct (fuel position lastFree : Nat) :
    Stays (UnusedAt dataSector) (reconstructMessages fuel position lastFree) := by
  induction fuel generalizing position lastFree with
  | zero => exact stays_pure _
  | succ fuel ih =>
      have goesOn := stays_unused_afterMessage dataSector ih
      unfold reconstructMessages
      dsimp only
      refine Stays.ite (stays_pure _) ?_
      apply Stays.bind
      · exact stays_modify fun db card unused => ⟨unused.memory, unused.stored⟩
      · intro done
        apply (stays_readSector (UnusedAt dataSector) _).bind
        intro answer
        cases answer with
        | error ret => exact (stays_pure _).bind fun proceed => goesOn position _ proceed
        | ok content =>
            apply stays_get
            intro db
            apply Stays.ite
            · apply (stays_unused_insertMessage dataSector _ _).bind
              exact fun ret => (stays_pure _).bind fun proceed => goesOn position _ proceed
            · exact (stays_pure _).bind fun proceed => goesOn position _ proceed

end Clears

section Orphan

theorem reads_nothing_writeSector (index : Nat) (content : Sector) :
    ReadsNothing (writeSector index content) := by
  unfold writeSector
  apply (reads_nothing_writeBlock _ _).bind
  exact fun accepted => reads_nothing_pure _

theorem reads_nothing_journalAdd (index : Nat) (content : Sector) :
    ReadsNothing (journalAdd .remove index content) := by
  have usage : ReadsNothing (journalWriteUsage (usageBitmapFindSector (u16 index))) := by
    unfold journalWriteUsage
    apply (reads_nothing_modify _).bind
    intro done
    apply reads_nothing_get
    exact fun db => reads_nothing_writeSector _ _
  unfold journalAdd
  apply (reads_nothing_modify _).bind
  intro done
  apply ReadsNothing.bind
  · unfold journalWrite
    apply usage.bind
    intro copied
    apply ReadsNothing.ite (reads_nothing_pure _)
    apply (reads_nothing_pure _).bind
    intro saved
    exact ReadsNothing.ite (reads_nothing_pure _) (reads_nothing_writeSector _ _)
  · exact fun ret => reads_nothing_pure _

theorem reads_nothing_updateUsageBit (dataSector : Nat) (used : Bool) :
    ReadsNothing (updateUsageBit dataSector used) := by
  unfold updateUsageBit
  apply reads_nothing_get
  intro before
  apply (reads_nothing_modify _).bind
  intro done
  apply reads_nothing_get
  intro db
  apply (reads_nothing_writeBlock _ _).bind
  intro accepted
  apply ReadsNothing.ite (reads_nothing_pure _)
  apply ReadsNothing.ite
  · exact (reads_nothing_modify _).bind fun back => reads_nothing_pure _
  · exact reads_nothing_pure _

theorem reads_nothing_removeMessageBit (index : Nat) : ReadsNothing (removeMessageBit index) := by
  unfold removeMessageBit
  apply (reads_nothing_journalAdd _ _).bind
  intro accepted
  refine ReadsNothing.ite (reads_nothing_pure _) ?_
  apply (reads_nothing_updateUsageBit _ _).bind
  intro cleared
  refine ReadsNothing.ite (reads_nothing_pure _) ?_
  unfold journalFree
  apply (reads_nothing_modify _).bind
  intro done
  apply reads_nothing_get
  exact fun db => reads_nothing_writeSector _ _

variable {db : Database} {card : Card Sector} {index : Nat}

theorem blind_readMessageSector (inside : index < totalMessageSectorSize)
    (valid : sectorCrcValid (card (messageRaw index)) = true) (fails : Nat → Bool) :
    exec (readMessageSector index) db (.blind fails) card =
      ((if fails 0 then .error .strgFail else .ok (card (messageRaw index)), db),
        .blind fun read => fails (read + 1), card) := by
  rw [readMessageSector, ← message_raw_eq, exec_readSector, message_raw_narrow inside]
  unfold Faults.blind
  dsimp only
  cases fails 0 with
  | true => rfl
  | false =>
      rw [if_neg Bool.false_ne_true, guarded_answer_healthy valid]
      rfl

theorem orphan_unread (inside : index < totalMessageSectorSize)
    (used : usageBit db.usageBitmap (messageDataSector index) = true)
    (valid : sectorCrcValid (card (messageRaw index)) = true) {fails : Nat → Bool}
    (failed : fails 0 = true) :
    exec (removeOrphanedMessageChat index) db (.blind fails) card =
      ((.strgFail, db), .blind fun read => fails (read + 1), card) := by
  have more : index ≠ uint16Max := by
    simp at inside ⊢
    omega
  have check : exec (checkUsageBit (messageDataSector index)) db (.blind fails) card =
      ((true, db), .blind fails, card) := by
    rw [exec_checkUsageBit, message_narrow inside, used]
  have read := @blind_readMessageSector db card index inside valid fails
  rw [failed, if_pos rfl] at read
  rw [removeOrphanedMessageChat, removeOrphanedFrom, if_neg more, exec_bind_of check, Bool.not_true,
    if_neg Bool.false_ne_true, exec_bind_of read]
  rfl

theorem bit_removed_unused (db : Database) (card : Card Sector) (index : Nat) :
    UnusedAt (messageDataSector index) (bitRemoved db index)
      (applyWrites (bitRemovalLog db.usageBitmap index) card) := by
  have memory : usageBit (bitRemoved db index).usageBitmap (messageDataSector index) = false := by
    rw [bit_removed_usage, Function.update_self]
  refine ⟨memory, ?_⟩
  rw [← memory]
  apply card_bit_of_sector
  rw [bitRemovalLog, apply_writes_append, bitWork, List.singleton_append, apply_writes_cons,
    apply_writes_cons, apply_writes_nil, Function.update_of_ne (by simp; omega), Function.update_self]
  rfl

/-- Once the head is read, its usage bit is cleared, whatever reads fail behind it. -/
theorem orphan_read (inside : index < totalMessageSectorSize)
    (used : usageBit db.usageBitmap (messageDataSector index) = true)
    (valid : sectorCrcValid (card (messageRaw index)) = true) {fails : Nat → Bool}
    (healthy : fails 0 = false) :
    UnusedAt (messageDataSector index)
      (exec (removeOrphanedMessageChat index) db (.blind fails) card).1.2
      (exec (removeOrphanedMessageChat index) db (.blind fails) card).2.2 := by
  have more : index ≠ uint16Max := by
    simp at inside ⊢
    omega
  have check : exec (checkUsageBit (messageDataSector index)) db (.blind fails) card =
      ((true, db), .blind fails, card) := by
    rw [exec_checkUsageBit, message_narrow inside, used]
  have read := @blind_readMessageSector db card index inside valid fails
  rw [healthy, if_neg Bool.false_ne_true] at read
  have removed := reads_nothing_removeMessageBit index db (fun read => fails (read + 1)) card
  rw [out_removeMessageBit db card inside] at removed
  have jumps : totalMessageSectorSize ≠ 0 := by simp
  rw [removeOrphanedMessageChat, removeOrphanedFrom, if_neg more, exec_bind_of check, Bool.not_true,
    if_neg Bool.false_ne_true, exec_bind_of read]
  dsimp only
  rw [exec_bind_of removed, if_neg (not_not.mpr rfl), if_pos (le_refl index)]
  have rest : Stays (UnusedAt (messageDataSector index)) (do
      modify fun db =>
        { db with messageAllocator := freeListFree db.messageAllocator index }
      if totalMessageSectorSize = 0 then
        return StrgRet.strgFail
      removeOrphanedFrom index totalMessageSectorSize
        (ofSector (card (messageRaw index)) : MessageSector).header.prev.toNat) := by
    apply Stays.bind
    · exact stays_modify fun db card unused => ⟨unused.memory, unused.stored⟩
    · intro done
      rw [if_neg jumps]
      exact stays_unused_removeOrphanedFrom _ _ _ _
  exact rest _ _ _ (bit_removed_unused db card index)

end Orphan

def ownerReadings (phone : Nat → Option (List Byte)) (owner : Nat) : List Reading :=
  match phone owner with
  | none => []
  | some number =>
      .fatal :: (List.replicate (earlierContacts phone (hashPhone number) owner) .spare ++
        [.wrong (laterContacts phone (hashPhone number) owner hashTableEntries)])

def messageSectorReadings (bitmap : UsageBitmap) (card : Card Sector) (index : Nat) :
    List Reading :=
  let mSector : MessageSector := ofSector (card (messageRaw index))
  if index < totalMessageSectorSize ∧ usageBit bitmap (messageDataSector index) = true then
    .fatal :: if isChatHead bitmap mSector then
      ownerReadings (storedPhone bitmap card) mSector.header.contactIndex.toNat else []
  else []

/-- The reads of `hash_reconstruct_message`. -/
def messageReadings (bitmap : UsageBitmap) (card : Card Sector) : List Reading :=
  segment (messageSectorReadings bitmap card) 0 totalMessageSectorSize

/-- The newest sector of a chat was in use and is not any more. -/
def ChatLost {A : Type} (base : Database) (card : Card Sector)
    (outcome : Outcome Sector Database A) : Prop :=
  ∃ index < totalMessageSectorSize, usageBit base.usageBitmap (messageDataSector index) = true ∧
    isChatHead base.usageBitmap (ofSector (card (messageRaw index))) = true ∧
    UnusedAt (messageDataSector index) outcome.1.2 outcome.2.2

/-- What is left of `insert_message_from_sector` once the contact is read. -/
def attachChat (phone : List Byte) (owner index : Nat) : DbM StrgRet := do
  match ← hashFindEntry phone with
  | none => return .strgFail
  | some slot =>
      let entry := (← get).htable.htable slot
      if entry.state ≠ .occupied ∨ entry.sector ≠ owner then
        let ret ← removeOrphanedMessageChat index
        return if ret = .strgOk then .strgEmpty else ret
      setLatestMsgExtent slot index
      return .strgOk

/-- One used sector of `hash_reconstruct_message`, and the rest of the scan. -/
def scanMessage (index : Nat) (rest : Bool → DbM (Option Nat)) : DbM (Option Nat) := do
  match ← readMessageSector index with
  | .error ret => rest (ret ≠ .strgFail)
  | .ok content =>
      let mSector : MessageSector := ofSector content
      if isChatHead (← get).usageBitmap mSector then
        rest ((← insertMessageFromSector mSector index) ≠ .strgFail)
      else rest true

section Messages

variable {base db : Database} {card : Card Sector} {view : View} {count : Nat}

/-- The newest sectors below `count` are known, and the entries stand in the order of their
slots. -/
structure OrderedChats (base : Database) (card : Card Sector) (view : View) (count : Nat)
    (db : Database) : Prop where
  built : MessagesBuilt base view count db
  order : SlotOrder db.htable (storedPhone base.usageBitmap card) hashTableEntries

variable (contacts : ContactsHold base.usageBitmap card view.contact)
  (messages : MessagesHold base.usageBitmap card view.sector)
  (distinct : Distinct view.contact)
  (owners : ∀ index mSector, view.sector index = some mSector →
    view.contact mSector.header.contactIndex.toNat ≠ none)

include messages in
theorem built_unused_free (built : MessagesBuilt base view count db) (index : Nat)
    (member : index ∈ db.messageAllocator.freeStack) :
    usageBit base.usageBitmap (messageDataSector index) = false := by
  rw [built.free.stack, List.mem_reverse, List.mem_filter, List.mem_range,
    Bool.not_eq_true'] at member
  rw [messages.used index (Nat.lt_of_lt_of_le member.1 (Nat.min_le_right _ _)), member.2]

include contacts messages distinct

theorem attach_chat_blind (ordered : OrderedChats base card view count db)
    {mSector : MessageSector} (stored : view.sector count = some mSector)
    (isHead : isChatHead base.usageBitmap mSector = true) {identity : Identity}
    {owner : Nat} (given : view.contact owner = some identity) :
    ∃ next, Follows (attachChat identity.phone owner count) db card
        (List.replicate (earlierContacts (storedPhone base.usageBitmap card)
            (hashPhone identity.phone) owner) .spare ++
          [.wrong (laterContacts (storedPhone base.usageBitmap card) (hashPhone identity.phone)
            owner hashTableEntries)])
        .strgOk next (GaveUp .strgFail base card) (ChatLost base card) ∧
      SlotOrder next.htable (storedPhone base.usageBitmap card) hashTableEntries := by
  have phones := stored_phone_record contacts
  have whole : phonesBelow hashTableEntries (storedPhone base.usageBitmap card) =
      contactPhones view.contact := by
    rw [phones]
    funext sector
    unfold phonesBelow
    split
    next => rfl
    next above =>
      by_contra given
      exact above (contacts.bound sector (contact_phones_ne_none.mp (Ne.symm given)))
  have inside := messages.bound count (by rw [stored]; exact Option.some_ne_none _)
  have bitmap := ordered.built.bitmap
  have reads : MessagesHold db.usageBitmap card view.sector := by
    rw [bitmap]
    exact messages
  obtain ⟨_, used, valid, content⟩ := reads.stored count mSector stored
  obtain ⟨slot, occupied, place⟩ := ordered.built.table.placed owner
    (by rw [given]; exact Option.some_ne_none _)
  have few : ∀ sector, phonesBelow hashTableEntries (storedPhone base.usageBitmap card) sector ≠
      none → sector < hashTableEntries := by
    intro sector known
    rw [whole] at known
    exact contacts.bound sector (contact_phones_ne_none.mp known)
  have numbers : NumbersStored db card
      (phonesBelow hashTableEntries (storedPhone base.usageBitmap card)) := by
    intro sector number known
    rw [bitmap]
    exact (phones_below_part known).2
  obtain ⟨free, isFree, search⟩ := @SlotOrder.find_present _ card _ _ ordered.order few numbers
    (by rw [whole]; exact distinct.phones) slot identity.phone occupied
    (by rw [whole, place]; exact contact_phones_some given)
  rw [place] at search
  dsimp only at search
  have unusedFree := built_unused_free messages ordered.built
  generalize earlierContacts (storedPhone base.usageBitmap card) (hashPhone identity.phone)
    owner = earlier at search ⊢
  generalize laterContacts (storedPhone base.usageBitmap card) (hashPhone identity.phone)
    owner hashTableEntries = later at search ⊢
  refine ⟨{ db with
    htable := db.htable.setEntry slot { db.htable.htable slot with latestMsgExtent := count } },
    ?_, ?_⟩
  · intro fails
    have decides : verdict (List.replicate earlier .spare ++ [.wrong later]) fails =
        if fails earlier then if fails (0 + (earlier + 1 + later)) then .stopped else .astray
        else .clean := by
      have behind : later + 1 + earlier = 0 + (earlier + 1 + later) := by omega
      rw [verdict_append, verdict_spares, List.length_replicate, ← behind]
      simp only [Verdict.orElse, verdict, Nat.zero_add]
    rw [decides]
    unfold attachChat
    cases own : fails earlier with
    | false =>
        have found := search fails
        rw [own, if_pos rfl] at found
        have keep : ¬((db.htable.htable slot).state ≠ .occupied ∨
            (db.htable.htable slot).sector ≠ owner) := by
          rw [occupied, place]
          simp
        rw [if_neg Bool.false_ne_true, exec_bind_of found, exec_bind_of (exec_get _ _ _)]
        dsimp only
        rw [if_neg keep, List.length_append, List.length_replicate]
        rfl
    | true =>
        have found := search fails
        rw [own, if_neg (by simp)] at found
        have orphan : (db.htable.htable free).state ≠ .occupied ∨
            (db.htable.htable free).sector ≠ owner := Or.inl isFree
        rw [if_pos rfl, exec_bind_of found, exec_bind_of (exec_get _ _ _)]
        dsimp only
        rw [if_pos orphan]
        cases head : fails (0 + (earlier + 1 + later)) with
        | true =>
            rw [if_pos rfl, exec_bind_of (orphan_unread inside used valid head)]
            exact ⟨rfl, bitmap, fun index member => Or.inr (unusedFree index member), rfl⟩
        | false =>
            rw [if_neg Bool.false_ne_true]
            refine ⟨count, inside, ?_, ?_, ?_⟩
            · rw [← bitmap]
              exact used
            · rw [content]
              exact isHead
            · rw [exec_bind]
              exact orphan_read inside used valid head
  · exact @SlotOrder.congr _ _ _ (db.htable.setEntry slot
      { db.htable.htable slot with latestMsgExtent := count }) ordered.order rfl
      (set_latest_field HashEntry.state rfl) (set_latest_field HashEntry.id rfl)
      (set_latest_field HashEntry.sector rfl)

include owners

theorem insert_message_blind (ordered : OrderedChats base card view count db)
    {mSector : MessageSector} (stored : view.sector count = some mSector)
    (free : FreeBelow db.messageAllocator totalMessageSectorSize (count + 1) fun index =>
      (view.sector index).isSome)
    (head : view.sector mSector.header.next.toNat = none) :
    ∃ next, Follows (insertMessageFromSector mSector count) db card
        (ownerReadings (storedPhone base.usageBitmap card) mSector.header.contactIndex.toNat)
        .strgOk next (GaveUp .strgFail base card) (ChatLost base card) ∧
      OrderedChats base card view (count + 1) next := by
  obtain ⟨identity, owner⟩ := Option.ne_none_iff_exists'.mp (owners count mSector stored)
  obtain ⟨next, attached, order⟩ :=
    attach_chat_blind contacts messages distinct ordered stored
      ((@is_chat_head_iff base card view messages mSector).mpr head) owner
  obtain ⟨last, run, done⟩ := @insert_message_run _ _ card _ _ contacts distinct owners
    ordered.built _ stored free head
  have record : storedContact db.usageBitmap card mSector.header.contactIndex.toNat =
      some identity.record := by
    rw [ordered.built.bitmap, stored_contact_record contacts, owner, Option.map_some]
  have number : storedPhone base.usageBitmap card mSector.header.contactIndex.toNat =
      some identity.phone := by
    rw [stored_phone_record contacts, contact_phones_some owner]
  have read : Follows (readContact mSector.header.contactIndex.toNat) db card [.fatal]
      (.ok identity.record) db
      (fun outcome => outcome.1 = (.error .strgFail, db) ∧ outcome.2.2 = card)
      (fun _ => False) := by
    apply follows_fatal
    · intro fails first
      rw [blind_readContact record, first]
      rfl
    · intro fails first
      rw [blind_readContact record, first]
      exact ⟨rfl, rfl⟩
  have whole : Follows (insertMessageFromSector mSector count) db card
      (ownerReadings (storedPhone base.usageBitmap card) mSector.header.contactIndex.toNat)
      .strgOk next (GaveUp .strgFail base card) (ChatLost base card) := by
    unfold ownerReadings
    rw [number]
    unfold insertMessageFromSector
    apply read.bind
    · simp only [scanned_phone]
      exact attached
    · rintro outcome ⟨failed, kept⟩
      rw [failed]
      exact ⟨rfl, ordered.built.bitmap,
        fun index member => Or.inr (built_unused_free messages ordered.built index member), kept⟩
    · exact fun outcome impossible => impossible.elim
  have same : last = next := congrArg Prod.snd (whole.outcome run)
  rw [same] at done
  exact ⟨next, whole, done, order⟩

/-- A part of the scan that goes on with this program. -/
structure GoesOn (base : Database) (card : Card Sector) (db : Database)
    (rest : Bool → DbM (Option Nat)) (readings : List Reading) (result : Option Nat)
    (last : Database) : Prop where
  follows : Follows (rest true) db card readings result last (GaveUp none base card)
    (ChatLost base card)
  givesUp : ∀ db faults card, exec (rest false) db faults card = ((none, db), faults, card)
  clears : ∀ proceed dataSector, Stays (UnusedAt dataSector) (rest proceed)

omit contacts messages distinct owners in
theorem ChatLost.stays {A B : Type} {outcome : Outcome Sector Database A}
    (lost : ChatLost base card outcome) {program : DbM B}
    (stays : ∀ dataSector, Stays (UnusedAt dataSector) program) :
    ChatLost base card (exec program outcome.1.2 outcome.2.1 outcome.2.2) := by
  obtain ⟨index, inside, used, head, clear⟩ := lost
  exact ⟨index, inside, used, head, stays _ _ _ _ clear⟩

theorem scan_message_blind (ordered : OrderedChats base card view count db)
    {mSector : MessageSector} (stored : view.sector count = some mSector) :
    ∃ next, OrderedChats base card view (count + 1) next ∧
      ∀ rest readings result last, GoesOn base card next rest readings result last →
        Follows (scanMessage count rest) db card
          (messageSectorReadings base.usageBitmap card count ++ readings) result last
          (GaveUp none base card) (ChatLost base card) := by
  have reads : MessagesHold db.usageBitmap card view.sector := by
    rw [ordered.built.bitmap]
    exact messages
  obtain ⟨inside, used, valid, content⟩ := reads.stored count mSector stored
  have passed : FreeBelow db.messageAllocator totalMessageSectorSize (count + 1) fun index =>
      (view.sector index).isSome := ordered.built.free.skip (by rw [stored]; rfl)
  have headIff := is_chat_head_iff reads mSector
  rw [ordered.built.bitmap] at used headIff
  have unusedFree := built_unused_free messages ordered.built
  have readings : messageSectorReadings base.usageBitmap card count = [.fatal] ++
      if isChatHead base.usageBitmap mSector then
        ownerReadings (storedPhone base.usageBitmap card) mSector.header.contactIndex.toNat
      else [] := by
    unfold messageSectorReadings
    dsimp only
    rw [content, if_pos ⟨inside, used⟩]
    rfl
  have read : Follows (readMessageSector count) db card [.fatal] (.ok (card (messageRaw count))) db
      (fun outcome => outcome.1 = (.error .strgFail, db) ∧ outcome.2.2 = card)
      (fun _ => False) := by
    apply follows_fatal
    · intro fails first
      rw [blind_readMessageSector inside valid, first]
      rfl
    · intro fails first
      rw [blind_readMessageSector inside valid, first]
      exact ⟨rfl, rfl⟩
  -- the head that cannot be read ends the scan
  have unread : ∀ {rest readings result last next}, GoesOn base card next rest readings result last →
      ∀ outcome : Outcome Sector Database (Except StrgRet Sector),
        outcome.1 = (.error .strgFail, db) ∧ outcome.2.2 = card →
          GaveUp none base card (exec (rest false) outcome.1.2 outcome.2.1 outcome.2.2) := by
    rintro rest readings result last next goesOn outcome ⟨failed, kept⟩
    rw [goesOn.givesUp, failed]
    exact ⟨rfl, ordered.built.bitmap, fun index member => Or.inr (unusedFree index member), kept⟩
  by_cases head : view.sector mSector.header.next.toNat = none
  · obtain ⟨next, inserted, done⟩ := insert_message_blind contacts messages distinct owners ordered
      stored passed head
    refine ⟨next, done, fun rest more result last goesOn => ?_⟩
    rw [readings, if_pos (headIff.mpr head), List.append_assoc]
    unfold scanMessage
    apply read.bind
    · apply Follows.silent (fun _ => exec_get _ _ _)
      rw [content, ordered.built.bitmap, if_pos (headIff.mpr head)]
      apply inserted.bind
      · exact goesOn.follows
      · intro outcome stopped
        have ends : decide (StrgRet.strgFail ≠ StrgRet.strgFail) = false := rfl
        rw [stopped.answers, ends, goesOn.givesUp]
        exact ⟨rfl, stopped.bitmap, stopped.free, stopped.kept⟩
      · exact fun outcome lost => lost.stays (goesOn.clears _)
    · intro outcome failed
      have result := unread goesOn outcome failed
      rw [failed.1] at result ⊢
      exact result
    · exact fun outcome impossible => impossible.elim
  · refine ⟨db, ⟨⟨ordered.built.same, ?_, ordered.built.number, passed⟩, ordered.order⟩,
      fun rest more result last goesOn => ?_⟩
    · have same : (fun slot => latestHead view slot (count + 1)) =
          fun slot => latestHead view slot count := by
        funext slot
        rw [latestHead, stored]
        exact if_neg fun both => head both.1
      rw [same]
      exact ordered.built.table
    · have noHead : ¬isChatHead base.usageBitmap mSector = true := by
        rw [headIff]
        exact head
      rw [readings, if_neg noHead, List.append_nil]
      unfold scanMessage
      apply read.bind
      · apply Follows.silent (fun _ => exec_get _ _ _)
        rw [content, ordered.built.bitmap, if_neg noHead]
        exact goesOn.follows
      · intro outcome failed
        have result := unread goesOn outcome failed
        rw [failed.1] at result ⊢
        exact result
      · exact fun outcome impossible => impossible.elim

omit contacts messages distinct owners in
theorem free_messages_blind {limit : Nat} (ordered : OrderedChats base card view count db)
    (order : count ≤ limit)
    (none_ : ∀ index, count ≤ index → index < limit → view.sector index = none) :
    ∃ next, (∀ faults, exec (freeMessages count limit) db faults card =
        ((PUnit.unit, next), faults, card)) ∧ OrderedChats base card view limit next := by
  obtain ⟨next, freed, built⟩ := @free_messages_run _ _ card _ _ ordered.built limit order none_
  have isNext : next = { db with
      messageAllocator := freeListFreeRange db.messageAllocator count limit } :=
    (congrArg (fun outcome => outcome.1.2) freed).symm
  refine ⟨next, fun faults => ?_, built, ?_⟩
  · rw [isNext]
    rfl
  · rw [isNext]
    exact ordered.order

theorem reconstruct_messages_blind (bits : BitmapHolds base.usageBitmap card) (fuel : Nat)
    (ordered : OrderedChats base card view count db) (short : count ≤ totalMessageSectorSize)
    (enough : totalMessageSectorSize ≤ count + fuel) :
    ∃ next after, Follows (reconstructMessages fuel (getNextBit base.usageBitmap
        (messageDataSector count) (messageDataSector (totalMessageSectorSize - 1))) count) db card
        (segment (messageSectorReadings base.usageBitmap card) count totalMessageSectorSize)
        (some after) next (GaveUp none base card) (ChatLost base card) ∧
      OrderedChats base card view after next ∧ after ≤ totalMessageSectorSize ∧
      ∀ index, after ≤ index → view.sector index = none := by
  have unusedReadings : ∀ {index}, view.sector index = none →
      messageSectorReadings base.usageBitmap card index = [] := by
    intro index nothing
    apply if_neg
    rintro ⟨inside, used⟩
    rw [messages.used index inside, nothing] at used
    cases used
  induction fuel generalizing count db with
  | zero =>
      have silent : segment (messageSectorReadings base.usageBitmap card) count
          totalMessageSectorSize = [] := segment_silent fun index above below => by omega
      rw [silent]
      refine ⟨db, count, follows_pure _ _ _, ordered, short, fun index above => ?_⟩
      by_contra given
      exact absurd (messages.bound index given) (by omega)
  | succ fuel ih =>
      unfold reconstructMessages
      rcases @next_message_sector _ _ _ count messages bits with
        ⟨index, mSector, result, stored, low, none_⟩ | ⟨result, none_⟩
      · have inside := messages.bound index (by rw [stored]; exact Option.some_ne_none _)
        have size : totalMessageSectorSize = 28586 := rfl
        have goes : ¬(messageDataSector index = uint16Max ∨
            messageDataSector (totalMessageSectorSize - 1) < messageDataSector index) := by
          simp at inside ⊢
          omega
        have back : u16 (messageDataSector index - messageDataStartSector) = index := by
          simp at inside ⊢
          exact u16_of_lt (by omega)
        have step : u16 (index + 1) = index + 1 := u16_of_lt (by simp at inside; omega)
        have readings := segment_next low inside fun other above before =>
          unusedReadings (none_ other above before)
        obtain ⟨middle, freed, orderedMiddle⟩ := free_messages_blind ordered low none_
        obtain ⟨next, orderedNext, scanned⟩ := scan_message_blind contacts messages distinct owners
          orderedMiddle stored
        have finish : ∃ last after, Follows (afterMessage fuel (messageDataSector index) (index + 1) true)
              next card
              (segment (messageSectorReadings base.usageBitmap card) (index + 1)
                totalMessageSectorSize) (some after) last (GaveUp none base card)
              (ChatLost base card) ∧
            OrderedChats base card view after last ∧ after ≤ totalMessageSectorSize ∧
            ∀ other, after ≤ other → view.sector other = none := by
          unfold afterMessage
          dsimp only
          rw [if_neg (by simp)]
          by_cases atEnd : messageDataSector index = messageDataSector (totalMessageSectorSize - 1)
          · rw [if_pos atEnd]
            have last : index + 1 = totalMessageSectorSize := by
              simp at atEnd ⊢
              omega
            have silent : segment (messageSectorReadings base.usageBitmap card) (index + 1)
                totalMessageSectorSize = [] := segment_silent fun other above below => by omega
            rw [silent]
            refine ⟨next, index + 1, follows_pure _ _ _, orderedNext, by omega,
              fun other above => ?_⟩
            by_contra given
            exact absurd (messages.bound other given) (by omega)
          · rw [if_neg atEnd]
            have further : u16 (messageDataSector index + 1) = messageDataSector (index + 1) := by
              simp at inside ⊢
              rw [u16_of_lt (by omega)]
              omega
            obtain ⟨last, after, later, done⟩ := ih orderedNext (by omega) (by omega)
            refine ⟨last, after, ?_, done⟩
            apply Follows.silent (fun _ => exec_get _ _ _)
            rw [orderedNext.built.bitmap, further]
            exact later
        obtain ⟨last, after, later, done⟩ := finish
        refine ⟨last, after, ?_, done⟩
        rw [result, readings]
        dsimp only
        rw [if_neg goes, back, step]
        apply Follows.silent freed
        exact scanned (afterMessage fuel (messageDataSector index) (index + 1)) _ _ _
          ⟨later, fun _ _ _ => rfl, fun proceed sector => stays_unused_afterMessage sector
            (stays_unused_reconstruct sector fuel) _ _ proceed⟩
      · have silent : segment (messageSectorReadings base.usageBitmap card) count
            totalMessageSectorSize = [] :=
          segment_silent fun index above _ => unusedReadings (none_ index above)
        rw [silent]
        refine ⟨db, count, ?_, ordered, short, none_⟩
        rw [result]
        exact follows_pure _ _ _

/-- The scan of the messages gives up at a sector or an owner that it cannot read; it goes astray
at an owner that it reads once and does not find again. -/
theorem hash_reconstruct_message_blind (bits : BitmapHolds base.usageBitmap card)
    (fresh : OrderedChats base card view 0 base) :
    ∃ next, Follows hashReconstructMessage base card (messageReadings base.usageBitmap card)
        true next (GaveUp false base card) (ChatLost base card) ∧
      OrderedChats base card view totalMessageSectorSize next := by
  obtain ⟨middle, after, run, ordered, short, none_⟩ := reconstruct_messages_blind contacts messages
    distinct owners bits (totalMessageSectorSize + 1) fresh (Nat.zero_le _) (by omega)
  obtain ⟨next, freed, done⟩ := free_messages_blind ordered short fun index above _ =>
    none_ index above
  refine ⟨next, ?_, done⟩
  unfold hashReconstructMessage
  apply Follows.silent (fun _ => exec_get _ _ _)
  rw [messageReadings, ← List.append_nil (segment _ _ _)]
  apply run.bind
  · exact (follows_pure true next card).silent freed
  · intro outcome stopped
    rw [stopped.answers]
    exact ⟨rfl, stopped.bitmap, stopped.free, stopped.kept⟩
  · intro outcome lost
    apply lost.stays
    intro dataSector
    cases outcome.1.1 with
    | none => exact stays_pure _
    | some lastFree =>
        apply Stays.bind
        · exact stays_modify fun db card unused => ⟨unused.memory, unused.stored⟩
        · exact fun done => stays_pure _

end Messages

end SdDatabase
