import SdDatabase.JournalTrace
import SdDatabase.Database
import SdDatabase.PhoneTable
import SdDatabase.Run

/-!
# Who writes to the journal

Apart from `journal_add` and `journal_free` no function writes to the journal
sectors, whichever writes fail. The sector numbers of the others are taken from
the table, the allocators and the rings, so those never lead there.
-/

namespace SdDatabase

open Bytes Device

set_option autoImplicit false

/-- The data sector of a message index has a raw number behind the bitmap. -/
def MessageInRegion (index : Nat) : Prop :=
  u16 (messageDataSector index) + dataRegionStartSector < 65536

structure RingInRegion (rb : RingBuffer) : Prop where
  size : rb.size ≤ 5000
  occupancy : rb.occupancy ≤ 5000
  current : rb.currentIndex ≤ 5000

/-- No number in memory leads a write to the journal sectors. -/
structure Confined (db : Database) : Prop where
  contacts : ∀ slot, (db.htable.htable slot).sector < 65536
  chats : ∀ slot, MessageInRegion (db.htable.htable slot).latestMsgExtent
  freeContacts : ∀ index ∈ db.contactAllocator.freeStack, index < 65536
  freeMessages : ∀ index ∈ db.messageAllocator.freeStack, MessageInRegion index
  bits : ∀ dataSector < 65536, usageBit db.usageBitmap dataSector = true →
    dataSector + dataRegionStartSector < 65536
  messages : RingInRegion db.messageHistory
  calls : RingInRegion db.callHistory

theorem no_message_in_region : MessageInRegion uint16Max := by
  unfold MessageInRegion
  decide

section Confined

variable {db next : Database}

theorem Confined.congr (confined : Confined db) (table : next.htable.htable = db.htable.htable)
    (contacts : next.contactAllocator.freeStack = db.contactAllocator.freeStack)
    (messages : next.messageAllocator.freeStack = db.messageAllocator.freeStack)
    (bits : ∀ dataSector, usageBit next.usageBitmap dataSector = usageBit db.usageBitmap dataSector)
    (messageRing : next.messageHistory = db.messageHistory)
    (callRing : next.callHistory = db.callHistory) : Confined next where
  contacts := by rw [table]; exact confined.contacts
  chats := by rw [table]; exact confined.chats
  freeContacts := by rw [contacts]; exact confined.freeContacts
  freeMessages := by rw [messages]; exact confined.freeMessages
  bits dataSector bound used := confined.bits dataSector bound (by rwa [bits] at used)
  messages := by rw [messageRing]; exact confined.messages
  calls := by rw [callRing]; exact confined.calls

theorem Confined.set_entry (confined : Confined db) {slot : Nat} {entry : HashEntry}
    {table : HashTable} (changed : table.htable = Function.update db.htable.htable slot entry)
    (sector : entry.sector < 65536) (chat : MessageInRegion entry.latestMsgExtent) :
    Confined { db with htable := table } := by
  constructor
  · intro other
    dsimp only
    rw [changed]
    by_cases same : other = slot
    · rw [same, Function.update_self]
      exact sector
    · rw [Function.update_of_ne same]
      exact confined.contacts other
  · intro other
    dsimp only
    rw [changed]
    by_cases same : other = slot
    · rw [same, Function.update_self]
      exact chat
    · rw [Function.update_of_ne same]
      exact confined.chats other
  · exact confined.freeContacts
  · exact confined.freeMessages
  · exact confined.bits
  · exact confined.messages
  · exact confined.calls

theorem mem_free {list : FreeList} {sector index : Nat}
    (member : index ∈ (freeListFree list sector).freeStack) :
    index = sector ∨ index ∈ list.freeStack := by
  unfold freeListFree at member
  split at member
  · exact Or.inr member
  · exact List.mem_cons.mp member

theorem Confined.free_contact (confined : Confined db) {index : Nat} (bound : index < 65536) :
    Confined { db with contactAllocator := freeListFree db.contactAllocator index } :=
  { confined with
    freeContacts := by
      intro other member
      rcases mem_free member with same | earlier
      · rw [same]
        exact bound
      · exact confined.freeContacts other earlier }

theorem Confined.free_message (confined : Confined db) {index : Nat}
    (inside : MessageInRegion index) :
    Confined { db with messageAllocator := freeListFree db.messageAllocator index } :=
  { confined with
    freeMessages := by
      intro other member
      rcases mem_free member with same | earlier
      · rw [same]
        exact inside
      · exact confined.freeMessages other earlier }

theorem Confined.set_bit (confined : Confined db) {dataSector : Nat} (used : Bool)
    (inside : used = true → dataSector + dataRegionStartSector < 65536) :
    Confined { db with usageBitmap := setUsageBit db.usageBitmap dataSector used } :=
  { confined with
    bits := by
      intro other bound set_
      rw [usage_bit_set] at set_
      split at set_
      · rename_i same
        rw [same]
        exact inside set_
      · exact confined.bits other bound set_ }

end Confined

/-- The program uses the journal as it should, keeps the numbers in memory confined, and its
answer is as `fact` says. -/
def Supplies {A : Type} (fact : A → Prop) (program : DbM A) : Prop :=
  Ensures JournalTrace (fun db _ => Confined db) program fun value db _ => Confined db ∧ fact value

def Orderly {A : Type} (program : DbM A) : Prop := Supplies (fun _ => True) program

section Orderly

variable {A B : Type} {fact : A → Prop} {program : DbM A} {rest : A → DbM B}

theorem supplies_pure {value : A} (holds : fact value) : Supplies fact (pure value : DbM A) :=
  ensures_pure journal_trace_law fun _ _ confined => ⟨confined, holds⟩

theorem orderly_pure (value : A) : Orderly (pure value : DbM A) := supplies_pure trivial

theorem Supplies.bind {later : B → Prop} (first : Supplies fact program)
    (second : ∀ value, fact value → Supplies later (rest value)) :
    Supplies later (program >>= rest) :=
  Ensures.bind journal_trace_law first fun value memory writes card given =>
    second value given.2 memory writes card given.1

theorem Orderly.bind (first : Orderly program) (second : ∀ value, Orderly (rest value)) :
    Orderly (program >>= rest) := Supplies.bind first fun value _ => second value

theorem supplies_get {rest : Database → DbM A}
    (supplies : ∀ db, Confined db → Supplies fact (rest db)) : Supplies fact (get >>= rest) :=
  ensures_get fun memory current writes card given => by
    obtain ⟨rfl, confined⟩ := given
    exact supplies _ confined _ writes card confined

theorem orderly_modify {step : Database → Database}
    (keeps : ∀ db, Confined db → Confined (step db)) : Orderly (modify step : DbM PUnit) := by
  unfold Orderly Supplies
  apply ensures_modify journal_trace_law
  exact fun memory _ confined => ⟨keeps memory confined, trivial⟩

theorem orderly_of_reads {K : Type} {key : Database → K} (reads : ReadsOf key program) :
    Orderly program := by
  unfold Orderly Supplies
  apply ensures_reads journal_trace_law reads
  exact fun _ _ _ confined => ⟨confined, trivial⟩

theorem Orderly.ite {condition : Prop} [Decidable condition] {yes no : DbM A}
    (first : Orderly yes) (second : Orderly no) :
    Orderly (if condition then yes else no) := by
  split <;> assumption

theorem orderly_writeBlock {index : Nat} {block : Sector}
    (outside : ¬(1 ≤ index ∧ index ≤ 3)) : Orderly (writeBlock index block : DbM Bool) := by
  unfold Orderly Supplies
  apply ensures_writeBlock
  · exact fun _ _ confined => ⟨confined, trivial⟩
  · exact fun _ _ confined => ⟨confined, trivial⟩
  · exact fun _ => journal_trace_single outside

theorem orderly_writeSector {index : Nat} {sector : Sector}
    (outside : ¬(1 ≤ u16 index ∧ u16 index ≤ 3)) : Orderly (writeSector index sector) :=
  (orderly_writeBlock outside).bind fun _ => orderly_pure _

end Orderly

section Journal

variable (db : Database) (writes : Nat → Bool) (card : Card Sector)

/-- A call of `journal_add`: the writes that it attempts, and the memory behind it. -/
theorem attempts_journalAdd (type : JrnlType) (index : Nat) (content : Sector) :
    (attempts (journalAdd type index content) db writes card).2 =
        triedWrites (journalAddLog type (u16 index) content db.usageBitmap) writes ∧
      (attempts (journalAdd type index content) db writes card).1.2 =
        { db with
          journal := journalDataInit type (u16 index)
          usageBitmap :=
            if type.savesBitmap then
              stampBitmap db.usageBitmap (usageBitmapFindSector (u16 index))
            else db.usageBitmap } := by
  have stamped : ∀ sector,
      sectorCrcStamp (bitmapSector (stampBitmap db.usageBitmap sector) sector) =
        sectorCrcStamp (bitmapSector db.usageBitmap sector) := by
    intro sector
    rw [bitmap_sector_stamp]
    exact stamp_of_valid (stamp_valid _)
  constructor <;> cases type <;> cases first : writes 0 <;> cases second : writes 1 <;>
    simp [journalAdd, journalWrite, journalWriteUsage, journalWriteSector, writeSector,
      attempts_bind, first, second, triedWrites, journalAddLog, journalCopies,
      JrnlType.savesBitmap, StrgRet.ofBool, dropWrites, stamped]

end Journal

theorem orderly_journalAdd (type : JrnlType) {index : Nat} (content : Sector)
    (region : u16 index + dataRegionStartSector < 65536) :
    Orderly (journalAdd type index content) := by
  intro db writes card confined
  obtain ⟨trace, memory⟩ := attempts_journalAdd db writes card type index content
  constructor
  · rw [memory]
    refine ⟨confined.congr rfl rfl rfl ?_ rfl rfl, trivial⟩
    intro dataSector
    dsimp only
    split
    · exact usage_bit_stamp _ _ _
    · rfl
  · rw [trace]
    have entry := @JournalTrace.add ⟨type, u16 index, content, db.usageBitmap, region⟩ writes [] .nil
    rw [List.append_nil] at entry
    exact entry

theorem orderly_journalFree : Orderly journalFree := by
  intro db writes card confined
  constructor
  · exact ⟨confined.congr rfl rfl rfl (fun _ => rfl) rfl rfl, trivial⟩
  · exact @JournalTrace.commit db.journal.committed _ [] rfl .nil

theorem orderly_updateUsageBit {dataSector : Nat} (used : Bool)
    (region : u16 dataSector + dataRegionStartSector < 65536) :
    Orderly (updateUsageBit dataSector used) := by
  unfold updateUsageBit
  apply supplies_get
  intro before _
  apply Orderly.bind
  · apply orderly_modify
    intro db confined
    exact confined.set_bit used fun _ => region
  intro _
  apply supplies_get
  intro db _
  apply Orderly.bind
  · apply orderly_writeBlock
    simp
    omega
  intro accepted
  apply Orderly.ite (orderly_pure _)
  apply Orderly.ite
  · apply Orderly.bind
    · apply orderly_modify
      intro db confined
      exact confined.set_bit (!used) fun _ => region
    · exact fun _ => orderly_pure _
  · exact orderly_pure _

theorem supplies_checkUsageBit (dataSector : Nat) :
    Supplies (fun used => used = true → u16 dataSector + dataRegionStartSector < 65536)
      (checkUsageBit dataSector) := by
  apply supplies_get
  intro db confined
  apply supplies_pure
  exact confined.bits _ (u16_lt _)

theorem orderly_writeContactSector {index : Nat} (content : ContactSector)
    (bound : index < 65524) : Orderly (writeContactSector index content) := by
  apply orderly_writeSector
  unfold u16
  simp
  omega

theorem orderly_writeContact {index : Nat} (record : Contact) (bound : index < 65536) :
    Orderly (writeContact index record) := by
  have slot : u16 (contactDataSector index) + dataRegionStartSector < 65536 := by
    rw [u16_of_lt (by simp; omega)]
    simp
    omega
  have sector : u16 (index / contactSectorCapacity) + dataRegionStartSector < 65536 := by
    rw [u16_of_lt (by simp; omega)]
    simp
    omega
  unfold writeContact
  apply Orderly.bind
  · unfold contactSectorForWrite
    apply (orderly_of_reads (reads_checkUsageBit _)).bind
    exact fun _ => Orderly.ite (orderly_of_reads (reads_readSector id _)) (orderly_pure _)
  intro content
  cases content with
  | error ret => exact orderly_pure _
  | ok content =>
      apply (orderly_journalAdd _ _ slot).bind
      intro added
      apply Orderly.ite (orderly_pure _)
      apply (orderly_updateUsageBit true sector).bind
      intro updated
      apply Orderly.ite (orderly_pure _)
      apply (orderly_writeContactSector _ (by simp; omega)).bind
      intro written
      apply Orderly.ite (orderly_pure _)
      apply orderly_journalFree.bind
      intro freed
      apply Orderly.ite (orderly_pure _)
      apply orderly_journalFree.bind
      exact fun _ => Orderly.ite (orderly_pure _) (orderly_pure _)

theorem orderly_removeContact {index : Nat} (bound : index < 65536) :
    Orderly (removeContact index) := by
  have slot : u16 (contactDataSector index) + dataRegionStartSector < 65536 := by
    rw [u16_of_lt (by simp; omega)]
    simp
    omega
  have sector : u16 (index / contactSectorCapacity) + dataRegionStartSector < 65536 := by
    rw [u16_of_lt (by simp; omega)]
    simp
    omega
  unfold removeContact
  apply (orderly_of_reads (reads_checkUsageBit _)).bind
  intro used
  apply Orderly.ite (orderly_pure _)
  apply (orderly_of_reads (reads_readSector id _)).bind
  intro content
  cases content with
  | error ret => exact orderly_pure _
  | ok content =>
      apply (orderly_journalAdd _ _ slot).bind
      intro added
      apply Orderly.ite (orderly_pure _)
      apply Orderly.ite (orderly_pure _)
      apply Orderly.bind
      · exact Orderly.ite (orderly_updateUsageBit false sector)
          (orderly_writeContactSector _ (by simp; omega))
      intro removed
      apply Orderly.ite (orderly_pure _)
      apply orderly_journalFree.bind
      intro freed
      apply Orderly.ite (orderly_pure _)
      apply (orderly_modify fun db confined => confined.free_contact bound).bind
      exact fun _ => orderly_pure _

theorem orderly_writeMessageSector {index : Nat} (content : MessageSector)
    (inside : MessageInRegion index) : Orderly (writeMessageSector index content) := by
  apply orderly_writeSector
  unfold MessageInRegion u16 at inside
  unfold u16
  simp at inside ⊢
  omega

section Messages

variable {index : Nat} (inside : MessageInRegion index)

include inside

theorem orderly_commitMessage (sector : MessageSector) (message : Message) :
    Orderly (commitMessage index sector message) := by
  unfold commitMessage
  apply (orderly_updateUsageBit true inside).bind
  intro updated
  apply Orderly.ite (orderly_pure _)
  apply (orderly_writeMessageSector _ inside).bind
  intro written
  apply Orderly.ite (orderly_pure _)
  apply orderly_journalFree.bind
  exact fun _ => Orderly.ite (orderly_pure _) (orderly_pure _)

theorem orderly_writeMessage (message : Message) : Orderly (writeMessage index message) := by
  unfold writeMessage
  apply (orderly_of_reads (reads_checkUsageBit _)).bind
  intro used
  apply Orderly.ite (orderly_pure _)
  apply (orderly_of_reads (reads_readSector id _)).bind
  intro content
  cases content with
  | error ret => exact orderly_pure _
  | ok content =>
      apply Orderly.ite (orderly_pure _)
      apply (orderly_journalAdd _ _ inside).bind
      exact fun _ => Orderly.ite (orderly_pure _) (orderly_commitMessage inside _ _)

theorem orderly_writeNewMessageSector (contactIndex : Nat) (message : Message) :
    Orderly (writeNewMessageSector contactIndex index message) := by
  unfold writeNewMessageSector
  apply (orderly_of_reads (reads_checkUsageBit _)).bind
  intro used
  apply Orderly.ite (orderly_pure _)
  apply (orderly_journalAdd _ _ inside).bind
  exact fun _ => Orderly.ite (orderly_pure _) (orderly_commitMessage inside _ _)

theorem orderly_pointMessageSectorToNext (next : Nat) :
    Orderly (pointMessageSectorToNext next index) := by
  unfold pointMessageSectorToNext
  apply (orderly_of_reads (reads_readSector id _)).bind
  intro content
  cases content with
  | error ret => exact orderly_pure _
  | ok content =>
      apply (orderly_journalAdd _ _ inside).bind
      intro added
      apply Orderly.ite (orderly_pure _)
      apply (orderly_writeMessageSector _ inside).bind
      intro written
      apply Orderly.ite (orderly_pure _)
      apply orderly_journalFree.bind
      exact fun _ => Orderly.ite (orderly_pure _) (orderly_pure _)

theorem orderly_writeNextMessageSector (contactIndex : Nat) {next : Nat} (message : Message)
    (nextInside : MessageInRegion next) :
    Orderly (writeNextMessageSector contactIndex index next message) := by
  unfold writeNextMessageSector
  apply (orderly_of_reads (reads_checkUsageBit _)).bind
  intro used
  apply Orderly.ite (orderly_pure _)
  apply (orderly_of_reads (reads_checkUsageBit _)).bind
  intro known
  apply Orderly.ite (orderly_pure _)
  apply (orderly_journalAdd _ _ nextInside).bind
  intro added
  apply Orderly.ite (orderly_pure _)
  apply (orderly_commitMessage nextInside _ _).bind
  exact fun _ => Orderly.ite (orderly_pure _) (orderly_pointMessageSectorToNext inside _)

end Messages

/-- A sector is removed only if its usage bit is set, so its number leads to the data region. -/
theorem orderly_removeMessageSector (index : Nat) : Orderly (removeMessageSector index) := by
  unfold removeMessageSector
  apply (supplies_checkUsageBit _).bind
  intro used known
  cases used with
  | false => exact orderly_pure _
  | true =>
      have inside : MessageInRegion index := known rfl
      apply Orderly.ite (orderly_pure _)
      apply (orderly_of_reads (reads_readSector id _)).bind
      intro content
      cases content with
      | error ret => exact orderly_pure _
      | ok content =>
          apply (orderly_journalAdd _ _ inside).bind
          intro added
          apply Orderly.ite (orderly_pure _)
          apply (orderly_updateUsageBit false inside).bind
          intro cleared
          apply Orderly.ite (orderly_pure _)
          apply orderly_journalFree.bind
          intro freed
          apply Orderly.ite (orderly_pure _)
          apply (orderly_modify fun db confined => confined.free_message inside).bind
          exact fun _ => orderly_pure _

theorem orderly_removeMessageChat (startIndex : Nat) : Orderly (removeMessageChat startIndex) := by
  unfold removeMessageChat
  generalize 65537 = fuel
  induction fuel generalizing startIndex with
  | zero => exact orderly_pure _
  | succ fuel ih =>
      unfold removeMessageChatLoop
      apply Orderly.ite (orderly_pure _)
      apply (orderly_removeMessageSector _).bind
      intro removed
      cases removed with
      | error ret => exact orderly_pure _
      | ok mSector => exact ih _

end SdDatabase
