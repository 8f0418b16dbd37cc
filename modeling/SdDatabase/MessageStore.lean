import SdDatabase.ContactStore

/-!
# Message sectors on the card

Writing and removing message sectors on a card that holds a view. Growing a chat
by a sector is two transactions, and between them the new sector is stored but
the previous one does not point to it yet.
-/

namespace SdDatabase

open Bytes Device

set_option autoImplicit false

def View.setSector (view : View) (index : Nat) (mSector : Option MessageSector) : View :=
  { view with sector := Function.update view.sector index mSector }

@[simp] theorem set_sector_self (view : View) (index : Nat) (mSector : Option MessageSector) :
    (view.setSector index mSector).sector index = mSector :=
  Function.update_self _ _ _

theorem set_sector_other (view : View) {index other : Nat} (mSector : Option MessageSector)
    (different : other ≠ index) :
    (view.setSector index mSector).sector other = view.sector other :=
  Function.update_of_ne different _ _

def messageWork (bitmap : UsageBitmap) (index : Nat) (mSector : MessageSector) :
    WriteLog Sector :=
  bitWork bitmap (messageDataSector index) true ++
    [(messageRaw index, sectorCrcStamp (toSector mSector))]

theorem message_low {index : Nat} (bound : index < totalMessageSectorSize) :
    messageDataSector index < totalDataSectorSize := by
  simp at bound ⊢
  omega

theorem message_narrow {index : Nat} (bound : index < totalMessageSectorSize) :
    u16 (messageDataSector index) = messageDataSector index := by
  apply u16_of_lt
  simp at bound ⊢
  omega

theorem message_stamped {bitmap : UsageBitmap} {card : Card Sector}
    (bits : BitmapHolds bitmap card) {index : Nat} (bound : index < totalMessageSectorSize) :
    stampBitmap bitmap (usageBitmapFindSector (messageDataSector index)) = bitmap :=
  stamp_bitmap_of_valid (bits.stamped _ (by simp at bound ⊢; omega))

theorem MessagesHold.change {bitmap next : UsageBitmap} {card other : Card Sector}
    {sector : Nat → Option MessageSector} (messages : MessagesHold bitmap card sector)
    {index : Nat} (bound : index < totalMessageSectorSize) (value : Option MessageSector)
    (sameBits : ∀ position < totalMessageSectorSize, position ≠ index →
      usageBit next (messageDataSector position) = usageBit bitmap (messageDataSector position))
    (sameCard : ∀ position, position ≠ index →
      other (messageRaw position) = card (messageRaw position))
    (used : usageBit next (messageDataSector index) = value.isSome)
    (stored : ∀ mSector, value = some mSector →
      sectorCrcValid (other (messageRaw index)) = true ∧
        ofSector (other (messageRaw index)) = mSector) :
    MessagesHold next other (Function.update sector index value) where
  bound position given := by
    by_cases same : position = index
    · rw [same]
      exact bound
    · rw [Function.update_of_ne same] at given
      exact messages.bound position given
  used position inside := by
    by_cases same : position = index
    · rw [same, Function.update_self]
      exact used
    · rw [Function.update_of_ne same, sameBits position inside same]
      exact messages.used position inside
  sectors position mSector found := by
    by_cases same : position = index
    · rw [same, Function.update_self] at found
      rw [same]
      exact stored mSector found
    · rw [Function.update_of_ne same] at found
      rw [sameCard position same]
      exact messages.sectors position mSector found

theorem Holds.message_change {bitmap next : UsageBitmap} {card other : Card Sector} {view : View}
    (holds : Holds bitmap card view) {index : Nat} (bound : index < totalMessageSectorSize)
    (value : Option MessageSector) (bits : BitmapHolds next other)
    (sameBits : ∀ dataSector, dataSector ≠ messageDataSector index →
      usageBit next dataSector = usageBit bitmap dataSector)
    (sameCard : ∀ target, target < 4 ∨ 12 ≤ target → target ≠ messageRaw index →
      other target = card target)
    (used : usageBit next (messageDataSector index) = value.isSome)
    (stored : ∀ mSector, value = some mSector →
      sectorCrcValid (other (messageRaw index)) = true ∧
        ofSector (other (messageRaw index)) = mSector) :
    Holds next other (view.setSector index value) where
  superheader := by
    rw [sameCard _ (Or.inl (by simp)) (by simp only [messageRaw]; simp; omega)]
    exact holds.superheader
  bits := bits
  contacts := by
    refine holds.contacts.congr (fun physSector inside => sameBits _ ?_)
      fun physSector inside _ => sameCard _ (Or.inr (by simp only [contactRaw]; omega)) ?_
    · simp at inside ⊢
      omega
    · simp at inside
      simp only [contactRaw, messageRaw]
      omega
  messages := holds.messages.change bound value
    (fun position _ other => sameBits _ (by simp; omega))
    (fun position other => sameCard _ (Or.inr (by simp only [messageRaw]; omega))
      (by simp only [messageRaw]; omega)) used stored
  rings := by
    simp at bound
    exact holds.rings.congr (fun target low _ => sameCard target (Or.inr (by omega))
      (by simp only [messageRaw]; omega)) rfl rfl

theorem Holds.undo_message {bitmap : UsageBitmap} {card : Card Sector} {view : View}
    (holds : Holds bitmap card view) {index : Nat} (bound : index < totalMessageSectorSize)
    {saved : Sector}
    (kept : view.sector index ≠ none →
      saved = card (messageRaw index) ∧ sectorCrcValid saved = true) :
    Holds bitmap (rolledBack .message (messageDataSector index) saved bitmap card) view := by
  have low := message_low bound
  have raw : messageDataSector index + dataRegionStartSector = messageRaw index := by
    simp [messageRaw]
    omega
  by_cases used : view.sector index = none
  · have others : ∀ target, target ≠ messageRaw index →
        rolledBack .message (messageDataSector index) saved bitmap card target = card target :=
      fun target other => rolled_back_other holds.bits (fun _ => low)
        (Or.inl (by rw [raw]; exact other))
    simp only [messageRaw] at others
    simp at bound
    exact
      { superheader := by
          rw [others _ (by simp; omega)]
          exact holds.superheader
        bits := holds.bits.congr fun target _ high => others target (by omega)
        contacts := holds.contacts.congr (fun _ _ => rfl) fun physSector inside _ =>
          others _ (by
            simp at inside
            simp only [contactRaw]
            omega)
        messages := holds.messages.congr (fun _ _ => rfl) fun position given =>
          others _ (by
            intro same
            have sameIndex : position = index := by
              simp only [messageRaw] at same
              omega
            rw [sameIndex] at given
            exact given used)
        rings := holds.rings.congr (fun target _ _ => others target (by omega)) rfl rfl }
  · exact holds.rolled_back_stored (fun _ => low) (fun _ => by rw [raw]; exact (kept used).1)
      fun _ => (kept used).2

section Runs

variable {db : Database} {card : Card Sector} {view : View}

theorem message_raw_narrow {index : Nat} (bound : index < totalMessageSectorSize) :
    u16 (messageRaw index) = messageRaw index := by
  apply u16_of_lt
  simp [messageRaw] at bound ⊢
  omega

theorem out_readMessageSector (db : Database) (card : Card Sector) {index : Nat}
    (bound : index < totalMessageSectorSize) :
    out (readMessageSector index) db card =
      ((if sectorCrcValid (card (messageRaw index)) then .ok (card (messageRaw index))
        else .error .strgCorrupt, db), []) := by
  rw [readMessageSector, ← message_raw_eq, out_readSector, message_raw_narrow bound]

theorem out_writeMessageSector (db : Database) (card : Card Sector) {index : Nat}
    (bound : index < totalMessageSectorSize) (mSector : MessageSector) :
    out (writeMessageSector index mSector) db card =
      ((.strgOk, db), [(messageRaw index, sectorCrcStamp (toSector mSector))]) := by
  rw [writeMessageSector, ← message_raw_eq, out_writeSector, message_raw_narrow bound]

theorem out_readMessageSector_stored (messages : MessagesHold db.usageBitmap card view.sector)
    {index : Nat} {mSector : MessageSector} (found : view.sector index = some mSector) :
    out (readMessageSector index) db card = ((.ok (card (messageRaw index)), db), []) := by
  have bound := messages.bound index (by rw [found]; exact Option.some_ne_none _)
  rw [out_readMessageSector db card bound, (messages.sectors index mSector found).1]
  rfl

theorem MessagesHold.usage (messages : MessagesHold db.usageBitmap card view.sector)
    {index : Nat} (bound : index < totalMessageSectorSize) :
    usageBit db.usageBitmap (u16 (messageDataSector index)) = (view.sector index).isSome := by
  rw [message_narrow bound]
  exact messages.used index bound

theorem out_commitMessage (db : Database) (card : Card Sector) {index : Nat}
    (bound : index < totalMessageSectorSize) (mSector : MessageSector) (message : Message) :
    out (commitMessage index mSector message) db card =
      ((.strgOk,
        { db with
          journal := db.journal.committed
          usageBitmap := setUsageBit db.usageBitmap (messageDataSector index) true }),
        messageWork db.usageBitmap index (mSector.push message) ++
          [(jrnlHeaderSector, sectorCrcStamp (toSector db.journal.committed))]) := by
  unfold commitMessage
  rw [out_bind, out_updateUsageBit, message_narrow bound]
  simp only [reduceCtorEq, if_false]
  rw [out_bind, out_writeMessageSector _ _ bound]
  simp only [reduceCtorEq, if_false]
  rw [out_bind, out_journalFree]
  rfl

theorem out_addMessage (bits : BitmapHolds db.usageBitmap card) {index : Nat}
    (bound : index < totalMessageSectorSize) (saved : Sector) (mSector : MessageSector)
    (message : Message) :
    out (do
      if !(← journalAdd .message (messageDataSector index) saved) then
        return .strgFail
      commitMessage index mSector message) db card =
      ((.strgOk,
        { db with
          journal := (journalDataInit .message (messageDataSector index)).committed
          usageBitmap := setUsageBit db.usageBitmap (messageDataSector index) true }),
        transactionLog .message (messageDataSector index) saved db.usageBitmap
          (messageWork db.usageBitmap index (mSector.push message)) 1) := by
  have low : messageDataSector index < 65536 := by
    simp at bound ⊢
    omega
  rw [out_bind_of (out_journalAdd _ _ .message saved low)]
  simp only [JrnlType.savesBitmap, if_true, message_stamped bits bound, Bool.not_true,
    Bool.false_eq_true, if_false]
  rw [out_commitMessage _ _ bound]
  rfl

theorem message_work_holds (holds : Holds db.usageBitmap card view) {index : Nat}
    (bound : index < totalMessageSectorSize) (mSector : MessageSector) :
    Holds (setUsageBit db.usageBitmap (messageDataSector index) true)
      (applyWrites (messageWork db.usageBitmap index mSector) card)
      (view.setSector index (some mSector)) := by
  have low := message_low bound
  have written : applyWrites (messageWork db.usageBitmap index mSector) card =
      Function.update (applyWrites (bitWork db.usageBitmap (messageDataSector index) true) card)
        (messageRaw index) (sectorCrcStamp (toSector mSector)) := by
    rw [messageWork, apply_writes_append]
    rfl
  rw [written]
  refine holds.message_change bound _ ((holds.bits.set true low).congr ?_) ?_ ?_ ?_ ?_
  · intro target _ high
    exact Function.update_of_ne (by simp only [messageRaw]; omega) _ _
  · intro dataSector other
    rw [usage_bit_set, if_neg other]
  · intro target range other
    rw [Function.update_of_ne other, bit_work_other true low range]
  · rw [usage_bit_set, if_pos rfl]
    rfl
  · rintro stored ⟨rfl⟩
    rw [Function.update_self]
    exact ⟨stamp_valid _, by rw [of_sector_stamp, of_to_sector]⟩

theorem message_covered {bitmap : UsageBitmap} {index : Nat} {mSector : MessageSector}
    (entry : Nat × Sector) (member : entry ∈ messageWork bitmap index mSector) :
    (JrnlType.message ≠ .remove ∧ entry.1 = messageDataSector index + dataRegionStartSector) ∨
    (JrnlType.message.savesBitmap = true ∧
      entry.1 = usageBitmapStartSector + usageBitmapFindSector (messageDataSector index)) := by
  rcases List.mem_append.mp member with bit | data
  · right
    rw [List.eq_of_mem_singleton bit]
    exact ⟨rfl, rfl⟩
  · left
    rw [List.eq_of_mem_singleton data]
    exact ⟨by decide, by simp [messageRaw]; omega⟩

theorem add_message_leads (idle : JournalIdle card) (holds : Holds db.usageBitmap card view)
    {index : Nat} (bound : index < totalMessageSectorSize) {saved : Sector}
    (kept : view.sector index ≠ none →
      saved = card (messageRaw index) ∧ sectorCrcValid saved = true) (mSector : MessageSector) :
    Leads card
      (transactionLog .message (messageDataSector index) saved db.usageBitmap
        (messageWork db.usageBitmap index mSector) 1)
      (setUsageBit db.usageBitmap (messageDataSector index) true)
      (view.setSector index (some mSector))
      (atCommit 5 view (view.setSector index (some mSector))) := by
  refine transaction_leads idle holds ?_ message_covered Nat.zero_lt_one
    (holds.undo_message bound kept) (message_work_holds holds bound mSector)
  simp at bound ⊢
  omega

theorem write_message_run (idle : JournalIdle card) (holds : Holds db.usageBitmap card view)
    {index : Nat} {mSector : MessageSector} (found : view.sector index = some mSector)
    (room : mSector.header.msgCount.toNat < messageSectorCapacity) (message : Message) :
    ∃ journal bitmap log,
      out (writeMessage index message) db card =
        ((.strgOk, { db with journal := journal, usageBitmap := bitmap }), log) ∧
      Leads card log bitmap (view.setSector index (some (mSector.push message)))
        fun _ seen => seen = view ∨
          seen = view.setSector index (some (mSector.push message)) := by
  have given : view.sector index ≠ none := by
    rw [found]
    exact Option.some_ne_none _
  have bound := holds.messages.bound index given
  obtain ⟨valid, content⟩ := holds.messages.sectors index mSector found
  refine ⟨(journalDataInit .message (messageDataSector index)).committed, _, _, ?_,
    (@add_message_leads _ _ _ idle holds _ bound (card (messageRaw index))
      (fun _ => ⟨rfl, valid⟩) (mSector.push message)).mono fun _ _ => at_commit_seen⟩
  unfold writeMessage
  rw [out_bind, out_checkUsageBit, holds.messages.usage bound, found]
  simp only [Option.isSome_some, Bool.not_true, Bool.false_eq_true, if_false, apply_writes_nil]
  rw [out_bind_of (out_readMessageSector_stored holds.messages found)]
  simp only [content, if_neg (not_le.mpr room), apply_writes_nil]
  rw [out_addMessage holds.bits bound]
  rfl

theorem write_message_full (holds : Holds db.usageBitmap card view) {index : Nat}
    {mSector : MessageSector} (found : view.sector index = some mSector)
    (full : messageSectorCapacity ≤ mSector.header.msgCount.toNat) (message : Message) :
    out (writeMessage index message) db card = ((.strgFull, db), []) := by
  have given : view.sector index ≠ none := by
    rw [found]
    exact Option.some_ne_none _
  have bound := holds.messages.bound index given
  obtain ⟨valid, content⟩ := holds.messages.sectors index mSector found
  unfold writeMessage
  rw [out_bind, out_checkUsageBit, holds.messages.usage bound, found]
  simp only [Option.isSome_some, Bool.not_true, Bool.false_eq_true, if_false, apply_writes_nil]
  rw [out_bind_of (out_readMessageSector_stored holds.messages found)]
  simp only [content, if_pos full]
  rfl

theorem write_new_message_sector_run (idle : JournalIdle card)
    (holds : Holds db.usageBitmap card view) {index : Nat}
    (bound : index < totalMessageSectorSize) (free : view.sector index = none)
    (contactIndex : Nat) (message : Message) :
    ∃ journal bitmap log,
      out (writeNewMessageSector contactIndex index message) db card =
        ((.strgOk, { db with journal := journal, usageBitmap := bitmap }), log) ∧
      Leads card log bitmap
        (view.setSector index
          (some ((createNewMessageSector contactIndex uint16Max).push message)))
        fun _ seen => seen = view ∨ seen = view.setSector index
          (some ((createNewMessageSector contactIndex uint16Max).push message)) := by
  refine ⟨(journalDataInit .message (messageDataSector index)).committed, _, _, ?_,
    (@add_message_leads _ _ _ idle holds _ bound
      (toSector (createNewMessageSector contactIndex uint16Max))
      (fun given => absurd free given) _).mono fun _ _ => at_commit_seen⟩
  unfold writeNewMessageSector
  rw [out_bind, out_checkUsageBit, holds.messages.usage bound, free]
  simp only [Option.isSome_none, Bool.false_eq_true, if_false, apply_writes_nil]
  rw [out_addMessage holds.bits bound]
  rfl

def MessageSector.pointTo (mSector : MessageSector) (next : Nat) : MessageSector :=
  { mSector with header := { mSector.header with next := BitVec.ofNat 16 next } }

theorem point_message_sector_run (idle : JournalIdle card)
    (holds : Holds db.usageBitmap card view) {prev : Nat} {mSector : MessageSector}
    (found : view.sector prev = some mSector) (next : Nat) :
    ∃ journal bitmap log,
      out (pointMessageSectorToNext next prev) db card =
        ((.strgOk, { db with journal := journal, usageBitmap := bitmap }), log) ∧
      log.length = 5 ∧
      Leads card log bitmap (view.setSector prev (some (mSector.pointTo next)))
        (atCommit 4 view (view.setSector prev (some (mSector.pointTo next)))) := by
  have given : view.sector prev ≠ none := by
    rw [found]
    exact Option.some_ne_none _
  have bound := holds.messages.bound prev given
  have low := message_low bound
  obtain ⟨valid, content⟩ := holds.messages.sectors prev mSector found
  have below : messageDataSector prev < 65536 := by
    simp at bound ⊢
    omega
  have raw : messageRaw prev = messageDataSector prev + dataRegionStartSector := by
    simp [messageRaw]
    omega
  refine ⟨(journalDataInit .message (messageDataSector prev)).committed, db.usageBitmap,
    transactionLog .message (messageDataSector prev) (card (messageRaw prev)) db.usageBitmap
      [(messageRaw prev, sectorCrcStamp (toSector (mSector.pointTo next)))] 1, ?_, rfl, ?_⟩
  · unfold pointMessageSectorToNext
    rw [out_bind_of (out_readMessageSector_stored holds.messages found)]
    dsimp only
    rw [out_bind_of (out_journalAdd _ _ .message _ below)]
    simp only [JrnlType.savesBitmap, if_true, message_stamped holds.bits bound, Bool.not_true,
      Bool.false_eq_true, if_false, content]
    rw [out_bind, out_writeMessageSector _ _ bound]
    simp only [reduceCtorEq, if_false]
    rw [out_bind, out_journalFree]
    rfl
  · refine transaction_leads idle holds (by simp at bound ⊢; omega) ?_ Nat.zero_lt_one
      (holds.undo_message bound fun _ => ⟨rfl, valid⟩) ?_
    · intro entry member
      left
      rw [List.eq_of_mem_singleton member]
      exact ⟨by decide, raw⟩
    · refine holds.message_change bound _ (holds.bits.congr ?_) (fun _ _ => rfl) ?_ ?_ ?_
      · intro target _ high
        exact Function.update_of_ne (by simp only [messageRaw]; omega) _ _
      · intro target _ other
        exact Function.update_of_ne other _ _
      · rw [holds.messages.used prev bound, found]
        rfl
      · rintro stored ⟨rfl⟩
        simp only [apply_writes_cons, apply_writes_nil, Function.update_self]
        exact ⟨stamp_valid _, by rw [of_sector_stamp, of_to_sector]⟩

/-- The new sector stored behind `prev`, and `prev` not yet pointing to it. -/
def View.grown (view : View) (contactIndex prev next : Nat) (message : Message) : View :=
  view.setSector next (some ((createNewMessageSector contactIndex prev).push message))

/-- Views seen when a power cut hits the two transactions of a growing chat. -/
def whileGrowing (view grown linked : View) : Nat → View → Prop :=
  fun count seen => seen = if count ≤ 5 then view else if count ≤ 10 then grown else linked

theorem write_next_message_sector_run (idle : JournalIdle card)
    (holds : Holds db.usageBitmap card view) {prev next : Nat} {mSector : MessageSector}
    (found : view.sector prev = some mSector) (bound : next < totalMessageSectorSize)
    (free : view.sector next = none) (contactIndex : Nat) (message : Message) :
    ∃ journal bitmap log,
      out (writeNextMessageSector contactIndex prev next message) db card =
        ((.strgOk, { db with journal := journal, usageBitmap := bitmap }), log) ∧
      log.length = 11 ∧
      Leads card log bitmap
        ((view.grown contactIndex prev next message).setSector prev
          (some (mSector.pointTo next)))
        (whileGrowing view (view.grown contactIndex prev next message)
          ((view.grown contactIndex prev next message).setSector prev
            (some (mSector.pointTo next)))) := by
  have prevBound := holds.messages.bound prev (by rw [found]; exact Option.some_ne_none _)
  have different : prev ≠ next := by
    rintro rfl
    rw [found] at free
    cases free
  have first := @add_message_leads _ _ _ idle holds _ bound
    (toSector (createNewMessageSector contactIndex prev))
    (fun given => absurd free given)
    ((createNewMessageSector contactIndex prev).push message)
  have stillFound : (view.grown contactIndex prev next message).sector prev = some mSector := by
    rw [View.grown, set_sector_other _ _ different]
    exact found
  have secondRun := @point_message_sector_run
    { db with
      journal := (journalDataInit .message (messageDataSector next)).committed
      usageBitmap := setUsageBit db.usageBitmap (messageDataSector next) true }
    _ _ first.idle first.holds _ _ stillFound next
  obtain ⟨journal, bitmap, log, run, length, second⟩ := secondRun
  refine ⟨journal, bitmap, _, ?_, ?_, (first.append second).mono ?_⟩
  · unfold writeNextMessageSector
    rw [out_bind, out_checkUsageBit, holds.messages.usage bound, free]
    simp only [Option.isSome_none, Bool.false_eq_true, if_false, apply_writes_nil]
    rw [out_bind, out_checkUsageBit, holds.messages.usage prevBound, found]
    simp only [Option.isSome_some, Bool.not_true, Bool.false_eq_true, if_false, apply_writes_nil]
    have below : messageDataSector next < 65536 := by
      simp at bound ⊢
      omega
    rw [out_bind_of (out_journalAdd _ _ .message _ below)]
    simp only [JrnlType.savesBitmap, if_true, message_stamped holds.bits bound, Bool.not_true,
      Bool.false_eq_true, if_false]
    rw [out_bind_of (out_commitMessage _ _ bound _ _)]
    simp only [ne_eq, not_true_eq_false, if_false, ← apply_writes_append]
    have whole : journalAddLog .message (messageDataSector next)
        (toSector (createNewMessageSector contactIndex prev)) db.usageBitmap ++
        (messageWork db.usageBitmap next
          ((createNewMessageSector contactIndex prev).push message) ++
        [(jrnlHeaderSector, sectorCrcStamp (toSector
          (journalDataInit .message (messageDataSector next)).committed))]) =
        transactionLog .message (messageDataSector next)
          (toSector (createNewMessageSector contactIndex prev)) db.usageBitmap
          (messageWork db.usageBitmap next
            ((createNewMessageSector contactIndex prev).push message)) 1 := rfl
    rw [whole, run, ← whole]
    simp only [List.nil_append, List.append_assoc]
  · rw [List.length_append, length]
    rfl
  · rintro count seen (⟨early, known⟩ | ⟨late, known⟩)
    · change count ≤ 6 at early
      rw [atCommit] at known
      rw [whileGrowing, known]
      by_cases inFirst : count ≤ 5
      · rw [if_pos inFirst, if_pos inFirst]
      · rw [if_neg inFirst, if_neg inFirst, if_pos (show count ≤ 10 by omega)]
        rfl
    · change 6 ≤ count at late
      change seen = if count - 6 ≤ 4 then _ else _ at known
      rw [whileGrowing, known, if_neg (show ¬count ≤ 5 by omega)]
      by_cases inSecond : count ≤ 10
      · rw [if_pos inSecond, if_pos (show count - 6 ≤ 4 by omega)]
        rfl
      · rw [if_neg inSecond, if_neg (show ¬count - 6 ≤ 4 by omega)]
        rfl

end Runs

end SdDatabase
