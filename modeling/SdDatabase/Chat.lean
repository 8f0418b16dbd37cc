import SdDatabase.MessageStore

/-!
# Chats as chains of sectors

A chat is the list of its sectors from the newest to the oldest, each naming the
next older one. Reading walks the list and copies messages out; removal clears
the sectors one transaction at a time from the newest.
-/

namespace SdDatabase

open Bytes Device

set_option autoImplicit false

/-- The sectors reached from `start` along `prev`, newest first. -/
def PrevChain (sector : Nat → Option MessageSector) : Nat → List Nat → Prop
  | start, [] => start = uint16Max
  | start, index :: rest =>
      start = index ∧ ∃ mSector, sector index = some mSector ∧
        PrevChain sector mSector.header.prev.toNat rest

theorem PrevChain.stored {sector : Nat → Option MessageSector} {start : Nat} {chain : List Nat}
    (linked : PrevChain sector start chain) : ∀ index ∈ chain, sector index ≠ none := by
  induction chain generalizing start with
  | nil => simp
  | cons head rest ih =>
      obtain ⟨_, mSector, found, older⟩ := linked
      intro index member
      rcases List.mem_cons.mp member with rfl | member
      · rw [found]
        exact Option.some_ne_none _
      · exact ih older index member

theorem PrevChain.congr {sector other : Nat → Option MessageSector} {start : Nat}
    {chain : List Nat} (linked : PrevChain sector start chain)
    (same : ∀ index ∈ chain, other index = sector index) : PrevChain other start chain := by
  induction chain generalizing start with
  | nil => exact linked
  | cons head rest ih =>
      obtain ⟨starts, mSector, found, older⟩ := linked
      refine ⟨starts, mSector, by rw [same head (by simp)]; exact found, ?_⟩
      exact ih older fun index member => same index (by simp [member])

/-- The first `count` messages of a sector, newest first. -/
def newestFirst (mSector : MessageSector) (count : Nat) : List Message :=
  (List.range count).reverse.map fun slot => arrayGet mSector.messages slot .zero

def MessageSector.newest (mSector : MessageSector) : List Message :=
  newestFirst mSector mSector.header.msgCount.toNat

def chatMessages (sector : Nat → Option MessageSector) (chain : List Nat) : List Message :=
  chain.flatMap fun index =>
    match sector index with
    | some mSector => mSector.newest
    | none => []

/-- Every sector holds between one message and as many as fit. -/
def Counted (sector : Nat → Option MessageSector) (chain : List Nat) : Prop :=
  ∀ index ∈ chain, ∀ mSector, sector index = some mSector →
    0 < mSector.header.msgCount.toNat ∧ mSector.header.msgCount.toNat ≤ messageSectorCapacity

theorem newest_first_succ (mSector : MessageSector) (count : Nat) :
    newestFirst mSector (count + 1) =
      arrayGet mSector.messages count .zero :: newestFirst mSector count := by
  simp [newestFirst, List.range_succ]

theorem newest_first_length (mSector : MessageSector) (count : Nat) :
    (newestFirst mSector count).length = count := by
  simp [newestFirst]

theorem newest_first_drop (mSector : MessageSector) (count skipped : Nat)
    (bound : skipped ≤ count) :
    (newestFirst mSector count).drop skipped = newestFirst mSector (count - skipped) := by
  induction skipped generalizing count with
  | zero => rfl
  | succ skipped ih =>
      obtain ⟨fewer, rfl⟩ : ∃ fewer, count = fewer + 1 := ⟨count - 1, by omega⟩
      rw [newest_first_succ, List.drop_succ_cons, ih fewer (by omega)]
      congr 1
      omega

theorem copy_messages_eq (n : Nat) (mSector : MessageSector) (count : Nat)
    (read : List Message) :
    copyMessages n mSector count read =
      read ++ (newestFirst mSector count).take (n - read.length) := by
  induction count generalizing read with
  | zero => simp [copyMessages, newestFirst]
  | succ count ih =>
      rw [copyMessages, newest_first_succ]
      by_cases more : read.length < n
      · obtain ⟨left, count_⟩ : ∃ left, n - read.length = left + 1 := ⟨n - read.length - 1, by omega⟩
        have fewer : n - (read.length + 1) = left := by omega
        rw [if_pos more, ih, count_, List.take_succ_cons]
        simp [fewer]
      · have none_ : n - read.length = 0 := by omega
        rw [if_neg more, none_, List.take_zero, List.append_nil]

def SectorsStored (bitmap : UsageBitmap) (card : Card Sector)
    (sector : Nat → Option MessageSector) : Prop :=
  ∀ index mSector, sector index = some mSector →
    index < totalMessageSectorSize ∧ usageBit bitmap (messageDataSector index) = true ∧
      sectorCrcValid (card (messageRaw index)) = true ∧ ofSector (card (messageRaw index)) = mSector

theorem MessagesHold.stored {bitmap : UsageBitmap} {card : Card Sector}
    {sector : Nat → Option MessageSector} (messages : MessagesHold bitmap card sector) :
    SectorsStored bitmap card sector := by
  intro index mSector found
  have bound := messages.bound index (by rw [found]; exact Option.some_ne_none _)
  refine ⟨bound, ?_, messages.sectors index mSector found⟩
  rw [messages.used index bound, found]
  rfl

section Reading

variable {db : Database} {card : Card Sector} {sector : Nat → Option MessageSector}

theorem SectorsStored.not_end (stored : SectorsStored db.usageBitmap card sector) {index : Nat}
    {mSector : MessageSector} (found : sector index = some mSector) : index ≠ uint16Max := by
  have bound := (stored index mSector found).1
  simp at bound ⊢
  omega

theorem SectorsStored.out_visit {A : Type} (stored : SectorsStored db.usageBitmap card sector)
    {index : Nat} {mSector : MessageSector} (found : sector index = some mSector) (unused : A)
    (failed : StrgRet → A) (rest : Sector → DbM A) :
    out (do
      if !(← checkUsageBit (messageDataSector index)) then
        return unused
      match ← readMessageSector index with
      | .error ret => return failed ret
      | .ok content => rest content) db card =
        out (rest (card (messageRaw index))) db card := by
  obtain ⟨bound, used, valid, _⟩ := stored index mSector found
  rw [out_bind, out_checkUsageBit, message_narrow bound, used]
  simp only [Bool.not_true, Bool.false_eq_true, if_false, apply_writes_nil, List.nil_append]
  rw [out_bind_of (out_readMessageSector db card bound), valid]
  rfl

theorem out_readMessageSectors (stored : SectorsStored db.usageBitmap card sector)
    (n : Nat) {start : Nat} {chain : List Nat} (hops : Nat) (read : List Message)
    (linked : PrevChain sector start chain) (counted : Counted sector chain)
    (enough : chain.length ≤ hops) :
    out (readMessageSectors n hops start read) db card =
      ((((.strgOk : StrgRet), read ++ (chatMessages sector chain).take (n - read.length)),
        db), []) := by
  induction chain generalizing start hops read with
  | nil =>
      have ends : start = uint16Max := linked
      unfold readMessageSectors
      rw [if_pos ends]
      split <;> simp [chatMessages]
  | cons index rest ih =>
      obtain ⟨rfl, mSector, found, older⟩ := linked
      have notEnd := stored.not_end found
      obtain ⟨fewer, rfl⟩ : ∃ fewer, hops = fewer + 1 :=
        ⟨hops - 1, by simp at enough; omega⟩
      have count := counted start (by simp) mSector found
      have content := (stored start mSector found).2.2.2
      have countedRest : Counted sector rest :=
        fun other member => counted other (by simp [member])
      unfold readMessageSectors
      by_cases full : n ≤ read.length
      · have none_ : n - read.length = 0 := by omega
        simp [full, none_]
      · rw [if_neg full, if_neg notEnd]
        refine (stored.out_visit found _ _ _).trans ?_
        simp only [content, readMessagesFromSector, if_neg (not_lt.mpr count.2)]
        rw [copy_messages_eq, ih fewer _ older countedRest (by simpa using enough)]
        have flat : chatMessages sector (start :: rest) =
            mSector.newest ++ chatMessages sector rest := by
          simp [chatMessages, found]
        have lengths : mSector.newest.length = mSector.header.msgCount.toNat :=
          newest_first_length _ _
        have amount : n - (read ++ (newestFirst mSector mSector.header.msgCount.toNat).take
            (n - read.length)).length = n - read.length - mSector.header.msgCount.toNat := by
          rw [List.length_append, List.length_take, newest_first_length]
          omega
        rw [flat, List.take_append, lengths, amount, List.append_assoc]
        rfl

/-- The search stops in the sector of the first message asked for. -/
theorem out_findMessageNIndex (stored : SectorsStored db.usageBitmap card sector)
    (startMsg : Nat) {start : Nat} {chain : List Nat} (hops passed : Nat)
    (linked : PrevChain sector start chain) (counted : Counted sector chain)
    (enough : chain.length ≤ hops) (ahead : passed ≤ startMsg) :
    (startMsg - passed < (chatMessages sector chain).length ∧
      ∃ index mSector rest left offset,
        out (findMessageNIndex startMsg hops start passed) db card =
          ((.ok ⟨left, offset, mSector⟩, db), []) ∧
        index :: rest <:+ chain ∧ sector index = some mSector ∧
        PrevChain sector mSector.header.prev.toNat rest ∧ rest.length ≤ left ∧
        offset < mSector.header.msgCount.toNat ∧
        (chatMessages sector chain).drop (startMsg - passed) =
          newestFirst mSector (offset + 1) ++ chatMessages sector rest) ∨
    ((chatMessages sector chain).length ≤ startMsg - passed ∧
      out (findMessageNIndex startMsg hops start passed) db card =
        ((.error .strgFail, db), [])) := by
  induction chain generalizing start hops passed with
  | nil =>
      have ends : start = uint16Max := linked
      right
      refine ⟨by simp [chatMessages], ?_⟩
      unfold findMessageNIndex
      cases hops with
      | zero => rfl
      | succ hops => simp [ends]
  | cons index rest ih =>
      obtain ⟨rfl, mSector, found, older⟩ := linked
      have notEnd := stored.not_end found
      obtain ⟨fewer, rfl⟩ : ∃ fewer, hops = fewer + 1 :=
        ⟨hops - 1, by simp at enough; omega⟩
      have count := counted start (by simp) mSector found
      have content := (stored start mSector found).2.2.2
      have countedRest : Counted sector rest :=
        fun other member => counted other (by simp [member])
      have flat : chatMessages sector (start :: rest) =
          mSector.newest ++ chatMessages sector rest := by
        simp [chatMessages, found]
      have lengths : mSector.newest.length = mSector.header.msgCount.toNat :=
        newest_first_length _ _
      have step : out (findMessageNIndex startMsg (fewer + 1) start passed) db card =
          out (if passed + mSector.header.msgCount.toNat ≤ startMsg then
            findMessageNIndex startMsg fewer mSector.header.prev.toNat
              (passed + mSector.header.msgCount.toNat)
          else return .ok ⟨fewer,
            (passed + mSector.header.msgCount.toNat - 1 - startMsg) % 256, mSector⟩) db card := by
        rw [findMessageNIndex, if_neg notEnd]
        refine (stored.out_visit found _ _ _).trans ?_
        simp only [content]
      rw [step]
      by_cases further : passed + mSector.header.msgCount.toNat ≤ startMsg
      · have skip : startMsg - passed = mSector.newest.length +
            (startMsg - (passed + mSector.header.msgCount.toNat)) := by
          rw [lengths]
          omega
        rw [if_pos further]
        rcases ih fewer (passed + mSector.header.msgCount.toNat) older countedRest
            (by simpa using enough) further with
          ⟨inside, other, otherSector, others, left, offset, run, suffix, reached, linked, hopsLeft,
            offsetBound, dropped⟩ | ⟨outside, run⟩
        · left
          refine ⟨by rw [flat, List.length_append, lengths]; omega, other, otherSector, others,
            left, offset, run, suffix.trans (List.suffix_cons _ _), reached, linked, hopsLeft,
            offsetBound, ?_⟩
          rw [flat, skip, List.drop_length_add_append]
          exact dropped
        · right
          refine ⟨by rw [flat, List.length_append, lengths]; omega, run⟩
      · left
        have capacity : messageSectorCapacity = 3 := by simp
        have small : (passed + mSector.header.msgCount.toNat - 1 - startMsg) % 256 =
            passed + mSector.header.msgCount.toNat - 1 - startMsg := by
          apply Nat.mod_eq_of_lt
          omega
        rw [if_neg further, small]
        refine ⟨by rw [flat, List.length_append, lengths]; omega, start, mSector, rest, fewer, _,
          rfl, List.suffix_refl _, found, older, by simpa using enough, by omega, ?_⟩
        rw [flat, List.drop_append_of_le_length (by rw [lengths]; omega), MessageSector.newest,
          newest_first_drop _ _ _ (by omega)]
        congr 2
        omega

/-- `read_n_messages` on a chat returns the messages asked for. -/
theorem out_readNMessages (stored : SectorsStored db.usageBitmap card sector)
    {start : Nat} {chain : List Nat} (linked : PrevChain sector start chain)
    (counted : Counted sector chain) (short : chain.length ≤ totalMessageSectorSize)
    (startMsg n : Nat) :
    out (readNMessages start startMsg n) db card =
      ((if n = 0 ∨ chain = [] then (.strgOk, [])
        else if (chatMessages sector chain).length ≤ startMsg then (.strgFail, [])
        else (.strgOk, ((chatMessages sector chain).drop startMsg).take n), db), []) := by
  unfold readNMessages
  by_cases none_ : n = 0
  · simp [none_]
  · by_cases empty : chain = []
    · rw [empty] at linked
      have ends : start = uint16Max := linked
      simp [ends, empty]
    · have notEnd : start ≠ uint16Max := by
        obtain ⟨index, rest, rfl⟩ := List.exists_cons_of_ne_nil empty
        obtain ⟨rfl, mSector, found, _⟩ := linked
        exact stored.not_end found
      rw [if_neg none_, if_neg notEnd, if_neg (by simp [none_, empty])]
      rcases out_findMessageNIndex stored startMsg totalMessageSectorSize 0 linked counted short
          (Nat.zero_le _) with
        ⟨inside, index, mSector, rest, left, offset, run, suffix, reached, older, hopsLeft,
          offsetBound, dropped⟩ | ⟨outside, run⟩
      · have count := counted index (suffix.subset (by simp)) mSector reached
        have countedRest : Counted sector rest :=
          fun other member => counted other (suffix.subset (by simp [member]))
        rw [Nat.sub_zero] at inside dropped
        rw [out_bind_of run, if_neg (not_le.mpr inside)]
        have readable : ¬(mSector.header.msgCount.toNat ≤ offset ∨
            messageSectorCapacity < mSector.header.msgCount.toNat) := by omega
        simp only [readMessagesFromPInSector, if_neg readable, apply_writes_nil]
        rw [out_readMessageSectors stored n left _ older countedRest hopsLeft, copy_messages_eq,
          dropped, List.take_append, newest_first_length]
        have amount : n - ([] ++ (newestFirst mSector (offset + 1)).take
            (n - ([] : List Message).length)).length = n - (offset + 1) := by
          rw [List.nil_append, List.length_take, newest_first_length, List.length_nil]
          omega
        rw [amount]
        rfl
      · rw [Nat.sub_zero] at outside
        rw [out_bind_of run, if_pos outside]
        rfl

end Reading

def View.clearSectors (view : View) (chain : List Nat) : View :=
  { view with sector := fun index => if index ∈ chain then none else view.sector index }

theorem clear_sectors_nil (view : View) : view.clearSectors [] = view := by
  simp [View.clearSectors]

theorem clear_sectors_cons (view : View) (index : Nat) (rest : List Nat) :
    view.clearSectors (index :: rest) = (view.setSector index none).clearSectors rest := by
  unfold View.clearSectors View.setSector
  congr 1
  funext other
  by_cases same : other = index
  · simp [same]
  · simp [same]

section Removal

variable {db : Database} {card : Card Sector} {view : View}

theorem remove_message_sector_run (idle : JournalIdle card)
    (holds : Holds db.usageBitmap card view) {index : Nat} {mSector : MessageSector}
    (found : view.sector index = some mSector) :
    ∃ journal bitmap log,
      out (removeMessageSector index) db card =
        ((.ok mSector,
          { db with
            journal := journal
            usageBitmap := bitmap
            messageAllocator := freeListFree db.messageAllocator index }), log) ∧
      log.length = 5 ∧
      Leads card log bitmap (view.setSector index none)
        (atCommit 4 view (view.setSector index none)) := by
  have bound := holds.messages.bound index (by rw [found]; exact Option.some_ne_none _)
  have low := message_low bound
  have below : messageDataSector index < 65536 := by
    simp at bound ⊢
    omega
  obtain ⟨valid, content⟩ := holds.messages.sectors index mSector found
  refine ⟨(journalDataInit .message (messageDataSector index)).committed,
    setUsageBit db.usageBitmap (messageDataSector index) false,
    transactionLog .message (messageDataSector index) (card (messageRaw index)) db.usageBitmap
      (bitWork db.usageBitmap (messageDataSector index) false) 1, ?_, rfl, ?_⟩
  · unfold removeMessageSector
    rw [out_bind, out_checkUsageBit, holds.messages.usage bound, found]
    simp only [Option.isSome_some, Bool.not_true, Bool.false_eq_true, if_false, apply_writes_nil]
    rw [out_bind_of (out_readMessageSector_stored holds.messages found)]
    dsimp only
    rw [out_bind_of (out_journalAdd _ _ .message _ below)]
    simp only [JrnlType.savesBitmap, if_true, message_stamped holds.bits bound, Bool.not_true,
      Bool.false_eq_true, if_false]
    rw [out_bind, out_updateUsageBit, message_narrow bound]
    simp only [ne_eq, not_true_eq_false, if_false]
    rw [out_bind, out_journalFree]
    simp only [not_true_eq_false, if_false, content]
    rfl
  · refine transaction_leads idle holds (by simp at bound ⊢; omega) ?_ Nat.zero_lt_one
      (holds.undo_message bound fun _ => ⟨rfl, valid⟩) ?_
    · intro entry member
      right
      rw [List.eq_of_mem_singleton member]
      exact ⟨rfl, rfl⟩
    · refine holds.message_change bound none (holds.bits.set false low) ?_ ?_ ?_ ?_
      · intro dataSector other
        rw [usage_bit_set, if_neg other]
      · intro target range _
        exact bit_work_other false low range
      · rw [usage_bit_set, if_pos rfl]
        rfl
      · intro stored impossible
        cases impossible

/-- Removing a whole chat: a cut leaves it without the newest sectors, of which
every five writes remove one. -/
theorem remove_message_chat_loop_run (fuel : Nat) {start : Nat} {chain : List Nat}
    (idle : JournalIdle card) (holds : Holds db.usageBitmap card view)
    (linked : PrevChain view.sector start chain) (separate : chain.Nodup)
    (enough : chain.length < fuel) :
    ∃ journal bitmap log,
      out (removeMessageChatLoop fuel start) db card =
        ((true,
          { db with
            journal := journal
            usageBitmap := bitmap
            messageAllocator := chain.foldl freeListFree db.messageAllocator }), log) ∧
      log.length = 5 * chain.length ∧
      Leads card log bitmap (view.clearSectors chain)
        fun count seen => seen = view.clearSectors (chain.take (count / 5)) := by
  induction chain generalizing fuel start db card view with
  | nil =>
      obtain ⟨fewer, rfl⟩ : ∃ fewer, fuel = fewer + 1 := ⟨fuel - 1, by simp at enough; omega⟩
      have ends : start = uint16Max := linked
      refine ⟨db.journal, db.usageBitmap, [], ?_, rfl, ?_⟩
      · simp [removeMessageChatLoop, ends]
      · rw [clear_sectors_nil]
        exact leads_nil idle holds fun count => by rw [List.take_nil, clear_sectors_nil]
  | cons index rest ih =>
      obtain ⟨fewer, rfl⟩ : ∃ fewer, fuel = fewer + 1 := ⟨fuel - 1, by simp at enough; omega⟩
      obtain ⟨rfl, mSector, found, older⟩ := linked
      have bound := holds.messages.bound start (by rw [found]; exact Option.some_ne_none _)
      have notEnd : start ≠ uint16Max := by
        simp at bound ⊢
        omega
      have apart : start ∉ rest := (List.nodup_cons.mp separate).1
      obtain ⟨journal, bitmap, log, run, length, first⟩ :=
        remove_message_sector_run idle holds found
      have olderKept : PrevChain (view.setSector start none).sector
          mSector.header.prev.toNat rest := by
        refine older.congr fun other member => set_sector_other _ _ ?_
        rintro rfl
        exact apart member
      obtain ⟨lastJournal, lastBitmap, lastLog, lastRun, lastLength, second⟩ := @ih
        { db with
          journal := journal
          usageBitmap := bitmap
          messageAllocator := freeListFree db.messageAllocator start }
        _ _ fewer _ first.idle first.holds olderKept (List.nodup_cons.mp separate).2
        (by simpa using enough)
      refine ⟨lastJournal, lastBitmap, log ++ lastLog, ?_, ?_, ?_⟩
      · rw [removeMessageChatLoop, if_neg notEnd, out_bind_of run]
        dsimp only
        rw [lastRun]
        rfl
      · rw [List.length_append, length, lastLength, List.length_cons]
        omega
      · rw [clear_sectors_cons]
        refine (first.append second).mono ?_
        rw [length]
        rintro count seen (⟨early, known⟩ | ⟨late, known⟩)
        · by_cases inFirst : count ≤ 4
          · rw [known, if_pos inFirst, show count / 5 = 0 by omega, List.take_zero,
              clear_sectors_nil]
          · rw [known, if_neg inFirst, show count / 5 = 1 by omega, List.take_succ_cons,
              clear_sectors_cons, List.take_zero, clear_sectors_nil]
        · rw [known, show count / 5 = (count - 5) / 5 + 1 by omega, List.take_succ_cons,
            clear_sectors_cons]

end Removal

end SdDatabase
