import SdDatabase.JournalCalls
import SdDatabase.HistoryFaults

/-!
# Rolling back after failed writes

Calls go on after some of their writes failed, until the power is cut. The next
start-up then rolls back with the copies that were made for the header on the
card, as long as no copy was written over those of a transaction that a failed
write had left active.
-/

namespace SdDatabase

open Bytes Device

set_option autoImplicit false

/-- Calls one after the other, whatever each of them returns. -/
def performCalls : List Call → DbM PUnit
  | [] => return PUnit.unit
  | call :: rest => do
      let _ ← call.run
      performCalls rest

/-- The pattern of the failing writes, and of a power cut before write number `count`. -/
def cutAt (count : Nat) (writes : Nat → Bool) : Nat → Bool :=
  fun index => decide (index < count) && writes index

def Machine.attempted (machine : Machine) (calls : List Call) (writes : Nat → Bool) :
    List (Attempt Sector) :=
  (attempts (performCalls calls) machine.db writes machine.card).2

/-- If the calls leave an active header on the card, then it is that of the last transaction
that was written to the journal, and the next start-up rolls back with what `journal_add`
saved for it. -/
def Machine.RestoresOwn (machine : Machine) (calls : List Call) (writes : Nat → Bool) : Prop :=
  let final := (machine.attempt (performCalls calls) writes).2.card
  journalHeaderStatus (final jrnlHeaderSector) = .rollback →
    ∃ entry : JournalEntry, entry.LastIn (acceptedWrites (machine.attempted calls writes)) ∧
      headerOn final = journalDataInit entry.type entry.index ∧
      ∀ memory, out journalInit memory final =
        ((true, { memory with journal := (journalDataInit entry.type entry.index).committed }),
          entry.restores)

theorem orderly_performCalls (calls : List Call) : Orderly (performCalls calls) := by
  induction calls with
  | nil => exact orderly_pure _
  | cons call rest ih => exact (orderly_call call).bind fun _ => ih

theorem Machine.attempt_card (machine : Machine) (calls : List Call) (writes : Nat → Bool) :
    (machine.attempt (performCalls calls) writes).2.card =
      applyWrites (acceptedWrites (machine.attempted calls writes)) machine.card := by
  rw [Machine.attempt, exec_attempts]
  rfl

theorem ring_in_region_start : RingInRegion (ringPosition 0) where
  size := le_refl _
  occupancy := Nat.zero_le _
  current := Nat.zero_le _

theorem format_confined : Confined formattedDatabase where
  contacts slot := by
    have bound : (0 : Nat) < 65536 := by decide
    exact bound
  chats slot := by
    have none_ : MessageInRegion 0 := by
      unfold MessageInRegion
      decide
    exact none_
  freeContacts index member := by
    have below := (((freelist_range hashTableEntries).mem index).mp member).1
    have count : hashTableEntries = 10000 := rfl
    omega
  freeMessages index member := by
    have below := (((freelist_range totalMessageSectorSize).mem index).mp member).1
    have count : totalMessageSectorSize = 28586 := rfl
    have place : messageDataSector index = 1667 + index := rfl
    unfold MessageInRegion
    rw [place, u16_of_lt (by omega)]
    simp
    omega
  bits dataSector _ used := by
    have unused : usageBit formattedDatabase.usageBitmap dataSector = false :=
      format_bitmap_bit dataSector
    rw [unused] at used
    cases used
  messages := ring_in_region_start
  calls := ring_in_region_start

theorem format_not_active (machine : Machine) :
    journalHeaderStatus (machine.format.card jrnlHeaderSector) ≠ .rollback := by
  have idle := format_idle machine.card
  rw [JournalIdle] at idle
  rw [Machine.format_eq]
  dsimp only
  rw [idle]
  exact fun same => by cases same

/-- Whichever writes fail and wherever the power is cut, a rollback restores what was saved for
its own transaction, if no copy was written while the header on the card was active. -/
theorem rollback_restores_own (machine : Machine) (calls : List Call) (writes : Nat → Bool)
    (count : Nat)
    (spared : SparesCopies (machine.format.attempted calls (cutAt count writes))
      machine.format.card) :
    machine.format.RestoresOwn calls (cutAt count writes) := by
  have confined : Confined machine.format.db := by
    rw [Machine.format_eq]
    exact format_confined
  have lawful := (orderly_performCalls calls machine.format.db (cutAt count writes)
    machine.format.card confined).2
  have coherent := lawful.coherent spared
    (@coherent_of_idle [] _ (format_not_active machine))
  unfold Machine.RestoresOwn
  dsimp only
  rw [Machine.attempt_card]
  intro active
  obtain ⟨entry, last, saved⟩ := coherent active
  rw [List.nil_append] at last
  exact ⟨entry, last, saved.head, fun memory => saved.rolls_back memory⟩

section Round

variable {E : Type} {layout : HistoryLayout E} (frame : layout.Frame) {db : Database}
  {card : Card Sector} {writes : Nat → Bool} {rb : RingBuffer}
  (opened : openedRing (layout.ring db) = rb) (region : ringRaw layout rb.currentIndex < 65536)
  (valid : sectorCrcValid (card (ringRaw layout rb.currentIndex)) = true)

include frame opened region valid

/-- An add that ends at a failed write of its only transaction. -/
theorem attempts_historyAdd (entry : E) {header : RingBufferHeader}
    (step : historyStep layout.capacity rb
      (ringHeader (card (ringRaw layout rb.currentIndex))) = .store header) {count : Nat}
    (within : count < 4) (accepted : ∀ index < count, writes index = true)
    (fails : writes count = false) :
    ∃ journal, attempts (historyAdd layout entry) db writes card =
      ((.strgFail, { layout.setRing rb db with journal := journal }),
        triedWrites (replaceLog layout db.usageBitmap card rb.currentIndex
          (storedSector layout (card (ringRaw layout rb.currentIndex)) header entry)) writes) := by
  have run := out_history_store frame opened region valid step entry ((layout.ring db).size + 1)
  have whole : out (historyAdd layout entry) db card =
      out (historyAddLoop layout entry ((layout.ring db).size + 2)) db card := out_historyAdd entry
  obtain ⟨journal, stops⟩ := refused_round frame opened region valid entry
    ((layout.ring db).size + 1) (by rw [step]; exact fun same => by cases same) within
  have ends : refused (historyAdd layout entry) db card count =
      .done (.strgFail, { layout.setRing rb db with journal := journal }) :=
    (refused_historyAdd entry count).trans stops
  rw [run] at whole
  refine ⟨journal, ?_⟩
  rw [attempts_stops (by rw [whole, replace_log_eq frame]; exact within) accepted fails ends,
    whole]

end Round

/-- The writes for a call from an unknown number whose entry goes into the first sector. -/
def callLog (content stored : Sector) : WriteLog Sector :=
  [(jrnlContentSector, sectorCrcStamp content),
    (jrnlHeaderSector, sectorCrcStamp (toSector (journalDataInit .callHist 35253))),
    (35265, stored),
    (jrnlHeaderSector, sectorCrcStamp (toSector (journalDataInit .callHist 35253).committed))]

def unknownCall (number : List Byte) : CallHistoryEntry :=
  ⟨BitVec.ofNat 16 uint16Max, createContact [] number, 0#8⟩

theorem attempts_callAdd {db : Database} {card : Card Sector} {writes : Nat → Bool}
    {phone : Option CString} {number : List Byte} {header : RingBufferHeader} {count : Nat}
    (given : validPhone phone = some number) (table : db.htable = hashInit hashTableSize)
    (unused : ∀ dataSector, usageBit db.usageBitmap dataSector = false)
    (opened : openedRing db.callHistory = ringPosition 1)
    (valid : sectorCrcValid (card 35265) = true)
    (step : historyStep callHistoryLayout.capacity (ringPosition 1) (ringHeader (card 35265)) =
      .store header) (within : count < 4)
    (accepted : ∀ index < count, writes index = true) (fails : writes count = false) :
    ∃ journal, attempts (Call.run (.callAdd phone)) db writes card =
      ((.status .strgFail,
        { callHistoryLayout.setRing (ringPosition 1) db with journal := journal }),
        triedWrites (callLog (card 35265)
          (storedSector callHistoryLayout (card 35265) header (unknownCall number))) writes) := by
  have contacts : ContactsHold db.usageBitmap card blankView.contact := by
    constructor
    · exact fun slot stored => absurd rfl stored
    · intro physSector _
      rw [unused]
      simp [blankView]
    · intro physSector _ used
      rw [unused] at used
      cases used
  have holds : TableHolds db.htable blankView.contact fun _ => 0 := by
    rw [table]
    exact hash_init_holds fun _ => rfl
  have find : out (findOccupied number) db card = ((.error .strgEmpty, db), []) := by
    rw [findOccupied, out_bind_of (out_findOccupied_absent holds contacts (fun _ _ => id)
      fun sector other stored => by cases stored)]
    rfl
  obtain ⟨journal, run⟩ := attempts_historyAdd callHistoryFrame opened (by decide) valid
    (unknownCall number) step within accepted fails
  refine ⟨journal, ?_⟩
  have add : attempts (databaseCallAdd phone) db writes card =
      attempts (historyAdd callHistoryLayout (unknownCall number)) db writes card := by
    unfold databaseCallAdd
    simp only [given]
    rw [attempts_bind_pure _ _ _ (attempts_of_out _ _ _ find)]
    rfl
  unfold Call.run
  dsimp only
  rw [attempts_bind, add, run, replace_log_eq callHistoryFrame]
  simp only [attempts_pure, List.append_nil]
  rfl

theorem Machine.attempted_cons {machine : Machine} {call : Call} {rest : List Call}
    {writes : Nat → Bool} {reply : Reply} {next : Database} {trace : List (Attempt Sector)}
    (run : attempts call.run machine.db writes machine.card = ((reply, next), trace)) :
    machine.attempted (call :: rest) writes =
      trace ++ (Machine.mk next (applyWrites (acceptedWrites trace) machine.card)).attempted rest
        (dropWrites trace.length writes) := by
  rw [Machine.attempted, performCalls, attempts_bind, run]
  rfl

def oneEntryHeader : RingBufferHeader := firstHeader RingBufferSector.zero.header 1

def firstCallSector : Sector :=
  storedSector callHistoryLayout blankRingBlock oneEntryHeader (unknownCall exampleText.val)

theorem first_call_header : ringHeader firstCallSector = oneEntryHeader :=
  stored_header callHistoryFrame _ _ _

theorem format_call_ring : exampleMachine.format.card 35265 = blankRingBlock := by
  rw [Machine.format_eq]
  dsimp only
  rw [format_log_apply, if_neg (by decide), if_pos (by decide)]

theorem first_call {writes : Nat → Bool} {count : Nat} (within : count < 4)
    (accepted : ∀ index < count, writes index = true) (fails : writes count = false) :
    ∃ journal, attempts (Call.run (.callAdd (some exampleText))) exampleMachine.format.db writes
        exampleMachine.format.card =
      ((.status .strgFail, { formattedDatabase with
          callHistory := ringPosition 1
          journal := journal }),
        triedWrites (callLog blankRingBlock firstCallSector) writes) := by
  have stored := format_call_ring
  rw [Machine.format_eq] at stored ⊢
  dsimp only at stored ⊢
  have step : historyStep callHistoryLayout.capacity (ringPosition 1)
      (ringHeader blankRingBlock) = .store oneEntryHeader := by
    rw [blank_ring_header]
    rfl
  rw [← stored] at step
  have given : validPhone (some exampleText) = some exampleText.val := by decide
  have run := @attempts_callAdd formattedDatabase _ writes _ _ _ _ given rfl
    format_bitmap_bit (opened_position 0) (by rw [stored]; exact stamp_valid _) step within
    accepted fails
  rw [stored] at run
  exact run

/-- The power is cut before the fourth write of the first call. -/
theorem first_call_cut :
    exampleMachine.format.attempted [.callAdd (some exampleText)] (cutAt 3 fun _ => true) =
      triedWrites (callLog blankRingBlock firstCallSector) (cutAt 3 fun _ => true) := by
  obtain ⟨journal, run⟩ := @first_call (cutAt 3 fun _ => true) 3 (by decide)
    (fun index below => by simp [cutAt, below]) rfl
  rw [Machine.attempted_cons run]
  exact List.append_nil _

theorem rollback_restores_own_example :
    exampleMachine.format.RestoresOwn [.callAdd (some exampleText)] (cutAt 3 fun _ => true) ∧
      journalHeaderStatus ((exampleMachine.format.attempt
        (performCalls [.callAdd (some exampleText)]) (cutAt 3 fun _ => true)).2.card
          jrnlHeaderSector) = .rollback := by
  constructor
  · apply rollback_restores_own
    rw [first_call_cut]
    refine ⟨fun _ _ => format_not_active exampleMachine, ?_, ?_, ?_, trivial⟩
    · intro _ copy
      exact absurd copy (by decide)
    · intro _ copy
      exact absurd copy (by decide)
    · intro _ copy
      exact absurd copy (by decide)
  · rw [Machine.attempt_card, first_call_cut]
    exact header_status_active .callHist 35253

/-- The commit of the first call fails, and the power is cut behind the first write of the
second one. -/
def failsAndCut : Nat → Bool := cutAt 5 (failingAt 3)

/-- The writes of the two calls that took effect. -/
def twoCallsLog : WriteLog Sector :=
  [(jrnlContentSector, sectorCrcStamp blankRingBlock),
    (jrnlHeaderSector, sectorCrcStamp (toSector (journalDataInit .callHist 35253))),
    (35265, firstCallSector), (jrnlContentSector, sectorCrcStamp firstCallSector)]

theorem two_calls_accepted :
    acceptedWrites (exampleMachine.format.attempted
      [.callAdd (some exampleText), .callAdd (some exampleText)] failsAndCut) = twoCallsLog := by
  have before : ∀ index < 3, failsAndCut index = true := by decide
  obtain ⟨journal, run⟩ := first_call (by decide) before rfl
  have given : validPhone (some exampleText) = some exampleText.val := by decide
  rw [Machine.attempted_cons run]
  generalize left : applyWrites (acceptedWrites (triedWrites
    (callLog blankRingBlock firstCallSector) failsAndCut)) exampleMachine.format.card = card
  have stored : card 35265 = firstCallSector := by
    rw [← left]
    rfl
  have step : historyStep callHistoryLayout.capacity (ringPosition 1) (ringHeader (card 35265)) =
      .store { oneEntryHeader with head := 1#8 } := by
    rw [stored, first_call_header]
    rfl
  obtain ⟨_, again⟩ := @attempts_callAdd
    { formattedDatabase with callHistory := ringPosition 1, journal := journal } card
    (dropWrites 4 failsAndCut) _ _ _ 1 given rfl format_bitmap_bit (opened_position 1)
    (by rw [stored]; exact stamp_valid _) step (by decide) (by decide) rfl
  rw [stored] at again
  have dropped : (triedWrites (callLog blankRingBlock firstCallSector) failsAndCut).length = 4 :=
    rfl
  rw [dropped, Machine.attempted_cons again, accepted_writes_append, accepted_writes_append]
  rfl

/-- The copy before the only header is the first write. -/
theorem two_calls_copy {before after : WriteLog Sector} {copy header : Sector}
    (split : twoCallsLog =
      before ++ [(jrnlContentSector, copy), (jrnlHeaderSector, header)] ++ after) :
    copy = sectorCrcStamp blankRingBlock := by
  cases before with
  | nil => exact (congrArg Prod.snd (List.cons.inj split).1).symm
  | cons first before =>
      have tail := (List.cons.inj split).2
      cases before with
      | nil =>
          have place := congrArg Prod.fst (List.cons.inj tail).1
          cases place
      | cons second before =>
          have late := congrArg (List.map Prod.fst) (List.cons.inj tail).2
          have member : jrnlHeaderSector ∈ [35265, jrnlContentSector] := by
            change jrnlHeaderSector ∈ List.map Prod.fst
              [(35265, firstCallSector), (jrnlContentSector, sectorCrcStamp firstCallSector)]
            rw [late]
            simp
          exact absurd member (by decide)

/-- Only the first call has a header on the card, and the content that it saved is blank. -/
theorem two_calls_saved {entry : JournalEntry} (last : entry.LastIn twoCallsLog) :
    entry.type ≠ .remove ∧ sectorCrcStamp entry.content = sectorCrcStamp blankRingBlock := by
  obtain ⟨type, index, content, bitmap, region⟩ := entry
  obtain ⟨before, after, split, _⟩ := last
  have noUsage : type.savesBitmap = true → False := by
    intro saves
    have member : jrnlUsageSector ∈ List.map Prod.fst twoCallsLog := by
      rw [split, JournalEntry.log, journalAddLog, journalCopies, if_pos saves]
      simp
    exact absurd member (by decide)
  cases type with
  | contact => exact absurd rfl noUsage
  | message => exact absurd rfl noUsage
  | remove => exact absurd rfl noUsage
  | callHist => exact ⟨(fun same => by cases same), two_calls_copy split⟩
  | msgHist => exact ⟨(fun same => by cases same), two_calls_copy split⟩

/-- The second call for an unknown number saves the sector with the first one in it, and the
next start-up restores that instead of the blank sector that the first call had saved. -/
theorem rollback_restores_foreign :
    ¬exampleMachine.format.RestoresOwn
      [.callAdd (some exampleText), .callAdd (some exampleText)] failsAndCut := by
  intro restores
  unfold Machine.RestoresOwn at restores
  dsimp only at restores
  rw [Machine.attempt_card, two_calls_accepted] at restores
  generalize final_ : applyWrites twoCallsLog exampleMachine.format.card = final at restores
  have header : final jrnlHeaderSector =
      sectorCrcStamp (toSector (journalDataInit .callHist 35253)) := by
    rw [← final_]
    rfl
  have content : final jrnlContentSector = sectorCrcStamp firstCallSector := by
    rw [← final_]
    rfl
  have head : headerOn final = journalDataInit .callHist 35253 := by
    rw [headerOn, header, of_sector_stamp, of_to_sector]
  have ready : RollbackReady final := by
    constructor
    · rw [header]
      exact header_status_active _ _
    · rw [head]
      decide
    · intro _
      rw [content]
      exact stamp_valid _
    · rw [head]
      exact fun kept => by cases kept
  obtain ⟨entry, last, _, rolls⟩ := restores ready.active
  obtain ⟨kept, saved⟩ := two_calls_saved last
  have written := (congrArg Prod.snd (rolls formattedDatabase)).symm.trans
    (congrArg Prod.snd (out_journalInit_rollback formattedDatabase ready))
  dsimp only at written
  unfold JournalEntry.restores rollbackLog at written
  dsimp only at written
  rw [head, if_neg kept, content, saved] at written
  have blocks := congrArg Prod.snd (List.cons.inj written).1
  have states := congrArg (fun block => (ringHeader block).state) blocks
  have blank : (ringHeader (sectorCrcStamp blankRingBlock)).state = rbEmpty := by
    rw [ringHeader, of_sector_stamp]
    exact congrArg RingBufferHeader.state blank_ring_header
  have occupied : (ringHeader (sectorCrcStamp (sectorCrcStamp firstCallSector))).state =
      rbOccupied := by
    rw [ringHeader, of_sector_stamp, of_sector_stamp]
    exact congrArg RingBufferHeader.state first_call_header
  exact absurd (blank.symm.trans (states.trans occupied)) (by decide)

end SdDatabase
