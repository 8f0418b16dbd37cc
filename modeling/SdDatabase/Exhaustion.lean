import SdDatabase.Filling
import SdDatabase.Represented

/-!
# No free message sector

A message that needs a new sector is refused when there is none. The refusal leaves
everything as it was for a contact without messages, and for a full chat while the
contact sector that the missing sector number wraps to is in use; a new phone number
leaves a contact behind, and a full chat may overwrite that contact sector.
-/

namespace SdDatabase

open Bytes Device

set_option autoImplicit false

/-- A message for the phone number needs a sector and there is none. -/
def Machine.MissesSector (machine : Machine) (phone : List Byte) : Prop :=
  machine.db.messageAllocator.freeStack = [] ∧
    ∀ hashSlot, (machine.run (findOccupied phone)).1 = .ok hashSlot →
      (machine.db.htable.htable hashSlot).latestMsgExtent = uint16Max ∨
        messageSectorCapacity ≤ (machine.messageSectorAt
          (machine.db.htable.htable hashSlot).latestMsgExtent).header.msgCount.toNat

/-- A new phone number finds no contact slot, and the chat of a known one is empty or
the sector that `UINT16_MAX` stands for is in use. -/
def Machine.RefusesCleanly (machine : Machine) (phone : List Byte) : Prop :=
  ((∀ hashSlot, (machine.run (findOccupied phone)).1 ≠ .ok hashSlot) →
      machine.db.contactAllocator.freeStack = []) ∧
    ∀ hashSlot, (machine.run (findOccupied phone)).1 = .ok hashSlot →
      (machine.db.htable.htable hashSlot).latestMsgExtent = uint16Max ∨
        usageBit machine.db.usageBitmap (u16 (messageDataSector uint16Max)) = true

/-- The program fails and leaves contacts, messages and what is kept of them in memory
alone; it writes to no sector of the contact region. -/
structure Machine.Refuses {A : Type} (machine : Machine) (program : DbM A) (failed : A) :
    Prop where
  result : (machine.run program).1 = failed
  bitmap : (machine.run program).2.db.usageBitmap = machine.db.usageBitmap
  table : (machine.run program).2.db.htable = machine.db.htable
  index : (machine.run program).2.db.nameIndex = machine.db.nameIndex
  order : (machine.run program).2.db.chatOrder = machine.db.chatOrder
  contactAllocator : (machine.run program).2.db.contactAllocator = machine.db.contactAllocator
  messageAllocator : (machine.run program).2.db.messageAllocator = machine.db.messageAllocator
  sectors : ∀ raw, usageBitmapStartSector ≤ raw →
    raw < dataSectorToRaw messageHistoryDataStartSector →
    (machine.run program).2.card raw = machine.card raw
  chats : ∀ phone start n out,
    ((machine.run program).2.run (databaseMessageGetChat phone start n out)).1 =
      (machine.run (databaseMessageGetChat phone start n out)).1
  outside : ∀ entry ∈ (out program machine.db machine.card).2,
    ¬(dataRegionStartSector ≤ entry.1 ∧
      entry.1 < dataRegionStartSector + totalContactSectorSize)

section Exhaustion

variable {machine : Machine} {view : View} {chain : Nat → List Nat} {listing : Listing}

theorem refuses_unchanged {A : Type} {program : DbM A} {failed : A}
    (run : out program machine.db machine.card = ((failed, machine.db), [])) :
    machine.Refuses program failed := by
  have same : machine.run program = (failed, machine) := Machine.run_of run
  refine ⟨?_, ?_, ?_, ?_, ?_, ?_, ?_, ?_, ?_, ?_⟩
  · rw [same]
  · rw [same]
  · rw [same]
  · rw [same]
  · rw [same]
  · rw [same]
  · rw [same]
  · intro raw _ _
    rw [same]
  · intro phone start n out
    rw [same]
  · intro entry member
    rw [run] at member
    exact absurd member List.not_mem_nil

theorem out_allocateMessage_empty {db : Database} {card : Card Sector}
    (none_ : db.messageAllocator.freeStack = []) :
    out allocateMessage db card = ((uint16Max, db), []) := by
  have allocated : freeListAllocate db.messageAllocator = (uint16Max, db.messageAllocator) := by
    rw [freeListAllocate, none_]
  rw [allocateMessage, out_bind_of (out_get _ _), allocated]
  rfl

theorem finds (core : Core machine.db machine.card view chain) (number : List Byte) :
    ∃ found, out (findOccupied number) machine.db machine.card = ((found, machine.db), []) := by
  rcases look_up core number with ⟨_, _, _, _, _, find⟩ | ⟨_, find⟩
  · exact ⟨_, find⟩
  · exact ⟨_, find⟩

theorem message_add_fails {db next : Database} {card : Card Sector} {phone : Option CString}
    {number : List Byte} {timestamp : BitVec 32} {direction : Bool} {text : CString}
    (valid : validPhone phone = some number) (timed : timestamp ≠ 0#32)
    {found : Except StrgRet Nat} (find : out (findOccupied number) db card = ((found, db), []))
    {log : WriteLog Sector}
    (insert : out (hashInsertMessage number (createMessage timestamp direction text.val)) db card =
      ((false, next), log)) :
    out (databaseMessageAdd phone timestamp direction (some text)) db card =
      ((.strgFail, next), log) := by
  have logEq : log = [] ++ ([] ++ (log ++ [])) := by simp
  rw [logEq]
  unfold databaseMessageAdd
  simp only [valid, timed, if_false]
  refine out_bind_both find ?_
  cases found with
  | error ret => exact out_bind_both (out_pure _ _ true) (out_bind_both insert rfl)
  | ok slot => exact out_bind_both (out_pure _ _ false) (out_bind_both insert rfl)

theorem message_call_fails {db next : Database} {card : Card Sector} {phone : Option CString}
    {number : List Byte} {timestamp : BitVec 32} {direction : Bool} {text : CString}
    (valid : validPhone phone = some number) (timed : timestamp ≠ 0#32)
    {found : Except StrgRet Nat} (find : out (findOccupied number) db card = ((found, db), []))
    {log : WriteLog Sector}
    (insert : out (hashInsertMessage number (createMessage timestamp direction text.val)) db card =
      ((false, next), log)) :
    out (Call.run (.messageAdd phone timestamp direction (some text))) db card =
      ((.status .strgFail, next), log) := by
  have logEq : log = log ++ [] := (List.append_nil log).symm
  rw [logEq, Call.run]
  exact out_bind_both (message_add_fails valid timed find insert) rfl

section Known

variable {hashSlot : Nat} (message : Message)

theorem insert_known (core : Core machine.db machine.card view chain)
    (occupied : machine.Occupied hashSlot) {identity : Identity}
    (stored : view.contact (machine.db.htable.htable hashSlot).sector = some identity)
    {result : Bool} {next : Database} {log : WriteLog Sector}
    (append : out (appendToChat hashSlot message) machine.db machine.card =
      ((result, next), log)) :
    out (hashInsertMessage identity.phone message) machine.db machine.card =
      ((result, next), log) := by
  have claim : out (claimEntryForMessage identity.phone hashSlot) machine.db machine.card =
      ((true, machine.db), []) := by
    have state : (machine.db.htable.htable hashSlot).state = .occupied := occupied
    rw [claimEntryForMessage, out_bind_of (out_get _ _)]
    simp only [state, if_true, apply_writes_nil]
    rfl
  have logEq : log = [] ++ ([] ++ log) := by simp
  rw [logEq, hashInsertMessage]
  exact out_bind_both (find_present core.table core.holds.contacts core.distinct occupied stored)
    (out_bind_both claim append)

/-- The first message of a contact is refused. -/
theorem append_first_refused (none_ : machine.db.messageAllocator.freeStack = [])
    (latest : (machine.db.htable.htable hashSlot).latestMsgExtent = uint16Max) :
    out (appendToChat hashSlot message) machine.db machine.card =
      ((false, machine.db), []) := by
  have logEq : ([] : WriteLog Sector) = [] ++ ([] ++ []) := rfl
  rw [logEq]
  unfold appendToChat
  refine out_bind_both (out_get _ _) ?_
  simp only [latest, if_true, apply_writes_nil]
  exact out_bind_both (out_allocateMessage_empty none_) rfl

variable (core : Core machine.db machine.card view chain) (occupied : machine.Occupied hashSlot)
  (none_ : machine.db.messageAllocator.freeStack = []) {newest : Nat} {older : List Nat}
  {mSector : MessageSector} (whole : chain (machine.db.htable.htable hashSlot).sector = newest :: older)
  (found : view.sector newest = some mSector)
  (full : messageSectorCapacity ≤ mSector.header.msgCount.toNat)

include core occupied none_ whole found full

theorem append_full :
    out (appendToChat hashSlot message) machine.db machine.card =
      out (do
        let ret ← writeNextMessageSector (machine.db.htable.htable hashSlot).sector newest uint16Max
          message
        if ret ≠ .strgOk then
          return false
        setLatestMsgExtent hashSlot uint16Max
        return true) machine.db machine.card := by
  have latest : (machine.db.htable.htable hashSlot).latestMsgExtent = newest := by
    rw [latest_of core occupied, headOf, whole]
    rfl
  have notEnd := index_not_end (core.holds.messages.bound newest
    (by rw [found]; exact Option.some_ne_none _))
  unfold appendToChat
  rw [out_bind_of (out_get _ _)]
  simp only [latest, notEnd, if_false, apply_writes_nil, List.nil_append]
  rw [out_bind_of (write_message_full core.holds found full message)]
  simp only [if_true, apply_writes_nil, List.nil_append]
  rw [out_bind_of (out_allocateMessage_empty none_)]
  simp only [apply_writes_nil, List.nil_append]

/-- The message behind a full sector is refused while the bit of the sector that the
allocator's failure value wraps to is set. -/
theorem append_full_refused
    (used : usageBit machine.db.usageBitmap (u16 (messageDataSector uint16Max)) = true) :
    out (appendToChat hashSlot message) machine.db machine.card =
      ((false, machine.db), []) := by
  have refused : out (writeNextMessageSector (machine.db.htable.htable hashSlot).sector newest
      uint16Max message) machine.db machine.card = ((.strgFull, machine.db), []) := by
    have logEq : ([] : WriteLog Sector) = [] ++ [] := rfl
    rw [logEq]
    unfold writeNextMessageSector
    refine out_bind_both (out_checkUsageBit _ _ _) ?_
    rw [used, if_pos rfl]
    rfl
  rw [append_full message core occupied none_ whole found full]
  have logEq : ([] : WriteLog Sector) = [] ++ [] := rfl
  rw [logEq]
  exact out_bind_both refused rfl

theorem append_full_overwrites
    (unused : usageBit machine.db.usageBitmap (u16 (messageDataSector uint16Max)) = false) :
    ∃ entry ∈ (out (appendToChat hashSlot message) machine.db machine.card).2,
      dataRegionStartSector ≤ entry.1 ∧
        entry.1 < dataRegionStartSector + totalContactSectorSize := by
  have inUse : usageBit machine.db.usageBitmap (u16 (messageDataSector newest)) = true := by
    have bound := core.holds.messages.bound newest (by rw [found]; exact Option.some_ne_none _)
    rw [core.holds.messages.usage bound, found]
    rfl
  have wraps : ∀ content, journalAdd .message (messageDataSector uint16Max) content =
      journalAdd .message 1666 content := fun _ => rfl
  rw [append_full message core occupied none_ whole found full]
  refine ⟨(1678, sectorCrcStamp (toSector ((createNewMessageSector
    (machine.db.htable.htable hashSlot).sector newest).push message))), mem_out_first ?_, by simp,
    by simp⟩
  unfold writeNextMessageSector
  refine mem_out_rest (out_checkUsageBit _ _ _) ?_
  rw [unused, if_neg Bool.false_ne_true]
  refine mem_out_rest (out_checkUsageBit _ _ _) ?_
  simp only [inUse, Bool.not_true, Bool.false_eq_true, if_false, wraps]
  refine mem_out_rest (out_journalAdd _ _ .message _ (by decide)) ?_
  simp only [Bool.not_true, Bool.false_eq_true, if_false]
  refine mem_out_first ?_
  unfold commitMessage
  refine mem_out_rest (out_updateUsageBit _ _ _ _) ?_
  simp only [reduceCtorEq, if_false]
  refine mem_out_first ?_
  exact List.mem_singleton_self _

end Known

theorem insert_new_enters (core : Core machine.db machine.card view chain) (unnamed : Identity)
    (noName : unnamed.name = [])
    (absent : ∀ sector other, view.contact sector = some other → other.phone ≠ unnamed.phone)
    {sector : Nat} {rest : List Nat}
    (stack : machine.db.contactAllocator.freeStack = sector :: rest)
    (none_ : machine.db.messageAllocator.freeStack = []) (message : Message) :
    ∃ next log, out (hashInsertMessage unnamed.phone message) machine.db machine.card =
        ((false, next), log) ∧ next.contactAllocator.freeStack = rest ∧
      CrashSafe log machine.card
        fun _ seen => seen = view ∨ seen = view.setContact sector (some unnamed) := by
  obtain ⟨hashSlot, journal, bitmap, log, find, claim, _, _, _, leads⟩ :=
    claim_entry_new core unnamed noName absent stack
  have latest : ((enteredDatabase machine.db hashSlot sector unnamed journal bitmap).htable.htable
      hashSlot).latestMsgExtent = uint16Max := by
    rw [entered_self]
    rfl
  have refused : out (appendToChat hashSlot message)
      (enteredDatabase machine.db hashSlot sector unnamed journal bitmap)
      (applyWrites log machine.card) =
      ((false, enteredDatabase machine.db hashSlot sector unnamed journal bitmap), []) := by
    have logEq : ([] : WriteLog Sector) = [] ++ ([] ++ []) := rfl
    rw [logEq]
    unfold appendToChat
    refine out_bind_both (out_get _ _) ?_
    simp only [latest, if_true, apply_writes_nil]
    exact out_bind_both (out_allocateMessage_empty none_) rfl
  refine ⟨enteredDatabase machine.db hashSlot sector unnamed journal bitmap, log, ?_, ?_,
    leads.safe⟩
  · have logEq : log = [] ++ (log ++ []) := by simp
    rw [logEq, hashInsertMessage]
    exact out_bind_both find (out_bind_both claim refused)
  · have allocated : freeListAllocate machine.db.contactAllocator = (sector,
        { machine.db.contactAllocator with
          freeStack := rest
          usedCount := machine.db.contactAllocator.usedCount + 1 }) := by
      rw [freeListAllocate, stack]
    rw [enteredDatabase, allocated]

variable {phone : Option CString} {number : List Byte} {timestamp : BitVec 32} {direction : Bool}
  {text : CString}

theorem message_add_overwrites (core : Core machine.db machine.card view chain)
    (valid : validPhone phone = some number) (timed : timestamp ≠ 0#32) {entry : Nat × Sector}
    (member : entry ∈ (out (hashInsertMessage number (createMessage timestamp direction text.val))
      machine.db machine.card).2) :
    entry ∈ (out (databaseMessageAdd phone timestamp direction (some text)) machine.db
      machine.card).2 := by
  unfold databaseMessageAdd
  simp only [valid, timed, if_false]
  rcases look_up core number with ⟨hashSlot, identity, _, _, _, find⟩ | ⟨_, find⟩
  · refine mem_out_rest find ?_
    exact mem_out_rest (out_pure _ _ false) (mem_out_first member)
  · refine mem_out_rest find ?_
    exact mem_out_rest (out_pure _ _ true) (mem_out_first member)

/-- The insertion of a message that misses its sector changes nothing, or it takes a
contact slot, or it writes to a contact sector. -/
theorem insert_missing (mounted : Mounted machine.db machine.card view chain listing)
    (valid : validPhone phone = some number) (misses : machine.MissesSector number)
    (message : Message) :
    (machine.RefusesCleanly number ∧
      out (hashInsertMessage number message) machine.db machine.card =
        ((false, machine.db), [])) ∨
    (¬machine.RefusesCleanly number ∧
      ((∃ next log, out (hashInsertMessage number message) machine.db machine.card =
          ((false, next), log) ∧ next.contactAllocator ≠ machine.db.contactAllocator) ∨
        ∃ entry ∈ (out (hashInsertMessage number message) machine.db machine.card).2,
          dataRegionStartSector ≤ entry.1 ∧
            entry.1 < dataRegionStartSector + totalContactSectorSize)) := by
  have core := mounted.core
  obtain ⟨none_, needs⟩ := misses
  rcases look_up core number with
    ⟨hashSlot, identity, occupied, stored, rfl, find⟩ | ⟨absent, find⟩
  · -- a known phone number
    have found : (machine.run (findOccupied identity.phone)).1 = .ok hashSlot := by
      rw [Machine.run_of find]
    have clean_iff : machine.RefusesCleanly identity.phone ↔
        (machine.db.htable.htable hashSlot).latestMsgExtent = uint16Max ∨
          usageBit machine.db.usageBitmap (u16 (messageDataSector uint16Max)) = true := by
      unfold Machine.RefusesCleanly
      rw [found]
      constructor
      · rintro ⟨_, known⟩
        exact known hashSlot rfl
      · intro either
        refine ⟨fun new => absurd rfl (new hashSlot), fun other same => ?_⟩
        rwa [← Except.ok.inj same]
    rw [clean_iff]
    have append := fun {result : Bool} {next : Database} {log : WriteLog Sector} =>
      @insert_known _ _ _ _ message core occupied _ stored result next log
    by_cases latest : (machine.db.htable.htable hashSlot).latestMsgExtent = uint16Max
    · exact Or.inl ⟨Or.inl latest, append (append_first_refused message none_ latest)⟩
    · have full := (needs hashSlot found).resolve_left latest
      obtain ⟨newest, older, whole⟩ :=
        List.exists_cons_of_ne_nil (mt (latest_end_iff core occupied).mpr latest)
      obtain ⟨mSector, stands⟩ := @ChatsHold.member _ _ core.chats
        (machine.db.htable.htable hashSlot).sector newest (by rw [whole]; simp)
      have newestIs : (machine.db.htable.htable hashSlot).latestMsgExtent = newest := by
        rw [latest_of core occupied, headOf, whole]
        rfl
      rw [newestIs, mounted.message_sector_at stands] at full
      cases used : usageBit machine.db.usageBitmap (u16 (messageDataSector uint16Max)) with
      | true => exact Or.inl ⟨Or.inr rfl, append (append_full_refused message core occupied none_
          whole stands full used)⟩
      | false =>
          obtain ⟨entry, member, inside⟩ := append_full_overwrites message core occupied none_
            whole stands full used
          have run := append rfl
          refine Or.inr ⟨fun either => ?_, Or.inr ⟨entry, ?_, inside⟩⟩
          · exact either.elim latest fun isUsed => Bool.false_ne_true isUsed
          · rw [run]
            exact member
  · -- a new phone number
    have found : ∀ hashSlot, (machine.run (findOccupied number)).1 ≠ .ok hashSlot := by
      intro hashSlot same
      rw [Machine.run_of find] at same
      cases same
    have clean_iff : machine.RefusesCleanly number ↔
        machine.db.contactAllocator.freeStack = [] :=
      ⟨fun clean => clean.1 found, fun empty => ⟨fun _ => empty, fun hashSlot same =>
        absurd same (found hashSlot)⟩⟩
    rw [clean_iff]
    obtain ⟨unnamed, _, rfl, noName_⟩ := valid_phone_identity valid
    cases stack : machine.db.contactAllocator.freeStack with
    | nil => exact Or.inl ⟨rfl, claim_entry_full core absent stack message⟩
    | cons sector rest =>
        obtain ⟨next, log, run, taken, _⟩ := insert_new_enters core unnamed noName_ absent stack
          none_ message
        refine Or.inr ⟨List.cons_ne_nil _ _, Or.inl ⟨next, log, run, fun same => ?_⟩⟩
        rw [same, stack] at taken
        exact List.cons_ne_self _ _ taken

/-- The only calls that find the allocator empty. -/
theorem exhausts_misses (mounted : Mounted machine.db machine.card view chain listing) {call : Call}
    (exhausts : Exhausts call machine.db machine.card) :
    ∃ phone timestamp direction text number,
      call = .messageAdd phone timestamp direction (some text) ∧
      validPhone phone = some number ∧ timestamp ≠ 0#32 ∧ machine.MissesSector number := by
  have core := mounted.core
  obtain ⟨asks, none_⟩ := exhausts
  cases call with
  | messageAdd phone timestamp direction str =>
      cases valid : validPhone phone with
      | none =>
          unfold asksForSector at asks
          simp only [valid] at asks
          cases asks
      | some number =>
          cases str with
          | none =>
              unfold asksForSector at asks
              simp only [valid] at asks
              cases asks
          | some text =>
              have timed : timestamp ≠ 0#32 := by
                intro zero
                unfold asksForSector at asks
                simp only [valid, zero, if_true] at asks
                cases asks
              refine ⟨phone, timestamp, direction, text, number, rfl, valid, timed, none_,
                fun hashSlot found => ?_⟩
              rcases look_up core number with
                ⟨known, identity, occupied, stored, rfl, find⟩ | ⟨absent, find⟩
              · rw [Machine.run_of find] at found
                obtain rfl : known = hashSlot := Except.ok.inj found
                have needs := (asks_known_iff core occupied stored direction valid rfl timed).mp asks
                by_cases latest : (machine.db.htable.htable known).latestMsgExtent = uint16Max
                · exact Or.inl latest
                · obtain ⟨newest, older, whole⟩ :=
                    List.exists_cons_of_ne_nil (mt (latest_end_iff core occupied).mpr latest)
                  obtain ⟨mSector, stands⟩ := @ChatsHold.member _ _ core.chats
                    (machine.db.htable.htable known).sector newest (by rw [whole]; simp)
                  have newestIs : (machine.db.htable.htable known).latestMsgExtent = newest := by
                    rw [latest_of core occupied, headOf, whole]
                    rfl
                  rw [newestIs, mounted.message_sector_at stands]
                  exact Or.inr (needs newest older mSector whole stands)
              · rw [Machine.run_of find] at found
                cases found
  | _ => cases asks

theorem missing_refused_iff (mounted : Mounted machine.db machine.card view chain listing)
    (valid : validPhone phone = some number) (timed : timestamp ≠ 0#32)
    (misses : machine.MissesSector number) :
    (machine.Refuses (databaseMessageAdd phone timestamp direction (some text)) .strgFail ↔
        machine.RefusesCleanly number) ∧
      ∀ message, machine.Refuses (hashInsertMessage number message) false ↔
        machine.RefusesCleanly number := by
  have core := mounted.core
  obtain ⟨found, find⟩ := finds core number
  constructor
  · rcases insert_missing mounted valid misses (createMessage timestamp direction text.val) with
      ⟨clean, run⟩ | ⟨spoiled, change⟩
    · exact iff_of_true (refuses_unchanged (message_add_fails valid timed find run)) clean
    · refine iff_of_false (fun refuses => ?_) spoiled
      rcases change with ⟨next, log, run, other⟩ | ⟨entry, member, inside⟩
      · have kept := refuses.contactAllocator
        rw [Machine.run_of (message_add_fails valid timed find run)] at kept
        exact other kept
      · exact refuses.outside entry (message_add_overwrites core valid timed member) inside
  · intro message
    rcases insert_missing mounted valid misses message with ⟨clean, run⟩ | ⟨spoiled, change⟩
    · exact iff_of_true (refuses_unchanged run) clean
    · refine iff_of_false (fun refuses => ?_) spoiled
      rcases change with ⟨next, log, run, other⟩ | ⟨entry, member, inside⟩
      · have kept := refuses.contactAllocator
        rw [Machine.run_of run] at kept
        exact other kept
      · exact refuses.outside entry member inside

end Exhaustion

/-- Formats, calls and reboots where a call that misses its message sector is refused
cleanly. -/
inductive RefusingRun : Machine → Prop where
  | formatted (machine : Machine) : RefusingRun machine.format
  | called {machine : Machine} (before : RefusingRun machine) (call : Call)
      (refused : Exhausts call machine.db machine.card →
        ∀ phone timestamp direction str number,
          call = .messageAdd phone timestamp direction str → validPhone phone = some number →
          machine.RefusesCleanly number) : RefusingRun (machine.run call.run).2
  | restarted {machine : Machine} (before : RefusingRun machine) (memory : Database) :
      RefusingRun ((Machine.mk memory machine.card).run databaseInit).2

theorem RefusingRun.reachable {machine : Machine} (run : RefusingRun machine) :
    Reachable machine := by
  induction run with
  | formatted machine => exact .formatted machine
  | restarted _ memory ih => exact .restarted ih memory
  | @called machine _ call refused ih =>
      by_cases exhausts : Exhausts call machine.db machine.card
      · obtain ⟨_, view, chain, listing, mounted, _, _⟩ := ih.sound
        obtain ⟨phone, timestamp, direction, text, number, rfl, valid, timed, misses⟩ :=
          exhausts_misses mounted exhausts
        have clean := refused exhausts phone timestamp direction (some text) number rfl valid
        rcases insert_missing mounted valid misses (createMessage timestamp direction text.val) with
          ⟨_, insert⟩ | ⟨spoiled, _⟩
        · obtain ⟨found, find⟩ := finds mounted.core number
          rw [Machine.run_of (message_call_fails valid timed find insert)]
          exact ih
        · exact absurd clean spoiled
      · exact .called ih call exhausts

/-- A message that needs a new sector when there is none is refused cleanly exactly when
no contact slot is taken for it and the missing sector's number hits a used sector. -/
theorem message_exhaustion_refused_iff {machine : Machine} (run : RefusingRun machine)
    {phone : Option CString} {number : List Byte} {timestamp : BitVec 32} (direction : Bool)
    (text : CString) (valid : validPhone phone = some number) (timed : timestamp ≠ 0#32)
    (misses : machine.MissesSector number) :
    (machine.Refuses (databaseMessageAdd phone timestamp direction (some text)) .strgFail ↔
        machine.RefusesCleanly number) ∧
      ∀ message, machine.Refuses (hashInsertMessage number message) false ↔
        machine.RefusesCleanly number := by
  obtain ⟨_, view, chain, listing, mounted, _, _⟩ := run.reachable.sound
  exact missing_refused_iff mounted valid timed misses

def exampleExhausted : Machine :=
  exampleAdds (messageSectorCapacity * totalMessageSectorSize - 1 + 1)

theorem Reachable.refusing {machine : Machine} (reachable : Reachable machine) :
    RefusingRun machine := by
  induction reachable with
  | formatted machine => exact .formatted machine
  | called _ call room ih => exact .called ih call fun exhausts => absurd exhausts room
  | restarted _ memory ih => exact .restarted ih memory

theorem example_exhausted_fills : ∃ view chain listing slot messages,
    ChatFills exampleExhausted view chain listing exampleText.val slot 0 messages ∧
      messages.length = messageSectorCapacity * totalMessageSectorSize := by
  have some_ : 0 < messageSectorCapacity * totalMessageSectorSize := by decide
  obtain ⟨view, chain, listing, slot, left, messages, fills, length⟩ :=
    example_adds_fill (Nat.sub_lt some_ Nat.one_pos)
  rw [Nat.sub_add_cancel some_] at length
  have last := @ChatFills.left_eq _ _ _ _ _ _ _ _ fills (totalMessageSectorSize - 1)
    (by rw [length]; decide) (by rw [length]; decide)
  rw [Nat.sub_self] at last
  rw [last] at fills
  exact ⟨view, chain, listing, slot, messages, fills, length⟩

section Example

variable {machine : Machine} {view : View} {chain : Nat → List Nat} {listing : Listing}
  {number : List Byte} {slot : Nat} {messages : List Message}
  (fills : ChatFills machine view chain listing number slot 0 messages)

include fills

theorem ChatFills.misses
    (full : messages.length = messageSectorCapacity * totalMessageSectorSize) (other : List Byte) :
    machine.MissesSector other := by
  have core := fills.mounted.core
  refine ⟨fills.stack, fun hashSlot found => ?_⟩
  rcases look_up core other with ⟨known, identity, occupied, stored, _, find⟩ | ⟨_, find⟩
  · rw [Machine.run_of find] at found
    obtain rfl : known = hashSlot := Except.ok.inj found
    obtain ⟨mSector, stands, many⟩ := fills.full full
    have latest : (machine.db.htable.htable known).latestMsgExtent = 0 := by
      rw [latest_of core occupied, headOf, fills.only _ _ stored, fills.whole]
      rfl
    rw [latest, fills.mounted.message_sector_at stands]
    exact Or.inr many
  · rw [Machine.run_of find] at found
    cases found

/-- The only contact leaves slots for others. -/
theorem ChatFills.spoils {other : List Byte} (different : other ≠ number) :
    ¬machine.RefusesCleanly other := by
  have core := fills.mounted.core
  obtain ⟨identity, stored, isNumber⟩ := fills.contact
  rcases look_up core other with ⟨known, identity, occupied, otherStored, same, find⟩ | ⟨_, find⟩
  · rw [fills.only _ _ otherStored] at otherStored
    rw [stored, Option.some.injEq] at otherStored
    rw [← same, ← otherStored, isNumber] at different
    exact absurd rfl different
  · rintro ⟨new, _⟩
    have none_ := new fun hashSlot found => by
      rw [Machine.run_of find] at found
      cases found
    have free : ∀ index < hashTableEntries, index = slot := by
      intro index inside
      by_contra apart
      have member := (core.contactFree.mem index).mpr
        ⟨inside, not_not.mpr (Option.eq_none_iff_forall_ne_some.mpr fun found given =>
          apart (fills.only index found given))⟩
      rw [none_] at member
      exact absurd member List.not_mem_nil
    have first := free 0 (by decide)
    have second := free 1 (by decide)
    omega

end Example

theorem message_exhaustion_refused_example :
    exampleExhausted.MissesSector exampleText.val ∧
      (exampleExhausted.Refuses
          (databaseMessageAdd (some exampleText) 7#32 true (some exampleText)) .strgFail ↔
        exampleExhausted.RefusesCleanly exampleText.val) := by
  obtain ⟨_, _, _, _, _, fills, length⟩ := example_exhausted_fills
  have misses := fills.misses length exampleText.val
  exact ⟨misses, (message_exhaustion_refused_iff fills.reachable.refusing true exampleText
    example_valid (by decide : (7#32 : BitVec 32) ≠ 0#32) misses).1⟩

/-- A message for a new phone number is refused, and its contact stays. -/
theorem message_exhaustion_spoils :
    RefusingRun exampleExhausted ∧ exampleExhausted.MissesSector exampleOther.val ∧
      ¬exampleExhausted.Refuses
        (databaseMessageAdd (some exampleOther) 7#32 true (some exampleText)) .strgFail := by
  obtain ⟨_, _, _, _, _, fills, length⟩ := example_exhausted_fills
  have misses := fills.misses length exampleOther.val
  have valid : validPhone (some exampleOther) = some exampleOther.val := by decide
  refine ⟨fills.reachable.refusing, misses, fun refuses => ?_⟩
  exact fills.spoils (by decide) ((missing_refused_iff fills.mounted valid (by decide) misses).1.mp
    refuses)

end SdDatabase
