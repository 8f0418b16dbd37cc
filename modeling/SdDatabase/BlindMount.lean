import SdDatabase.BlindIndexes
import SdDatabase.BlindMessages
import SdDatabase.Reboot

/-!
# A mount with failing reads

`database_init` on a card that fault-free calls have left, with any reads failing. The
first read that matters decides: the mount refuses, or it takes a chat for an orphan.
-/

namespace SdDatabase

open Bytes Device BitScan OpenAddressing

set_option autoImplicit false

/-- The reads of `database_init` up to the end of the scans: the superheader, the journal
header and the sectors of the bitmap come first. -/
def mountReadings (bitmap : UsageBitmap) (card : Card Sector) : List Reading :=
  List.replicate (2 + usageBitmapSectorSize) .fatal ++
    (contactReadings bitmap card ++ messageReadings bitmap card)

/-- A start-up on a card with failing reads. -/
def Machine.blindRestart (card : Card Sector) (memory : Database) (fails : Nat → Bool) :
    StrgRet × Machine :=
  let outcome := exec databaseInit memory (.blind fails) card
  (outcome.1.1, ⟨outcome.1.2, outcome.2.2⟩)

def scanStart (memory : Database) (card : Card Sector) : Database :=
  { memory.clear with
    journal := headerOn card
    contactAllocator := ⟨[], hashTableEntries, hashTableEntries⟩
    messageAllocator := ⟨[], totalMessageSectorSize, totalMessageSectorSize⟩
    htable := hashInit hashTableSize
    usageBitmap := loadedBitmap card (List.range usageBitmapSectorSize) memory.usageBitmap }

/-- The two scans that build the hash table. -/
def databaseTables : DbM Bool := do
  if !(← hashReconstructContact) then
    return false
  hashReconstructMessage

/-- What `database_mount` does behind the bitmap. -/
def databaseScans : DbM StrgRet := do
  if !(← hashReconstructContact) then
    return .strgFail
  if !(← hashReconstructMessage) then
    return .strgFail
  databaseIndexes

/-- The mount was refused on a card as it was, and no sector in use is free. -/
structure MountRefused (bitmap : UsageBitmap) (card : Card Sector)
    (outcome : Outcome Sector Database StrgRet) : Prop where
  refuses : outcome.1.1 ≠ .strgOk
  free : ∀ index < totalMessageSectorSize, index ∈ outcome.1.2.messageAllocator.freeStack →
    usageBit bitmap (messageDataSector index) = false
  kept : outcome.2.2 = card

/-- A card has lost the newest sector of a chat: its usage bit was set and is clear. -/
def LosesChat (bitmap : UsageBitmap) (card after : Card Sector) : Prop :=
  ∃ index < totalMessageSectorSize, usageBit bitmap (messageDataSector index) = true ∧
    isChatHead bitmap (ofSector (card (messageRaw index))) = true ∧
    cardBit after (messageDataSector index) = false

section Readings

variable {first second : UsageBitmap} {card : Card Sector}
  (same : ∀ dataSector < usageBitmapSectorSize * usageBitsPerSector,
    usageBit first dataSector = usageBit second dataSector)

include same

theorem stored_phone_bits : storedPhone first card = storedPhone second card := by
  funext slot
  unfold storedPhone storedContact
  by_cases inside : slot / 6 < totalContactSectorSize
  · have bit := same (slot / 6) (by simp at inside ⊢; omega)
    simp only [bit]
  · simp only [inside, false_and]

theorem is_chat_head_bits (mSector : MessageSector) :
    isChatHead first mSector = isChatHead second mSector := by
  unfold isChatHead
  dsimp only
  by_cases inside : mSector.header.next.toNat < totalMessageSectorSize
  · rw [message_narrow inside, same _ (by simp at inside ⊢; omega)]
  · rw [decide_eq_true (Nat.le_of_not_lt inside), Bool.or_true, Bool.true_or, Bool.true_or]

theorem contact_readings_bits : contactReadings first card = contactReadings second card := by
  have sectors : contactSectorReadings first card = contactSectorReadings second card := by
    funext physSector
    unfold contactSectorReadings
    rw [stored_phone_bits same]
    by_cases inside : physSector < totalContactSectorSize
    · rw [same physSector (by simp at inside ⊢; omega)]
    · rw [if_neg (fun both => inside both.1), if_neg (fun both => inside both.1)]
  rw [contactReadings, sectors]
  rfl

theorem message_readings_bits : messageReadings first card = messageReadings second card := by
  have sectors : messageSectorReadings first card = messageSectorReadings second card := by
    funext index
    unfold messageSectorReadings
    dsimp only
    rw [stored_phone_bits same, is_chat_head_bits same]
    by_cases inside : index < totalMessageSectorSize
    · rw [same (messageDataSector index) (by simp at inside ⊢; omega)]
    · rw [if_neg (fun both => inside both.1), if_neg (fun both => inside both.1)]
  rw [messageReadings, sectors]
  rfl

end Readings

section Prologue

variable {card : Card Sector} {db : Database}

theorem blind_readSectorRaw {index : Nat} (narrow : u16 index = index) (fails : Nat → Bool) :
    exec (readSectorRaw index) db (.blind fails) card =
      ((if fails 0 then .error .strgFail else .ok (card index), db),
        .blind fun read => fails (read + 1), card) := by
  unfold readSectorRaw
  rw [exec_bind_of (exec_readBlock _ _ _ _), narrow]
  unfold Faults.blind
  dsimp only
  cases fails 0 <;> rfl

theorem superheader_check_blind
    (good : getSuperheaderStatus (card superheaderSector) = .good) :
    Follows superheaderCheck db card [.fatal] .good db
      (fun outcome => outcome.1 = (.fail, db) ∧ outcome.2.2 = card) (fun _ => False) := by
  apply follows_fatal
  · intro fails healthy
    unfold superheaderCheck
    have read := @blind_readSectorRaw card db superheaderSector rfl fails
    rw [healthy, if_neg Bool.false_ne_true] at read
    rw [exec_bind_of read]
    dsimp only
    rw [good]
    rfl
  · intro fails failed
    unfold superheaderCheck
    have read := @blind_readSectorRaw card db superheaderSector rfl fails
    rw [failed, if_pos rfl] at read
    rw [exec_bind_of read]
    exact ⟨rfl, rfl⟩

theorem journal_init_blind (idle : JournalIdle card) :
    Follows journalInit db card [.fatal] true { db with journal := headerOn card }
      (fun outcome => outcome.1 = (false, db) ∧ outcome.2.2 = card) (fun _ => False) := by
  apply follows_fatal
  · intro fails healthy
    have read := @blind_readSectorRaw card db jrnlHeaderSector rfl fails
    rw [healthy, if_neg Bool.false_ne_true] at read
    have status : exec getJournalStatus db (.blind fails) card =
        ((.valid, { db with journal := headerOn card }), .blind fun read => fails (read + 1),
          card) := by
      unfold getJournalStatus
      rw [exec_bind_of read]
      dsimp only
      rw [show journalHeaderStatus (card jrnlHeaderSector) = .valid from idle,
        if_pos (Or.inr rfl)]
      rfl
    unfold journalInit
    rw [exec_bind_of status]
    rfl
  · intro fails failed
    have read := @blind_readSectorRaw card db jrnlHeaderSector rfl fails
    rw [failed, if_pos rfl] at read
    have status : exec getJournalStatus db (.blind fails) card =
        ((.readError, db), .blind fun read => fails (read + 1), card) := by
      unfold getJournalStatus
      rw [exec_bind_of read]
      rfl
    unfold journalInit
    rw [exec_bind_of status]
    exact ⟨rfl, rfl⟩

theorem read_bitmap_sectors_blind (sectors : List Nat) :
    Follows (readBitmapSectors sectors) db card (List.replicate sectors.length .fatal) true
      { db with usageBitmap := loadedBitmap card sectors db.usageBitmap }
      (fun outcome => outcome.1.1 = false ∧
        outcome.1.2.messageAllocator = db.messageAllocator ∧ outcome.2.2 = card)
      (fun _ => False) := by
  induction sectors generalizing db with
  | nil => exact follows_pure _ _ _
  | cons sector rest ih =>
      have read : Follows (readBlock (usageBitmapStartSector + sector)) db card [.fatal]
          (some (card (usageBitmapStartSector + sector))) db
          (fun outcome => outcome.1 = (none, db) ∧ outcome.2.2 = card) (fun _ => False) := by
        apply follows_fatal
        · intro fails healthy
          rw [exec_readBlock]
          unfold Faults.blind
          dsimp only
          rw [healthy]
          rfl
        · intro fails failed
          rw [exec_readBlock]
          unfold Faults.blind
          dsimp only
          rw [failed]
          exact ⟨rfl, rfl⟩
      unfold readBitmapSectors
      rw [List.length_cons, List.replicate_succ, ← List.singleton_append]
      apply read.bind
      · dsimp only
        exact Follows.silent (fun _ => exec_modify _ _ _ _) ih
      · rintro outcome ⟨missing, kept⟩
        rw [missing]
        exact ⟨rfl, rfl, kept⟩
      · exact fun outcome impossible => impossible.elim

end Prologue

section Mount

variable {card : Card Sector} {bitmap : UsageBitmap} {view : View} {chain : Nat → List Nat}

theorem read_usage_bitmap_blind (holds : Holds bitmap card view) (db : Database) :
    Follows readUsageBitmap db card (List.replicate usageBitmapSectorSize .fatal) true
      { db with usageBitmap :=
          loadedBitmap card (List.range usageBitmapSectorSize) db.usageBitmap }
      (fun outcome => outcome.1.1 = false ∧
        outcome.1.2.messageAllocator = db.messageAllocator ∧ outcome.2.2 = card)
      (fun _ => False) := by
  have sectors := @read_bitmap_sectors_blind card db (List.range usageBitmapSectorSize)
  rw [List.length_range] at sectors
  have follows : Follows readUsageBitmap db card (List.replicate usageBitmapSectorSize .fatal)
      ((List.range usageBitmapSectorSize).all fun sector => sectorCrcValid (bitmapSector
        (loadedBitmap card (List.range usageBitmapSectorSize) db.usageBitmap) sector))
      { db with usageBitmap :=
          loadedBitmap card (List.range usageBitmapSectorSize) db.usageBitmap }
      (fun outcome => outcome.1.1 = false ∧
        outcome.1.2.messageAllocator = db.messageAllocator ∧ outcome.2.2 = card)
      (fun _ => False) := by
    unfold readUsageBitmap
    rw [← List.append_nil (List.replicate _ _)]
    apply sectors.bind
    · exact (follows_pure _ _ _).silent fun _ => exec_get _ _ _
    · rintro ⟨⟨answer, last⟩, later, left⟩ ⟨failed, kept⟩
      cases failed
      exact ⟨rfl, kept⟩
    · exact fun outcome impossible => impossible.elim
  obtain ⟨loaded, load, _⟩ := read_usage_bitmap_run holds db
  have valid := congrArg Prod.fst (follows.outcome load)
  dsimp only at valid
  rw [← valid] at follows
  exact follows

theorem database_init_blind (idle : JournalIdle card) (holds : Holds bitmap card view)
    (memory : Database) (strays : Outcome Sector Database StrgRet → Prop) :
    ComesTo databaseInit memory card (List.replicate (2 + usageBitmapSectorSize) .fatal)
      databaseScans (scanStart memory card) (MountRefused bitmap card) strays := by
  have refused : ∀ {db : Database}, db.messageAllocator.freeStack = [] →
      ∀ later, MountRefused bitmap card ((.strgFail, db), later, card) := by
    intro db empty later
    refine ⟨(by rintro ⟨⟩), fun index inside member => ?_, rfl⟩
    rw [empty] at member
    cases member
  -- the superheader
  have checked : ComesTo databaseInit memory card [.fatal] databaseMount memory.clear
      (MountRefused bitmap card) strays := by
    unfold databaseInit
    apply (comes_silent fun faults => exec_modify _ _ _ _).trans
    apply (superheader_check_blind holds.superheader).comes
    · rintro ⟨outcome, later, left⟩ ⟨failed, kept⟩
      cases failed
      cases kept
      exact refused rfl later
    · exact fun outcome fails impossible => impossible.elim
  -- the journal
  have journal : ComesTo databaseMount memory.clear card [.fatal] databaseRebuild
      { memory.clear with journal := headerOn card } (MountRefused bitmap card) strays := by
    unfold databaseMount
    apply (comes_silent fun faults => exec_modify _ _ _ _).trans
    apply (journal_init_blind idle).comes
    · rintro ⟨outcome, later, left⟩ ⟨failed, kept⟩
      cases failed
      cases kept
      exact refused rfl later
    · exact fun outcome fails impossible => impossible.elim
  -- the bitmap
  have bitmaps : ComesTo databaseRebuild { memory.clear with journal := headerOn card } card
      (List.replicate usageBitmapSectorSize .fatal) databaseScans (scanStart memory card)
      (MountRefused bitmap card) strays := by
    have contactsInit : freeListEmptyInit hashTableEntries =
        some ⟨[], hashTableEntries, hashTableEntries⟩ := if_neg (by simp)
    have messagesInit : freeListEmptyInit totalMessageSectorSize =
        some ⟨[], totalMessageSectorSize, totalMessageSectorSize⟩ := if_neg (by simp)
    unfold databaseRebuild
    rw [contactsInit, messagesInit]
    apply (comes_silent fun faults => exec_modify _ _ _ _).trans
    apply (read_usage_bitmap_blind holds _).comes
    · rintro ⟨⟨answer, last⟩, later, left⟩ ⟨failed, allocator, kept⟩
      cases failed
      cases kept
      exact refused (by rw [allocator]) later
    · exact fun outcome fails impossible => impossible.elim
  have split : List.replicate (2 + usageBitmapSectorSize) Reading.fatal =
      [.fatal] ++ ([.fatal] ++ List.replicate usageBitmapSectorSize .fatal) := rfl
  rw [split]
  exact checked.trans (journal.trans bitmaps)

theorem scan_start_holds (holds : Holds bitmap card view) (memory : Database) :
    Holds (scanStart memory card).usageBitmap card view ∧
      ∀ dataSector < usageBitmapSectorSize * usageBitsPerSector,
        usageBit (scanStart memory card).usageBitmap dataSector = usageBit bitmap dataSector := by
  have sectors : ∀ sector < usageBitmapSectorSize,
      bitmapSector (scanStart memory card).usageBitmap sector = bitmapSector bitmap sector := by
    intro sector bound
    rw [← holds.bits.mirror sector bound]
    exact loaded_sector _ _ _ (Or.inl (List.mem_range.mpr bound))
  exact ⟨holds.same_sectors sectors, fun dataSector region => usage_bit_congr sectors region⟩

theorem database_tables_blind (holds : Holds bitmap card view) (mountable : Mountable view chain)
    (memory : Database) :
    ∃ next, Follows databaseTables (scanStart memory card) card
        (contactReadings bitmap card ++ messageReadings bitmap card) true next
        (GaveUp false (scanStart memory card) card) (ChatLost (scanStart memory card) card) ∧
      next.usageBitmap = (scanStart memory card).usageBitmap ∧
      TableHolds next.htable view.contact (headOf chain) ∧
      ∀ index ∈ next.messageAllocator.freeStack,
        usageBit (scanStart memory card).usageBitmap (messageDataSector index) = false := by
  obtain ⟨baseHolds, bits⟩ := scan_start_holds holds memory
  have fresh : OrderedEntries (scanStart memory card) card 0 (scanStart memory card) :=
    ⟨contacts_entered_start rfl (if_neg (by simp)), slot_order_start _⟩
  obtain ⟨second, contactRun, entries⟩ := hash_reconstruct_contact_blind
    (contacts_formed baseHolds.contacts mountable.distinct)
    (fun physSector inside used => (baseHolds.contacts.sectors physSector inside used).valid) fresh
  -- the table that the first scan has built
  have built : ContactsBuilt (scanStart memory card) view.contact hashTableEntries second := by
    obtain ⟨next, run, built⟩ := hash_reconstruct_contact_run baseHolds.contacts mountable.distinct
      ⟨rfl, hash_init_holds fun slot => if_neg (Nat.not_lt_zero _), rfl, free_below_start _ _ _⟩
    have same : next = second := congrArg Prod.snd (contactRun.outcome run)
    rw [← same]
    exact built
  have sameBitmap : second.usageBitmap = (scanStart memory card).usageBitmap := built.bitmap
  have unfreed : second.messageAllocator = (scanStart memory card).messageAllocator := by
    rw [built.same]
  have secondHolds : Holds second.usageBitmap card view := by
    rw [sameBitmap]
    exact baseHolds
  have table := built.table
  rw [slots_below_all baseHolds.contacts.bound] at table
  have freshChats : OrderedChats second card view 0 second := by
    refine ⟨⟨rfl, table, rfl, ?_⟩, ?_⟩
    · rw [built.same]
      exact free_below_start _ _ _
    · rw [sameBitmap]
      exact entries.order
  obtain ⟨third, messageRun, chats⟩ := hash_reconstruct_message_blind secondHolds.contacts
    secondHolds.messages mountable.distinct mountable.owners secondHolds.bits freshChats
  refine ⟨third, ?_, ?_, ?_, fun index member => ?_⟩
  · have scan : Follows hashReconstructMessage second card
        (messageReadings (scanStart memory card).usageBitmap card) true third
        (GaveUp false (scanStart memory card) card) (ChatLost (scanStart memory card) card) := by
      rw [← sameBitmap]
      refine messageRun.weaken (fun outcome stopped => ⟨stopped.answers, ?_, ?_, stopped.kept⟩) ?_
      · rw [stopped.bitmap, sameBitmap]
      · rw [← unfreed, ← sameBitmap]
        exact stopped.free
      · unfold ChatLost
        rw [sameBitmap]
        exact fun outcome lost => lost
    rw [← contact_readings_bits bits, ← message_readings_bits bits]
    apply contactRun.bind scan
    · intro outcome stopped
      rw [stopped.answers]
      exact ⟨rfl, stopped.bitmap, stopped.free, stopped.kept⟩
    · exact fun outcome impossible => impossible.elim
  · rw [chats.built.same]
    exact sameBitmap
  · have heads : (fun slot => latestHead view slot totalMessageSectorSize) = headOf chain :=
      funext mountable.heads
    rw [← heads]
    exact chats.built.table
  · rw [← sameBitmap]
    exact built_unused_free secondHolds.messages chats.built index member

theorem exec_databaseScans (memory : Database) (faults : Faults Sector) (card : Card Sector) :
    exec databaseScans memory faults card =
      exec (databaseTables >>= fun built => if !built then return .strgFail else databaseIndexes)
        memory faults card := by
  unfold databaseScans databaseTables
  rw [exec_bind, exec_bind, exec_bind]
  cases (exec hashReconstructContact memory faults card).1.1 with
  | false => rfl
  | true =>
      change exec (hashReconstructMessage >>= _) _ _ _ = _
      rw [exec_bind]
      rfl

theorem database_scans_blind (holds : Holds bitmap card view) (mountable : Mountable view chain)
    (memory : Database) :
    ∃ next, ComesTo databaseScans (scanStart memory card) card
        (contactReadings bitmap card ++ messageReadings bitmap card) databaseIndexes next
        (MountRefused bitmap card) (LosesChat bitmap card ·.2.2) ∧
      ∀ index < totalMessageSectorSize, index ∈ next.messageAllocator.freeStack →
        usageBit bitmap (messageDataSector index) = false := by
  obtain ⟨_, bits⟩ := scan_start_holds holds memory
  obtain ⟨next, run, _, _, free⟩ := database_tables_blind holds mountable memory
  have messageBit : ∀ index < totalMessageSectorSize,
      usageBit (scanStart memory card).usageBitmap (messageDataSector index) =
        usageBit bitmap (messageDataSector index) := by
    intro index inside
    exact bits _ (by simp at inside ⊢; omega)
  have comes : ComesTo (databaseTables >>= fun built =>
      if !built then return .strgFail else databaseIndexes) (scanStart memory card) card
      (contactReadings bitmap card ++ messageReadings bitmap card) databaseIndexes next
      (MountRefused bitmap card) (LosesChat bitmap card ·.2.2) := by
    apply run.comes
    · intro outcome stopped
      rw [stopped.answers]
      refine ⟨(by rintro ⟨⟩), fun index inside member => ?_, stopped.kept⟩
      rcases stopped.free index member with before | unused
      · cases before
      · rwa [messageBit index inside] at unused
    · rintro outcome fails ⟨index, inside, used, isHead, unused⟩ blind
      rw [is_chat_head_bits bits] at isHead
      refine ⟨index, inside, (messageBit index inside).symm.trans used, isHead, ?_⟩
      -- what follows does not write
      cases outcome.1.1 with
      | false => exact unused.stored
      | true =>
          obtain ⟨answer, last, later, ran, _⟩ :=
            fragile_databaseIndexes outcome.1.2 outcome.2.2 fails
          have indexes : exec (if (!true) = true then (return .strgFail) else databaseIndexes)
              outcome.1.2 (.blind fails) outcome.2.2 = ((answer, last), .blind later, outcome.2.2) :=
            ran
          rw [indexes]
          exact unused.stored
  refine ⟨next, ?_, fun index inside member => ?_⟩
  · intro fails
    rw [exec_databaseScans]
    exact comes fails
  · rw [← messageBit index inside]
    exact free index member

theorem database_init_reads (idle : JournalIdle card) (holds : Holds bitmap card view)
    (mountable : Mountable view chain) (memory : Database) :
    ∃ next, ComesTo databaseInit memory card (mountReadings bitmap card) databaseIndexes next
        (MountRefused bitmap card) (LosesChat bitmap card ·.2.2) ∧
      ∀ index < totalMessageSectorSize, index ∈ next.messageAllocator.freeStack →
        usageBit bitmap (messageDataSector index) = false := by
  obtain ⟨next, scans, free⟩ := database_scans_blind holds mountable memory
  exact ⟨next, (database_init_blind idle holds memory _).trans scans, free⟩

end Mount

/-- A mount that was refused or shows everything, and leaves the card to a later one that
shows everything. -/
structure MountSpares (machine : Machine) (result : StrgRet × Machine) : Prop where
  complete : result.1 = .strgOk → SameContents machine result.2
  free : ∀ index < totalMessageSectorSize, index ∈ result.2.db.messageAllocator.freeStack →
    usageBit machine.db.usageBitmap (messageDataSector index) = false
  untouched : result.2.card = machine.card
  later : ∀ memory, ∃ next, Machine.restart result.2.card memory = (.strgOk, next) ∧
    SameContents machine next

section Spares

variable {machine : Machine} (reachable : Reachable machine) (memory : Database)

include reachable

theorem reachable_restart :
    ∃ next, Machine.restart machine.card memory = (.strgOk, next) ∧ SameContents machine next := by
  obtain ⟨model, view, chain, listing, mounted, tidy, _⟩ := reachable.sound
  obtain ⟨next, newListing, run, _, remounted, _⟩ := mounted_restart mounted tidy memory
  exact ⟨next, run, same_contents mounted remounted rfl rfl rfl⟩

theorem reachable_init_reads :
    ∃ next, ComesTo databaseInit memory machine.card
        (mountReadings machine.db.usageBitmap machine.card) databaseIndexes next
        (MountRefused machine.db.usageBitmap machine.card)
        (LosesChat machine.db.usageBitmap machine.card ·.2.2) ∧
      ∀ index < totalMessageSectorSize, index ∈ next.messageAllocator.freeStack →
        usageBit machine.db.usageBitmap (messageDataSector index) = false := by
  obtain ⟨model, view, chain, listing, mounted, tidy, _⟩ := reachable.sound
  exact database_init_reads mounted.core.idle mounted.core.holds (mounted.core.mountable tidy) memory

theorem mount_spares {fails : Nat → Bool}
    (decided : verdict (mountReadings machine.db.usageBitmap machine.card) fails ≠ .astray) :
    MountSpares machine (Machine.blindRestart machine.card memory fails) := by
  obtain ⟨next, comes, free⟩ := reachable_init_reads reachable memory
  have known := comes fails
  have later : ∀ {card : Card Sector}, card = machine.card → ∀ memory, ∃ next,
      Machine.restart card memory = (.strgOk, next) ∧ SameContents machine next := by
    rintro card rfl memory
    exact reachable_restart reachable memory
  cases end_ : verdict (mountReadings machine.db.usageBitmap machine.card) fails with
  | astray => exact absurd end_ decided
  | stopped =>
      rw [end_] at known
      exact ⟨fun ok => absurd ok known.refuses, known.free, known.kept, later known.kept⟩
  | clean =>
      rw [end_] at known
      dsimp only at known
      obtain ⟨answer, last, further, ran, allocator, refused⟩ :=
        fragile_databaseIndexes next machine.card fun index => fails (index +
          (mountReadings machine.db.usageBitmap machine.card).length)
      rw [ran] at known
      have result : Machine.blindRestart machine.card memory fails =
          (answer, ⟨last, machine.card⟩) := by
        rw [Machine.blindRestart, known]
      rw [result]
      refine ⟨fun ok => ?_, fun index inside member => ?_, rfl, later rfl⟩
      · -- the healthy mount ends in the same way
        obtain ⟨rebooted, restarted, same⟩ := reachable_restart reachable memory
        have healthy := comes fun _ => false
        have blind : (Faults.blind fun _ => false : Faults Sector) = .healthy := rfl
        rw [verdict_healthy] at healthy
        dsimp only at healthy
        rw [blind, exec_healthy, exec_healthy, (fragile_databaseIndexes _ _).unwritten,
          refused.resolve_left (not_not.mpr ok)] at healthy
        have plain : Machine.restart machine.card memory = (answer, ⟨last, machine.card⟩) :=
          congrArg (fun outcome : Outcome Sector Database StrgRet =>
            (outcome.1.1, Machine.mk outcome.1.2 outcome.2.2)) healthy
        rw [restarted] at plain
        rw [← congrArg Prod.snd plain]
        exact same
      · rw [allocator] at member
        exact free index inside member

theorem mount_astray_loses {fails : Nat → Bool}
    (decided : verdict (mountReadings machine.db.usageBitmap machine.card) fails = .astray) :
    LosesChat machine.db.usageBitmap machine.card
      (Machine.blindRestart machine.card memory fails).2.card := by
  obtain ⟨next, comes, _⟩ := reachable_init_reads reachable memory
  have known := comes fails
  rw [decided] at known
  exact known

theorem loses_chat_changes {after : Card Sector}
    (loses : LosesChat machine.db.usageBitmap machine.card after) : after ≠ machine.card := by
  obtain ⟨model, view, chain, listing, mounted, tidy, _⟩ := reachable.sound
  obtain ⟨index, inside, used, _, unused⟩ := loses
  intro kept
  have place : usageBitmapFindSector (messageDataSector index) < usageBitmapSectorSize := by
    simp at inside ⊢
    omega
  have bit := card_bit_of_sector (mounted.core.holds.bits.mirror _ place)
  rw [used, ← kept] at bit
  exact absurd (bit.symm.trans unused) (by decide)

theorem stored_scan_wrong {index : Nat} (inside : index < totalMessageSectorSize)
    (used : usageBit machine.db.usageBitmap (messageDataSector index) = true) :
    ∃ behind, .wrong behind ∈ contactReadings machine.db.usageBitmap machine.card ++
      messageReadings machine.db.usageBitmap machine.card := by
  obtain ⟨model, view, chain, listing, mounted, tidy, _⟩ := reachable.sound
  have messages := mounted.core.holds.messages
  have contacts := mounted.core.holds.contacts
  obtain ⟨mSector, stored⟩ : ∃ mSector, view.sector index = some mSector := by
    rw [messages.used index inside, Option.isSome_iff_exists] at used
    exact used
  -- the head of its chat
  have member := tidy.covered index mSector stored
  have links := tidy.nexts mSector.header.contactIndex.toNat
  have owned := mounted.core.chats.owned mSector.header.contactIndex.toNat
  have owner := mounted.core.chats.contacts mSector.header.contactIndex.toNat
    (List.ne_nil_of_mem member)
  cases sectors : chain mSector.header.contactIndex.toNat with
  | nil =>
      rw [sectors] at member
      cases member
  | cons head rest =>
      rw [sectors] at links owned
      obtain ⟨⟨first, firstStored, firstNext⟩, _⟩ := links
      have slot := owned head List.mem_cons_self first firstStored
      obtain ⟨headInside, headUsed, valid, content⟩ := messages.stored head first firstStored
      have beyond : view.sector first.header.next.toNat = none := by
        rw [firstNext]
        by_contra given
        exact absurd (messages.bound _ given) (by simp)
      have isHead : isChatHead machine.db.usageBitmap first = true :=
        (is_chat_head_iff messages first).mpr beyond
      obtain ⟨identity, known⟩ := Option.ne_none_iff_exists'.mp owner
      have number : storedPhone machine.db.usageBitmap machine.card
          first.header.contactIndex.toNat = some identity.phone := by
        rw [stored_phone_record contacts, slot, contact_phones_some known]
      have wrong : .wrong (laterContacts (storedPhone machine.db.usageBitmap machine.card)
          (hashPhone identity.phone) first.header.contactIndex.toNat hashTableEntries) ∈
            messageSectorReadings machine.db.usageBitmap machine.card head := by
        unfold messageSectorReadings
        dsimp only
        rw [content, if_pos ⟨headInside, headUsed⟩, if_pos isHead]
        unfold ownerReadings
        rw [number]
        simp
      have place : head ∈ List.range' 0 (totalMessageSectorSize - 0) :=
        List.mem_range'_1.mpr ⟨Nat.zero_le _, by omega⟩
      exact ⟨_, List.mem_append_right _ (List.mem_flatMap.mpr ⟨head, place, wrong⟩)⟩

theorem stored_message_wrong {index : Nat} (inside : index < totalMessageSectorSize)
    (used : usageBit machine.db.usageBitmap (messageDataSector index) = true) :
    ∃ behind, .wrong behind ∈ mountReadings machine.db.usageBitmap machine.card := by
  obtain ⟨behind, member⟩ := stored_scan_wrong reachable inside used
  exact ⟨behind, List.mem_append_right _ member⟩

omit reachable in
theorem wrong_stored_message {behind : Nat}
    (member : .wrong behind ∈ mountReadings machine.db.usageBitmap machine.card) :
    ∃ index < totalMessageSectorSize,
      usageBit machine.db.usageBitmap (messageDataSector index) = true := by
  have spares : ∀ {count : Nat} {reading : Reading}, reading ≠ .wrong behind →
      .wrong behind ∉ List.replicate count reading :=
    fun other inside => other (List.eq_of_mem_replicate inside).symm
  rcases List.mem_append.mp member with first | scans
  · exact absurd first (spares (by rintro ⟨⟩))
  rcases List.mem_append.mp scans with contacts | messages
  · -- the contacts are not looked up twice
    obtain ⟨physSector, _, inSector⟩ := List.mem_flatMap.mp contacts
    unfold contactSectorReadings at inSector
    split at inSector
    · rcases List.mem_cons.mp inSector with impossible | inSlots
      · cases impossible
      obtain ⟨slot, _, inSlot⟩ := List.mem_flatMap.mp inSlots
      unfold slotReadings at inSlot
      split at inSlot
      · cases inSlot
      · exact absurd inSlot (spares (by rintro ⟨⟩))
    · cases inSector
  · obtain ⟨index, _, inSector⟩ := List.mem_flatMap.mp messages
    unfold messageSectorReadings at inSector
    dsimp only at inSector
    split at inSector
    next used => exact ⟨index, used.1, used.2⟩
    next => cases inSector

end Spares

/-- A mount with failing reads spares the card exactly when it takes no wrong turn. -/
theorem mount_spares_iff {machine : Machine} (reachable : Reachable machine) (memory : Database)
    (fails : Nat → Bool) :
    MountSpares machine (Machine.blindRestart machine.card memory fails) ↔
      verdict (mountReadings machine.db.usageBitmap machine.card) fails ≠ .astray := by
  refine ⟨fun spares astray => ?_, mount_spares reachable memory⟩
  exact loses_chat_changes reachable (mount_astray_loses reachable memory astray) spares.untouched

theorem chat_sector_used {machine : Machine} {model : Model} (sound : machine.Sound model)
    {person : Person} (member : person ∈ model.people) (some_ : person.chat ≠ []) :
    ∃ index < totalMessageSectorSize,
      usageBit machine.db.usageBitmap (messageDataSector index) = true := by
  obtain ⟨view, chain, listing, mounted, _, rfl⟩ := sound
  obtain ⟨slot, _, chat⟩ := (mem_people mounted person).mp member
  rw [← chat] at some_
  cases sectors : chain slot with
  | nil =>
      rw [chatOf, sectors] at some_
      exact absurd rfl some_
  | cons index rest =>
      have stored := (mounted.core.chats.linked slot).stored index
        (by rw [sectors]; exact List.mem_cons_self)
      have inside := mounted.core.holds.messages.bound index stored
      refine ⟨index, inside, ?_⟩
      rw [mounted.core.holds.messages.used index inside]
      exact Option.isSome_iff_ne_none.mpr stored

theorem example_chat_used : ∃ index < totalMessageSectorSize,
    usageBit exampleChatMachine.db.usageBitmap (messageDataSector index) = true := by
  apply chat_sector_used example_chat_sound List.mem_cons_self
  exact List.cons_ne_nil _ _

/-- The first read of the mount may fail, another one may not. -/
theorem mount_spares_iff_example :
    MountSpares exampleChatMachine (Machine.blindRestart exampleChatMachine.card
        formattedDatabase fun index => decide (index = 0)) ∧
      ∃ read, ¬MountSpares exampleChatMachine (Machine.blindRestart exampleChatMachine.card
        formattedDatabase fun index => decide (index = read)) := by
  constructor
  · apply (mount_spares_iff example_chat_reachable formattedDatabase _).mpr
    rw [mountReadings, Nat.add_comm, List.replicate_succ, List.cons_append, verdict]
    exact Verdict.noConfusion
  · obtain ⟨index, inside, used⟩ := example_chat_used
    obtain ⟨behind, member⟩ := stored_message_wrong example_chat_reachable inside used
    obtain ⟨read, astray⟩ := single_failure_astray member
    exact ⟨read, fun spares =>
      (mount_spares_iff example_chat_reachable formattedDatabase _).mp spares astray⟩

/-- On every card with a message one failing read is enough to lose a chat, and on a card
without messages no pattern of failing reads does any harm. -/
theorem single_read_loses_iff {machine : Machine} (reachable : Reachable machine)
    (memory : Database) :
    ((∃ read, LosesChat machine.db.usageBitmap machine.card (Machine.blindRestart machine.card
        memory fun index => decide (index = read)).2.card) ↔
      ∃ index < totalMessageSectorSize,
        usageBit machine.db.usageBitmap (messageDataSector index) = true) ∧
    ((∃ fails, ¬MountSpares machine (Machine.blindRestart machine.card memory fails)) ↔
      ∃ index < totalMessageSectorSize,
        usageBit machine.db.usageBitmap (messageDataSector index) = true) := by
  have stored : ∀ {fails}, ¬MountSpares machine (Machine.blindRestart machine.card memory fails) →
      ∃ index < totalMessageSectorSize,
        usageBit machine.db.usageBitmap (messageDataSector index) = true := by
    intro fails lost
    have astray : verdict (mountReadings machine.db.usageBitmap machine.card) fails = .astray := by
      by_contra other
      exact lost (mount_spares reachable memory other)
    obtain ⟨behind, member⟩ := astray_wrong astray
    exact wrong_stored_message member
  have loses : ∀ index < totalMessageSectorSize,
      usageBit machine.db.usageBitmap (messageDataSector index) = true →
        ∃ read, LosesChat machine.db.usageBitmap machine.card (Machine.blindRestart machine.card
          memory fun index => decide (index = read)).2.card := by
    intro index inside used
    obtain ⟨behind, member⟩ := stored_message_wrong reachable inside used
    obtain ⟨read, astray⟩ := single_failure_astray member
    exact ⟨read, mount_astray_loses reachable memory astray⟩
  have spoils : ∀ {fails}, LosesChat machine.db.usageBitmap machine.card
      (Machine.blindRestart machine.card memory fails).2.card →
        ¬MountSpares machine (Machine.blindRestart machine.card memory fails) :=
    fun lost spares => loses_chat_changes reachable lost spares.untouched
  refine ⟨⟨?_, ?_⟩, ⟨?_, ?_⟩⟩
  · rintro ⟨read, lost⟩
    exact stored (spoils lost)
  · rintro ⟨index, inside, used⟩
    exact loses index inside used
  · rintro ⟨fails, lost⟩
    exact stored lost
  · rintro ⟨index, inside, used⟩
    obtain ⟨read, lost⟩ := loses index inside used
    exact ⟨_, spoils lost⟩

theorem single_read_loses_example :
    (∃ read, LosesChat exampleChatMachine.db.usageBitmap exampleChatMachine.card
      (Machine.blindRestart exampleChatMachine.card formattedDatabase fun index =>
        decide (index = read)).2.card) ∧
    ∃ fails, ¬MountSpares exampleChatMachine (Machine.blindRestart exampleChatMachine.card
      formattedDatabase fails) := by
  obtain ⟨single, patterns⟩ := single_read_loses_iff example_chat_reachable formattedDatabase
  exact ⟨single.mpr example_chat_used, patterns.mpr example_chat_used⟩

end SdDatabase
