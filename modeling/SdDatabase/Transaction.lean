import SdDatabase.Recovery

/-!
# Journal transactions

A transaction saves a sector, changes it and commits. Cut anywhere, it is found
by the next start-up either done or undone: undone without a trace while its
header was not yet active, and from the saved copies afterwards.
-/

namespace SdDatabase

open Bytes Device

set_option autoImplicit false

def commitLog (type : JrnlType) (index count : Nat) : WriteLog Sector :=
  List.replicate count
    (jrnlHeaderSector, sectorCrcStamp (toSector (journalDataInit type index).committed))

/-- Writes of a transaction that makes the changes `work`. -/
def transactionLog (type : JrnlType) (index : Nat) (saved : Sector) (bitmap : UsageBitmap)
    (work : WriteLog Sector) (commits : Nat) : WriteLog Sector :=
  journalAddLog type index saved bitmap ++ (work ++ commitLog type index commits)

/-- The card with a data sector and its bitmap sector as they were saved. -/
def rolledBack (type : JrnlType) (index : Nat) (saved : Sector) (bitmap : UsageBitmap)
    (card : Card Sector) : Card Sector :=
  applyWrites
    ((if type = .remove then []
      else [(index + dataRegionStartSector, sectorCrcStamp saved)]) ++
    (if type.savesBitmap then
      [(usageBitmapStartSector + usageBitmapFindSector index,
        sectorCrcStamp (bitmapSector bitmap (usageBitmapFindSector index)))]
    else [])) card

theorem journal_data_init_isRemove (type : JrnlType) (index : Nat) :
    (journalDataInit type index).isRemove = decide (type = .remove) := by
  cases type <;> rfl

theorem journal_data_init_isHistory (type : JrnlType) (index : Nat) :
    (journalDataInit type index).isHistory = !type.savesBitmap := by
  cases type <;> rfl

theorem journal_data_init_sector (type : JrnlType) {index : Nat} (bound : index < 65536) :
    (journalDataInit type index).sector.toNat = index := by
  rw [journalDataInit, BitVec.toNat_ofNat]
  exact Nat.mod_eq_of_lt bound

section JournalCopies

variable (type : JrnlType) (index : Nat) (saved : Sector) (bitmap : UsageBitmap)
variable (card : Card Sector)

theorem journal_copies_targets (entry : Nat × Sector)
    (member : entry ∈ journalCopies type index saved bitmap) : 2 ≤ entry.1 ∧ entry.1 ≤ 3 := by
  rcases List.mem_append.mp member with usage | content
  · split at usage
    · rw [List.eq_of_mem_singleton usage]
      simp
    · simp at usage
  · split at content
    · simp at content
    · rw [List.eq_of_mem_singleton content]
      simp

theorem journal_add_log_targets (entry : Nat × Sector)
    (member : entry ∈ journalAddLog type index saved bitmap) : 1 ≤ entry.1 ∧ entry.1 ≤ 3 := by
  rcases List.mem_append.mp member with copy | header
  · have range := journal_copies_targets type index saved bitmap entry copy
    omega
  · rw [List.eq_of_mem_singleton header]
    simp

theorem journal_copies_header (count : Nat)
    (partly : count < (journalAddLog type index saved bitmap).length) :
    applyWrites ((journalAddLog type index saved bitmap).take count) card jrnlHeaderSector =
      card jrnlHeaderSector := by
  apply apply_writes_other
  intro entry member same
  have copies : count ≤ (journalCopies type index saved bitmap).length := by
    simp only [journalAddLog, List.length_append, List.length_singleton] at partly
    omega
  rw [journalAddLog, List.take_append_of_le_length copies] at member
  have range := journal_copies_targets type index saved bitmap entry (List.mem_of_mem_take member)
  simp at same
  omega

theorem journal_add_header :
    applyWrites (journalAddLog type index saved bitmap) card jrnlHeaderSector =
      sectorCrcStamp (toSector (journalDataInit type index)) := by
  rw [journalAddLog, apply_writes_append]
  simp

theorem journal_add_content (kept : type ≠ .remove) :
    applyWrites (journalAddLog type index saved bitmap) card jrnlContentSector =
      sectorCrcStamp saved := by
  cases type <;> simp [journalAddLog, journalCopies, JrnlType.savesBitmap] at kept ⊢

theorem journal_add_usage (saves : type.savesBitmap = true) :
    applyWrites (journalAddLog type index saved bitmap) card jrnlUsageSector =
      sectorCrcStamp (bitmapSector bitmap (usageBitmapFindSector index)) := by
  cases type <;> simp [journalAddLog, journalCopies, JrnlType.savesBitmap] at saves ⊢

/-- The journal sectors of `card` are the ones written for a transaction. -/
structure JournalNames : Prop where
  header : card jrnlHeaderSector = sectorCrcStamp (toSector (journalDataInit type index))
  content : type ≠ .remove → card jrnlContentSector = sectorCrcStamp saved
  usage : type.savesBitmap = true → card jrnlUsageSector =
    sectorCrcStamp (bitmapSector bitmap (usageBitmapFindSector index))

variable {type index saved bitmap card}

theorem names_headerOn (names : JournalNames type index saved bitmap card) :
    headerOn card = journalDataInit type index := by
  rw [headerOn, names.header, of_sector_stamp, of_to_sector]

theorem names_ready (names : JournalNames type index saved bitmap card)
    (region : index + dataRegionStartSector < 65536) : RollbackReady card where
  active := by
    rw [names.header]
    exact header_status_active type index
  region := by
    rw [names_headerOn names, journal_data_init_sector type (by omega)]
    exact region
  content kept := by
    rw [names_headerOn names, journal_data_init_isRemove] at kept
    rw [names.content (of_decide_eq_false kept)]
    exact stamp_valid _
  usage saves := by
    rw [names_headerOn names, journal_data_init_isHistory, Bool.not_eq_false'] at saves
    rw [names.usage saves]
    exact stamp_valid _

theorem names_rollback (names : JournalNames type index saved bitmap card)
    (region : index + dataRegionStartSector < 65536) :
    SameData (applyWrites (rollbackLog card) card) (rolledBack type index saved bitmap card) := by
  have sector := @journal_data_init_sector type index (by omega)
  have narrow : u16 (index + dataRegionStartSector) = index + dataRegionStartSector :=
    u16_of_lt region
  have log : rollbackLog card =
      ((if type = .remove then []
        else [(index + dataRegionStartSector, sectorCrcStamp saved)]) ++
      (if type.savesBitmap then
        [(usageBitmapStartSector + usageBitmapFindSector index,
          sectorCrcStamp (bitmapSector bitmap (usageBitmapFindSector index)))]
      else [])) ++
      commitLog type index 1 := by
    have content := names.content
    have usage := names.usage
    unfold rollbackLog commitLog
    rw [names_headerOn names]
    simp only [journal_data_init_isRemove, journal_data_init_isHistory, sector, narrow,
      List.replicate_one]
    cases type <;>
      simp only [JrnlType.savesBitmap, ne_eq, reduceCtorEq, not_false_eq_true, not_true_eq_false,
        forall_true_left, Bool.false_eq_true, IsEmpty.forall_iff] at content usage <;>
      simp only [content, usage, stamp_of_valid (stamp_valid _)] <;> rfl
  rw [log, apply_writes_append]
  apply same_data_of_journal_writes
  intro entry member
  rw [List.eq_of_mem_replicate member]
  simp

def Restored (type : JrnlType) (index target : Nat) : Prop :=
  (type ≠ .remove ∧ target = index + dataRegionStartSector) ∨
    (type.savesBitmap = true ∧ target = usageBitmapStartSector + usageBitmapFindSector index)

theorem names_undone {cut : Card Sector} (names : JournalNames type index saved bitmap cut)
    (region : index + dataRegionStartSector < 65536)
    (kept : ∀ target, target = 0 ∨ 4 ≤ target →
      Restored type index target ∨ cut target = card target) :
    SameData (applyWrites (rollbackLog cut) cut) (rolledBack type index saved bitmap card) := by
  refine (names_rollback names region).trans fun target outside => ?_
  apply apply_writes_congr
  rcases kept target outside with (⟨notRemove, rfl⟩ | ⟨saves, rfl⟩) | same
  · exact Or.inl ⟨(index + dataRegionStartSector, sectorCrcStamp saved), by simp [notRemove], rfl⟩
  · exact Or.inl ⟨(usageBitmapStartSector + usageBitmapFindSector index,
      sectorCrcStamp (bitmapSector bitmap (usageBitmapFindSector index))), by simp [saves], rfl⟩
  · exact Or.inr same

end JournalCopies

/-- Number of writes before the first commit. -/
def openWrites (type : JrnlType) (index : Nat) (saved : Sector) (bitmap : UsageBitmap)
    (work : WriteLog Sector) : Nat :=
  (journalAddLog type index saved bitmap).length + work.length

/-- What a start-up makes of a transaction with the changes `work`, of which the
power cut left the first `count` writes in `cut`. -/
inductive TransactionOutcome (type : JrnlType) (index : Nat) (saved : Sector)
    (bitmap : UsageBitmap) (work : WriteLog Sector) (count : Nat)
    (card cut final : Card Sector) : Prop where
  | untouched (early : count ≤ openWrites type index saved bitmap work)
      (inactive : journalHeaderStatus (cut jrnlHeaderSector) ≠ .rollback)
      (same : SameData final card)
  | undone (early : count ≤ openWrites type index saved bitmap work)
      (active : journalHeaderStatus (cut jrnlHeaderSector) = .rollback)
      (same : SameData final (rolledBack type index saved bitmap card))
  | complete (late : openWrites type index saved bitmap work < count)
      (same : SameData final (applyWrites work card))

theorem transaction_cut {type : JrnlType} {index : Nat} {saved : Sector} {bitmap : UsageBitmap}
    {work : WriteLog Sector} {commits : Nat} {card : Card Sector} (idle : JournalIdle card)
    (region : index + dataRegionStartSector < 65536)
    (covered : ∀ entry ∈ work,
      (type ≠ .remove ∧ entry.1 = index + dataRegionStartSector) ∨
      (type.savesBitmap = true ∧ entry.1 = usageBitmapStartSector + usageBitmapFindSector index))
    (committed : 0 < commits) (count : Nat) :
    let cut := applyWrites ((transactionLog type index saved bitmap work commits).take count) card
    ∃ final, Recovers cut final ∧
      TransactionOutcome type index saved bitmap work count card cut final := by
  intro cut
  have targets : ∀ entry ∈ work, 4 ≤ entry.1 := by
    intro entry member
    rcases covered entry member with ⟨_, same⟩ | ⟨_, same⟩ <;> rw [same] <;> simp
  by_cases adding : count < (journalAddLog type index saved bitmap).length
  · -- the header is not active yet
    have prefix_ : cut =
        applyWrites ((journalAddLog type index saved bitmap).take count) card := by
      simp only [cut, transactionLog]
      rw [List.take_append_of_le_length (by omega)]
    have header := journal_copies_header type index saved bitmap card count adding
    have stillIdle : JournalIdle cut := by
      rw [JournalIdle, prefix_, header]
      exact idle
    refine ⟨cut, Or.inl ⟨stillIdle, rfl⟩,
      .untouched (by unfold openWrites; omega) (by rw [stillIdle]; decide) ?_⟩
    rw [prefix_]
    apply same_data_of_journal_writes
    intro entry member
    exact journal_add_log_targets type index saved bitmap entry (List.mem_of_mem_take member)
  · have split : cut = applyWrites ((work ++ commitLog type index commits).take
        (count - (journalAddLog type index saved bitmap).length))
        (applyWrites (journalAddLog type index saved bitmap) card) := by
      simp only [cut, transactionLog]
      rw [List.take_append, List.take_of_length_le (by omega), apply_writes_append]
    generalize amount : count - (journalAddLog type index saved bitmap).length = later at split
    have sameAdded : SameData (applyWrites (journalAddLog type index saved bitmap) card) card :=
      same_data_of_journal_writes card (journal_add_log_targets type index saved bitmap)
    by_cases working : later ≤ work.length
    · -- the header is active and the copies stand
      rw [List.take_append_of_le_length working] at split
      have journalKept : ∀ target ≤ 3, cut target =
          applyWrites (journalAddLog type index saved bitmap) card target := by
        intro target low
        rw [split]
        apply apply_writes_other
        intro entry member same
        have high := targets entry (List.mem_of_mem_take member)
        omega
      have names : JournalNames type index saved bitmap cut :=
        { header := by
            rw [journalKept _ (by decide), journal_add_header]
          content := fun kept => by
            rw [journalKept _ (by decide), journal_add_content _ _ _ _ _ kept]
          usage := fun saves => by
            rw [journalKept _ (by decide), journal_add_usage _ _ _ _ _ saves] }
      have ready := names_ready names region
      refine ⟨_, Or.inr ⟨ready, rfl⟩, .undone (by unfold openWrites; omega) ready.active ?_⟩
      refine names_undone names region fun target outside => ?_
      by_cases changed : ∃ entry ∈ work, entry.1 = target
      · obtain ⟨entry, member, rfl⟩ := changed
        exact Or.inl (covered entry member)
      · right
        rw [split, apply_writes_other]
        · exact sameAdded target outside
        · intro entry member same
          exact changed ⟨entry, List.mem_of_mem_take member, same⟩
    · -- at least one commit took effect
      rw [List.take_append, List.take_of_length_le (by omega), apply_writes_append] at split
      have commitsTaken : (commitLog type index commits).take (later - work.length) =
          commitLog type index (min (later - work.length) commits) := by
        rw [commitLog, List.take_replicate, commitLog]
      rw [commitsTaken] at split
      have some_ : 0 < min (later - work.length) commits := by omega
      obtain ⟨fewer, count_⟩ : ∃ fewer, min (later - work.length) commits = fewer + 1 :=
        ⟨_, (Nat.succ_pred_eq_of_pos some_).symm⟩
      rw [count_] at split
      have header : cut jrnlHeaderSector =
          sectorCrcStamp (toSector (journalDataInit type index).committed) := by
        rw [split, commitLog, List.replicate_succ', apply_writes_append]
        simp
      have nowIdle : JournalIdle cut := by
        rw [JournalIdle, header]
        exact header_status_committed rfl
      refine ⟨cut, Or.inl ⟨nowIdle, rfl⟩, .complete (by unfold openWrites; omega) ?_⟩
      rw [split]
      refine SameData.trans (same_data_of_journal_writes _ ?_) (sameAdded.apply_writes work)
      intro entry member
      rw [List.eq_of_mem_replicate member]
      simp

/-- A torn sector that the journal can be started with. -/
def TornReadable (target : Nat) (torn : Sector) : Prop :=
  target = jrnlHeaderSector → journalHeaderStatus torn = .uninitialized

theorem torn_header_restores {card : Card Sector} {torn : Sector}
    (readable : TornReadable jrnlHeaderSector torn) :
    ∃ final, Restores (Function.update card jrnlHeaderSector torn) final ∧
      SameData final card := by
  refine ⟨_, restores_uninitialized ?_, fun target outside => ?_⟩
  · rw [Function.update_self]
    exact readable rfl
  · have other : target ≠ jrnlHeaderSector := by
      simp
      omega
    rw [Function.update_of_ne other, Function.update_of_ne other]

/-- What a start-up makes of a transaction that was cut while a sector was written. -/
theorem transaction_torn {type : JrnlType} {index : Nat} {saved : Sector} {bitmap : UsageBitmap}
    {work : WriteLog Sector} {commits : Nat} {card : Card Sector} (idle : JournalIdle card)
    (region : index + dataRegionStartSector < 65536)
    (covered : ∀ entry ∈ work, Restored type index entry.1) {count : Nat}
    {entry : Nat × Sector}
    (written : (transactionLog type index saved bitmap work commits)[count]? = some entry)
    {torn : Sector} (readable : TornReadable entry.1 torn) :
    ∃ final, Restores (Function.update (applyWrites
        ((transactionLog type index saved bitmap work commits).take count) card) entry.1 torn)
        final ∧
      ((count ≤ openWrites type index saved bitmap work ∧
          (SameData final card ∨ SameData final (rolledBack type index saved bitmap card))) ∨
        (openWrites type index saved bitmap work ≤ count ∧
          SameData final (applyWrites work card))) := by
  have sameAdded : SameData (applyWrites (journalAddLog type index saved bitmap) card) card :=
    same_data_of_journal_writes card (journal_add_log_targets type index saved bitmap)
  by_cases adding : count < (journalAddLog type index saved bitmap).length
  · -- the header is not active yet
    rw [transactionLog, List.take_append_of_le_length (by omega)]
    rw [transactionLog, List.getElem?_append_left adding] at written
    have same : SameData (applyWrites ((journalAddLog type index saved bitmap).take count) card)
        card := same_data_of_journal_writes card fun other member =>
      journal_add_log_targets type index saved bitmap other (List.mem_of_mem_take member)
    have range := journal_add_log_targets type index saved bitmap entry
      (List.mem_of_getElem? written)
    have early : count ≤ openWrites type index saved bitmap work := by
      unfold openWrites
      omega
    by_cases header : entry.1 = jrnlHeaderSector
    · rw [header] at readable ⊢
      obtain ⟨final, restores, restored⟩ := torn_header_restores readable
      exact ⟨final, restores, Or.inl ⟨early, Or.inl (restored.trans same)⟩⟩
    · refine ⟨_, Recovers.restores (Or.inl ⟨?_, rfl⟩), Or.inl ⟨early, Or.inl fun target outside => ?_⟩⟩
      · rw [JournalIdle, Function.update_of_ne (Ne.symm header),
          journal_copies_header type index saved bitmap card count adding]
        exact idle
      · rw [Function.update_of_ne (by omega)]
        exact same target outside
  · obtain ⟨later, rfl⟩ : ∃ later, count = (journalAddLog type index saved bitmap).length + later :=
      ⟨_, (Nat.add_sub_cancel' (not_lt.mp adding)).symm⟩
    rw [transactionLog, List.getElem?_append_right (by omega), Nat.add_sub_cancel_left] at written
    rw [transactionLog, List.take_length_add_append, apply_writes_append]
    by_cases working : later < work.length
    · -- the header is active and the copies stand
      rw [List.getElem?_append_left working] at written
      rw [List.take_append_of_le_length (by omega)]
      have member := List.mem_of_getElem? written
      have high : ∀ other ∈ work, 4 ≤ other.1 := by
        intro other inWork
        rcases covered other inWork with ⟨_, same⟩ | ⟨_, same⟩ <;> rw [same] <;> simp
      have journalKept : ∀ target ≤ 3,
          Function.update (applyWrites (work.take later)
            (applyWrites (journalAddLog type index saved bitmap) card)) entry.1 torn target =
          applyWrites (journalAddLog type index saved bitmap) card target := by
        intro target low
        have above := high entry member
        rw [Function.update_of_ne (by omega)]
        apply apply_writes_other
        intro other inTaken same
        have otherAbove := high other (List.mem_of_mem_take inTaken)
        omega
      have names : JournalNames type index saved bitmap (Function.update (applyWrites
          (work.take later) (applyWrites (journalAddLog type index saved bitmap) card)) entry.1
          torn) :=
        { header := by
            rw [journalKept _ (by decide), journal_add_header]
          content := fun kept => by
            rw [journalKept _ (by decide), journal_add_content _ _ _ _ _ kept]
          usage := fun saves => by
            rw [journalKept _ (by decide), journal_add_usage _ _ _ _ _ saves] }
      refine ⟨_, Recovers.restores (Or.inr ⟨names_ready names region, rfl⟩),
        Or.inl ⟨by unfold openWrites; omega, Or.inr ?_⟩⟩
      refine names_undone names region fun target outside => ?_
      by_cases changed : ∃ other ∈ work, other.1 = target
      · obtain ⟨other, inWork, rfl⟩ := changed
        exact Or.inl (covered other inWork)
      · right
        rw [Function.update_of_ne fun same => changed ⟨entry, member, same.symm⟩,
          apply_writes_other]
        · exact sameAdded target outside
        · intro other inTaken same
          exact changed ⟨other, List.mem_of_mem_take inTaken, same⟩
    · -- a commit is torn
      rw [List.getElem?_append_right (by omega)] at written
      have header : entry.1 = jrnlHeaderSector := by
        rw [List.eq_of_mem_replicate (List.mem_of_getElem? written)]
      rw [header] at readable ⊢
      obtain ⟨final, restores, restored⟩ := torn_header_restores readable
      refine ⟨final, restores, Or.inr ⟨by unfold openWrites; omega, restored.trans ?_⟩⟩
      rw [List.take_append, List.take_of_length_le (by omega), apply_writes_append]
      refine SameData.trans (same_data_of_journal_writes _ ?_) (sameAdded.apply_writes work)
      intro other inTaken
      rw [List.eq_of_mem_replicate (List.mem_of_mem_take inTaken)]
      simp

/-- What is changed between `journal_add` and `journal_free`. -/
structure Change where
  type : JrnlType
  sector : Nat
  saved : Sector
  bit : Option Bool
  content : Option Sector

namespace Change

variable (change : Change)

/-- Contact and message transactions may change both the bit and the content,
the histories only the content, a removal only the bit. -/
def Shaped : Prop :=
  match change.type with
  | .contact | .message => True
  | .callHist | .msgHist => change.bit = none ∧ change.content ≠ none
  | .remove => change.bit ≠ none ∧ change.content = none

/-- The bitmap covers the contact and message sectors, the histories follow. -/
def InRegion : Prop :=
  if change.type.savesBitmap then change.sector < totalDataSectorSize
  else change.sector < callHistoryDataStartSector + totalCallHistorySectorSize

def bitmapIndex : Nat := usageBitmapStartSector + usageBitmapFindSector change.sector

def dataIndex : Nat := dataSectorToRaw change.sector

def setBit : DbM StrgRet :=
  match change.bit with
  | some used => updateUsageBit change.sector used
  | none => return .strgOk

def setContent : DbM StrgRet :=
  match change.content with
  | some content => writeSector change.dataIndex content
  | none => return .strgOk

def run : DbM Bool := do
  if !(← journalAdd change.type change.sector change.saved) then
    return false
  if (← change.setBit) ≠ .strgOk then
    return false
  if (← change.setContent) ≠ .strgOk then
    return false
  return (← journalFree) == .strgOk

def bitLog (bitmap : UsageBitmap) : WriteLog Sector :=
  match change.bit with
  | some used => [(change.bitmapIndex,
      bitmapSector (setUsageBit bitmap change.sector used) (usageBitmapFindSector change.sector))]
  | none => []

def contentLog : WriteLog Sector :=
  match change.content with
  | some content => [(change.dataIndex, sectorCrcStamp content)]
  | none => []

/-- The card shows all of the change. -/
structure Done (bitmap : UsageBitmap) (card final : Card Sector) : Prop where
  bit : final change.bitmapIndex =
    match change.bit with
    | some used => bitmapSector (setUsageBit bitmap change.sector used)
        (usageBitmapFindSector change.sector)
    | none => card change.bitmapIndex
  content : final change.dataIndex =
    match change.content with
    | some content => sectorCrcStamp content
    | none => card change.dataIndex

/-- The card shows nothing of the change. `cut` is the card found after the
power cut: once its header is active, the sector comes back as it was saved. -/
structure Undone (card cut final : Card Sector) : Prop where
  bits : (final change.bitmapIndex).payload = (card change.bitmapIndex).payload
  bitmap : sectorCrcValid (card change.bitmapIndex) = true →
    final change.bitmapIndex = card change.bitmapIndex
  content : final change.dataIndex =
    if journalHeaderStatus (cut jrnlHeaderSector) = .rollback ∧ change.type ≠ .remove then
      sectorCrcStamp change.saved
    else card change.dataIndex

/-- What recovery makes of a transaction that was cut. -/
structure Settled (bitmap : UsageBitmap) (card cut final : Card Sector) : Prop where
  outcome : change.Done bitmap card final ∨ change.Undone card cut final
  others : ∀ index, index = 0 ∨ 4 ≤ index → index ≠ change.bitmapIndex →
    index ≠ change.dataIndex → final index = card index
  idle : JournalIdle final

end Change

/-- The bitmap sectors on the card are those in memory. -/
def BitmapMirrored (bitmap : UsageBitmap) (card : Card Sector) : Prop :=
  ∀ sector < usageBitmapSectorSize,
    card (usageBitmapStartSector + sector) = bitmapSector bitmap sector

section ChangeRuns

variable {change : Change}

theorem change_data_bound (region : change.InRegion) : change.sector < 40253 := by
  unfold Change.InRegion at region
  split at region
  · exact lt_trans region (by decide)
  · exact region

theorem out_setBit (narrow : u16 change.sector = change.sector) (db : Database)
    (card : Card Sector) :
    ∃ bitmap, out change.setBit db card =
      ((.strgOk, { db with usageBitmap := bitmap }), change.bitLog db.usageBitmap) := by
  unfold Change.setBit Change.bitLog
  cases change.bit with
  | none => exact ⟨db.usageBitmap, rfl⟩
  | some used =>
      refine ⟨setUsageBit db.usageBitmap change.sector used, ?_⟩
      dsimp only
      rw [out_updateUsageBit, narrow]
      rfl

theorem out_setContent (narrow : u16 change.dataIndex = change.dataIndex) (db : Database)
    (card : Card Sector) :
    out change.setContent db card = ((.strgOk, db), change.contentLog) := by
  unfold Change.setContent Change.contentLog
  cases change.content with
  | none => rfl
  | some content =>
      dsimp only
      rw [out_writeSector, narrow]

/-- The stamp that `journal_add` leaves in memory does not show in the bit's sector. -/
theorem bit_log_stamped (bitmap : UsageBitmap) :
    change.bitLog (if change.type.savesBitmap then
        stampBitmap bitmap (usageBitmapFindSector change.sector) else bitmap) =
      change.bitLog bitmap := by
  unfold Change.bitLog
  cases change.bit with
  | none => rfl
  | some used =>
      dsimp only
      split
      · rw [set_usage_bit_stamped]
      · rfl

theorem out_change_run (region : change.InRegion) (db : Database) (card : Card Sector) :
    (out change.run db card).2 =
      transactionLog change.type change.sector change.saved db.usageBitmap
        (change.bitLog db.usageBitmap ++ change.contentLog) 1 := by
  have bound := change_data_bound region
  have narrow : u16 change.sector = change.sector := u16_of_lt (by omega)
  have narrowData : u16 change.dataIndex = change.dataIndex := by
    apply u16_of_lt
    simp [Change.dataIndex]
    omega
  rw [Change.run, out_bind_of (out_journalAdd db card change.type change.saved (by omega))]
  obtain ⟨bitmap, bitRun⟩ := out_setBit narrow
    { db with
      journal := journalDataInit change.type change.sector
      usageBitmap := if change.type.savesBitmap then
        stampBitmap db.usageBitmap (usageBitmapFindSector change.sector)
        else db.usageBitmap }
    (applyWrites (journalAddLog change.type change.sector change.saved db.usageBitmap) card)
  simp only [Bool.not_true, Bool.false_eq_true, if_false]
  rw [out_bind_of bitRun]
  simp only [ne_eq, not_true_eq_false, if_false]
  rw [out_bind_of (out_setContent narrowData _ _)]
  simp only [not_true_eq_false, if_false]
  rw [out_bind_of (out_journalFree _ _)]
  simp only [out_pure, List.append_nil, transactionLog, commitLog, List.replicate_one,
    bit_log_stamped, List.append_assoc]

theorem change_covered (shaped : change.Shaped) (bitmap : UsageBitmap)
    (entry : Nat × Sector) (member : entry ∈ change.bitLog bitmap ++ change.contentLog) :
    (change.type ≠ .remove ∧ entry.1 = change.sector + dataRegionStartSector) ∨
    (change.type.savesBitmap = true ∧
      entry.1 = usageBitmapStartSector + usageBitmapFindSector change.sector) := by
  unfold Change.Shaped at shaped
  unfold Change.bitLog Change.contentLog at member
  rcases List.mem_append.mp member with bit | content
  · right
    split at bit
    · rename_i used bitCase
      rw [List.mem_singleton] at bit
      refine ⟨?_, by rw [bit]; rfl⟩
      split at shaped <;> simp_all [JrnlType.savesBitmap]
    · simp at bit
  · left
    split at content
    · rename_i data contentCase
      rw [List.mem_singleton] at content
      refine ⟨?_, by rw [content]; exact Nat.add_comm _ _⟩
      split at shaped <;> simp_all
    · simp at content

theorem change_bitmap_low (region : change.InRegion) (saves : change.type.savesBitmap = true) :
    usageBitmapFindSector change.sector < usageBitmapSectorSize := by
  unfold Change.InRegion at region
  rw [if_pos saves] at region
  simp at region ⊢
  omega

theorem change_separate (region : change.InRegion) : change.bitmapIndex ≠ change.dataIndex := by
  have bound := change_data_bound region
  simp [Change.bitmapIndex, Change.dataIndex]
  omega

theorem untouched_settled {bitmap : UsageBitmap} {card cut final : Card Sector}
    (inactive : journalHeaderStatus (cut jrnlHeaderSector) ≠ .rollback)
    (same : SameData final card) (idle : JournalIdle final) :
    change.Settled bitmap card cut final := by
  have bitmapSame : final change.bitmapIndex = card change.bitmapIndex :=
    same _ (Or.inr (by simp [Change.bitmapIndex]))
  have dataSame : final change.dataIndex = card change.dataIndex :=
    same _ (Or.inr (by simp [Change.dataIndex]; omega))
  refine ⟨Or.inr ⟨by rw [bitmapSame], fun _ => bitmapSame, ?_⟩,
    fun index outside _ _ => same index outside, idle⟩
  rw [dataSame, if_neg fun active => inactive active.1]

theorem undone_settled (region : change.InRegion) {bitmap : UsageBitmap}
    {card cut final : Card Sector} (mirror : BitmapMirrored bitmap card)
    (active : journalHeaderStatus (cut jrnlHeaderSector) = .rollback)
    (same : SameData final
      (rolledBack change.type change.sector change.saved bitmap card))
    (idle : JournalIdle final) : change.Settled bitmap card cut final := by
  have separate := change_separate region
  have dataName : change.sector + dataRegionStartSector = change.dataIndex := Nat.add_comm _ _
  have bitmapName : usageBitmapStartSector + usageBitmapFindSector change.sector =
      change.bitmapIndex := rfl
  unfold rolledBack at same
  rw [dataName, bitmapName] at same
  have bitmapSame := same change.bitmapIndex (Or.inr (by simp [Change.bitmapIndex]))
  have dataSame := same change.dataIndex (Or.inr (by simp [Change.dataIndex]; omega))
  rw [apply_writes_append] at bitmapSame dataSame
  have restored : (final change.bitmapIndex).payload = (card change.bitmapIndex).payload ∧
      (sectorCrcValid (card change.bitmapIndex) = true →
        final change.bitmapIndex = card change.bitmapIndex) := by
    rw [bitmapSame]
    split
    · rename_i saves
      have stored := mirror _ (change_bitmap_low region saves)
      rw [bitmapName] at stored
      rw [apply_writes_cons, apply_writes_nil, Function.update_self, ← stored]
      exact ⟨payload_stamp _, stamp_of_valid⟩
    · have kept : applyWrites (if change.type = .remove then []
          else [(change.dataIndex, sectorCrcStamp change.saved)]) card change.bitmapIndex =
            card change.bitmapIndex := by
        apply apply_writes_other
        intro entry member
        split at member
        · simp at member
        · rw [List.eq_of_mem_singleton member]
          exact separate.symm
      rw [apply_writes_nil, kept]
      exact ⟨rfl, fun _ => rfl⟩
  refine ⟨Or.inr ⟨restored.1, restored.2, ?_⟩, ?_, idle⟩
  · rw [dataSame, apply_writes_other]
    · by_cases remove : change.type = .remove
      · rw [if_pos remove, if_neg fun both => both.2 remove]
        rfl
      · rw [if_neg remove, if_pos ⟨active, remove⟩]
        exact Function.update_self _ _ _
    · intro entry member
      split at member
      · rw [List.eq_of_mem_singleton member]
        exact separate
      · simp at member
  · intro index outside notBitmap notData
    rw [same index outside]
    apply apply_writes_other
    intro entry member
    rcases List.mem_append.mp member with data | usage
    · split at data
      · simp at data
      · rw [List.eq_of_mem_singleton data]
        exact Ne.symm notData
    · split at usage
      · rw [List.eq_of_mem_singleton usage]
        exact Ne.symm notBitmap
      · simp at usage

theorem bit_log_addresses {bitmap : UsageBitmap} (entry : Nat × Sector)
    (member : entry ∈ change.bitLog bitmap) : entry.1 = change.bitmapIndex := by
  unfold Change.bitLog at member
  split at member
  · rw [List.eq_of_mem_singleton member]
  · simp at member

theorem content_log_addresses (entry : Nat × Sector) (member : entry ∈ change.contentLog) :
    entry.1 = change.dataIndex := by
  unfold Change.contentLog at member
  split at member
  · rw [List.eq_of_mem_singleton member]
  · simp at member

theorem complete_settled (region : change.InRegion) {bitmap : UsageBitmap}
    {card cut final : Card Sector}
    (same : SameData final
      (applyWrites (change.bitLog bitmap ++ change.contentLog) card))
    (idle : JournalIdle final) : change.Settled bitmap card cut final := by
  have separate := change_separate region
  refine ⟨Or.inl ⟨?_, ?_⟩, ?_, idle⟩
  · rw [same _ (Or.inr (by simp [Change.bitmapIndex])), apply_writes_append, apply_writes_other]
    · unfold Change.bitLog
      split
      · exact Function.update_self _ _ _
      · rfl
    · intro entry member
      rw [content_log_addresses entry member]
      exact separate.symm
  · rw [same _ (Or.inr (by simp [Change.dataIndex]; omega)), apply_writes_append]
    unfold Change.contentLog
    split
    · exact Function.update_self _ _ _
    · rw [apply_writes_nil]
      apply apply_writes_other
      intro entry member
      rw [bit_log_addresses entry member]
      exact separate
  · intro index outside notBitmap notData
    rw [same index outside]
    apply apply_writes_other
    intro entry member
    rcases List.mem_append.mp member with bit | content
    · rw [bit_log_addresses entry bit]
      exact Ne.symm notBitmap
    · rw [content_log_addresses entry content]
      exact Ne.symm notData

/-- A transaction of the program, cut at any write and recovered by any number
of start-ups that are cut themselves and a last one that is not, is found done
or undone as a whole. -/
theorem transaction_atomic (change : Change) (shaped : change.Shaped) (region : change.InRegion)
    (db : Database) (card : Card Sector) (idle : JournalIdle card)
    (mirror : BitmapMirrored db.usageBitmap card) (count : Nat) (later : Card Sector)
    (cuts : CutRecoveries (cutCard change.run db count card) later) (restarted : Database) :
    (out journalInit restarted later).1.1 = true ∧
      change.Settled db.usageBitmap card (cutCard change.run db count card)
        (applyWrites (out journalInit restarted later).2 later) := by
  have bound := change_data_bound region
  obtain ⟨final, recovers, outcome⟩ := @transaction_cut _ _ change.saved
    db.usageBitmap _ _ _ idle (by simp; omega)
    (change_covered shaped db.usageBitmap) Nat.zero_lt_one count
  rw [← out_change_run region db card, ← cut_card_eq] at recovers outcome
  have recoversLater := recovers_cut_recoveries recovers cuts
  have finalIdle := recovered_idle recoversLater
  obtain ⟨header, log, run, applied⟩ := recovers_journalInit recoversLater restarted
  rw [run]
  refine ⟨rfl, ?_⟩
  dsimp only
  rw [applied]
  cases outcome with
  | untouched _ inactive same => exact untouched_settled inactive same finalIdle
  | undone _ active same => exact undone_settled region mirror active same finalIdle
  | complete _ same => exact complete_settled region same finalIdle

end ChangeRuns

/-- A card with an empty journal and an empty usage bitmap. -/
def blankCard : Card Sector := fun index =>
  if index = jrnlHeaderSector then
    sectorCrcStamp (toSector (⟨jrnlMagic, jrnlEmpty, 0#8, 0#16, zeros 500⟩ : JournalHeader))
  else bitmapSector .zero (index - usageBitmapStartSector)

theorem blank_card_idle : JournalIdle blankCard := by
  simp [JournalIdle, blankCard, journalHeaderStatus, jrnlEmpty, jrnlActive]

theorem blank_card_mirrored : BitmapMirrored .zero blankCard := by
  intro sector bound
  have notHeader : usageBitmapStartSector + sector ≠ jrnlHeaderSector := by
    simp
    omega
  rw [blankCard, if_neg notHeader, Nat.add_sub_cancel_left]

def blankDatabase : Database where
  journal := .zero
  htable := ⟨fun _ => .zero, 0, hashTableSize⟩
  contactAllocator := ⟨[], 0, 0⟩
  messageAllocator := ⟨[], 0, 0⟩
  messageHistory := ⟨0#32, 0, 0, 0⟩
  callHistory := ⟨0#32, 0, 0, 0⟩
  nameIndex := ⟨[]⟩
  chatOrder := ⟨[]⟩
  usageBitmap := .zero

/-- A first contact sector written over a blank one, cut after its bitmap sector. -/
def firstContactChange : Change where
  type := .contact
  sector := 0
  saved := nullContent
  bit := some true
  content := some nullContent

theorem transaction_atomic_first_contact :
    (out journalInit blankDatabase (cutCard firstContactChange.run blankDatabase 4 blankCard)).1.1 =
        true ∧
      firstContactChange.Settled .zero blankCard
        (cutCard firstContactChange.run blankDatabase 4 blankCard)
        (applyWrites (out journalInit blankDatabase
          (cutCard firstContactChange.run blankDatabase 4 blankCard)).2
          (cutCard firstContactChange.run blankDatabase 4 blankCard)) :=
  transaction_atomic firstContactChange trivial
    (by simp [Change.InRegion, firstContactChange, JrnlType.savesBitmap]) blankDatabase blankCard
    blank_card_idle blank_card_mirrored 4 _ (.none _) blankDatabase

end SdDatabase
