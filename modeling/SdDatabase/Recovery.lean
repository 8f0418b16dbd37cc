import SdDatabase.Journal

/-!
# Journal recovery

What `journal_init` does with a card on which a transaction was cut short. The
start-up finishes or undoes the transaction, and a start-up that is itself cut
leaves a card with the same outcome, so the number of cuts does not matter.
-/

namespace SdDatabase

open Bytes Device

set_option autoImplicit false

def headerOn (card : Card Sector) : JournalHeader := ofSector (card jrnlHeaderSector)

def JournalIdle (card : Card Sector) : Prop :=
  journalHeaderStatus (card jrnlHeaderSector) = .valid

/-- The two cards agree on everything but the three journal sectors. -/
def SameData (first second : Card Sector) : Prop :=
  ∀ index, index = 0 ∨ 4 ≤ index → first index = second index

theorem SameData.trans {first second third : Card Sector} (left : SameData first second)
    (right : SameData second third) : SameData first third :=
  fun index outside => (left index outside).trans (right index outside)

/-- Writes to the journal sectors only leave the data alone. -/
theorem same_data_of_journal_writes {log : WriteLog Sector} (card : Card Sector)
    (journalOnly : ∀ entry ∈ log, 1 ≤ entry.1 ∧ entry.1 ≤ 3) :
    SameData (applyWrites log card) card := by
  intro index outside
  apply apply_writes_other
  intro entry member same
  have range := journalOnly entry member
  omega

theorem SameData.apply_writes {first second : Card Sector} (same : SameData first second)
    (log : WriteLog Sector) : SameData (applyWrites log first) (applyWrites log second) :=
  fun index outside => apply_writes_congr log first second index (Or.inr (same index outside))

theorem header_status_active (type : JrnlType) (index : Nat) :
    journalHeaderStatus (sectorCrcStamp (toSector (journalDataInit type index))) = .rollback := by
  simp [journalHeaderStatus, journalDataInit, jrnlActive]

theorem header_status_committed {header : JournalHeader} (magic : header.magic = jrnlMagic) :
    journalHeaderStatus (sectorCrcStamp (toSector header.committed)) = .valid := by
  simp [journalHeaderStatus, JournalHeader.committed, magic, jrnlCommitted, jrnlActive]

theorem rollback_magic {sector : Sector} (active : journalHeaderStatus sector = .rollback) :
    (ofSector sector : JournalHeader).magic = jrnlMagic := by
  unfold journalHeaderStatus at active
  dsimp only at active
  split at active
  · split at active <;> cases active
  · split at active
    · cases active
    · simp_all

def JournalHeader.isHistory (header : JournalHeader) : Bool :=
  header.type == JrnlType.callHist.code || header.type == JrnlType.msgHist.code

def JournalHeader.isRemove (header : JournalHeader) : Bool :=
  header.type == JrnlType.remove.code

/-- Writes of `journal_rollback`: content, bitmap sector, committed header. -/
def rollbackLog (card : Card Sector) : WriteLog Sector :=
  let header := headerOn card
  (if header.isRemove then []
  else [(u16 (header.sector.toNat + dataRegionStartSector),
    sectorCrcStamp (card jrnlContentSector))]) ++
  (if header.isHistory then []
  else [(usageBitmapStartSector + usageBitmapFindSector header.sector.toNat,
    sectorCrcStamp (card jrnlUsageSector))]) ++
  [(jrnlHeaderSector, sectorCrcStamp (toSector header.committed))]

/-- An active header whose copies can be read back. -/
structure RollbackReady (card : Card Sector) : Prop where
  active : journalHeaderStatus (card jrnlHeaderSector) = .rollback
  region : (headerOn card).sector.toNat + dataRegionStartSector < 65536
  content : (headerOn card).isRemove = false → sectorCrcValid (card jrnlContentSector) = true
  usage : (headerOn card).isHistory = false → sectorCrcValid (card jrnlUsageSector) = true

theorem code_remove_history : JrnlType.remove.code ≠ JrnlType.callHist.code ∧
    JrnlType.remove.code ≠ JrnlType.msgHist.code := by decide

theorem out_journalInit_idle (db : Database) {card : Card Sector} (idle : JournalIdle card) :
    out journalInit db card = ((true, { db with journal := headerOn card }), []) := by
  have narrow : u16 jrnlHeaderSector = jrnlHeaderSector := rfl
  simp only [JournalIdle] at idle
  simp only [journalInit, getJournalStatus, out_bind, out_readSectorRaw, narrow, idle]
  rfl

theorem out_journalRollbackUsage (header : JournalHeader) (db : Database) {card : Card Sector}
    (usage : sectorCrcValid (card jrnlUsageSector) = true) :
    out (journalRollbackUsage header) db card =
      ((true, { db with journal := db.journal.committed }),
        [(usageBitmapStartSector + usageBitmapFindSector header.sector.toNat,
          sectorCrcStamp (card jrnlUsageSector)),
         (jrnlHeaderSector, sectorCrcStamp (toSector db.journal.committed))]) := by
  have sectorBound := header.sector.isLt
  have copySector : u16 jrnlUsageSector = jrnlUsageSector := rfl
  have narrow : u16 (usageBitmapStartSector + usageBitmapFindSector header.sector.toNat) =
      usageBitmapStartSector + usageBitmapFindSector header.sector.toNat := by
    apply u16_of_lt
    simp
    omega
  simp only [journalRollbackUsage, out_bind, out_readSector, copySector, usage, if_true,
    out_writeSector, narrow, apply_writes_nil, ne_eq, not_true_eq_false, if_false, out_pure,
    out_journalFree, List.nil_append, List.singleton_append, List.append_nil]
  rfl

theorem out_journalInit_rollback (db : Database) {card : Card Sector}
    (ready : RollbackReady card) :
    out journalInit db card =
      ((true, { db with journal := (headerOn card).committed }), rollbackLog card) := by
  have narrowHeader : u16 jrnlHeaderSector = jrnlHeaderSector := rfl
  have status : out getJournalStatus db card =
      ((.rollback, { db with journal := headerOn card }), []) := by
    simp only [getJournalStatus, out_bind, out_readSectorRaw, narrowHeader, ready.active]
    rfl
  rw [journalInit, out_bind_of status]
  have region := ready.region
  have content := ready.content
  have usage := ready.usage
  simp only [apply_writes_nil, List.nil_append, journalRollback, out_bind, out_get, rollbackLog]
  generalize headerOn card = header at *
  have contentSector : u16 jrnlContentSector = jrnlContentSector := rfl
  have dataSector : u16 (header.sector.toNat + dataRegionStartSector) =
      header.sector.toNat + dataRegionStartSector := u16_of_lt region
  by_cases remove : header.type = JrnlType.remove.code
  · have isRemove : header.isRemove = true := by simp [JournalHeader.isRemove, remove]
    have notHistory : header.isHistory = false := by
      simp [JournalHeader.isHistory, remove, code_remove_history]
    simp only [ne_eq, remove, not_true_eq_false, if_false, isRemove, notHistory,
      out_journalRollbackUsage header _ (usage notHistory)]
    rfl
  · have notRemove : header.isRemove = false := by simp [JournalHeader.isRemove, remove]
    simp only [ne_eq, remove, not_false_eq_true, if_true, out_bind, out_readSector, contentSector,
      content notRemove, out_writeSector, dataSector, apply_writes_nil, apply_writes_cons, not_true_eq_false,
      if_false, notRemove, List.nil_append]
    by_cases history : header.type = JrnlType.callHist.code ∨ header.type = JrnlType.msgHist.code
    · have isHistory : header.isHistory = true := by simpa [JournalHeader.isHistory] using history
      simp only [history, isHistory, if_true]
      rfl
    · have notHistory : header.isHistory = false := by
        simpa [JournalHeader.isHistory] using history
      have copyUntouched : Function.update card (header.sector.toNat + dataRegionStartSector)
          (sectorCrcStamp (card jrnlContentSector)) jrnlUsageSector = card jrnlUsageSector := by
        apply Function.update_of_ne
        simp
      simp only [history, notHistory, if_false]
      rw [out_journalRollbackUsage header _ (by rw [copyUntouched]; exact usage notHistory),
        copyUntouched]
      rfl

/-- A start-up on `card` recovers the journal and leaves `final`. -/
def Recovers (card final : Card Sector) : Prop :=
  (JournalIdle card ∧ final = card) ∨
    (RollbackReady card ∧ final = applyWrites (rollbackLog card) card)

theorem recovers_journalInit {card final : Card Sector} (recovers : Recovers card final)
    (db : Database) :
    ∃ header log, out journalInit db card = ((true, { db with journal := header }), log) ∧
      applyWrites log card = final := by
  rcases recovers with ⟨idle, rfl⟩ | ⟨ready, rfl⟩
  · exact ⟨_, _, out_journalInit_idle db idle, rfl⟩
  · exact ⟨_, _, out_journalInit_rollback db ready, rfl⟩

theorem rollback_log_targets {card : Card Sector} (ready : RollbackReady card) :
    ∃ work, rollbackLog card =
        work ++ [(jrnlHeaderSector, sectorCrcStamp (toSector (headerOn card).committed))] ∧
      ∀ entry ∈ work, 4 ≤ entry.1 := by
  refine ⟨_, rfl, ?_⟩
  intro entry member
  have narrow : u16 ((headerOn card).sector.toNat + dataRegionStartSector) =
      (headerOn card).sector.toNat + dataRegionStartSector := u16_of_lt ready.region
  rw [narrow] at member
  rcases List.mem_append.mp member with content | usage
  · split at content
    · simp at content
    · rw [List.mem_singleton] at content
      rw [content]
      simp
  · split at usage
    · simp at usage
    · rw [List.mem_singleton] at usage
      rw [usage]
      simp

/-- The recovery reads the journal sectors only. -/
theorem rollback_log_congr {first second : Card Sector}
    (header : second jrnlHeaderSector = first jrnlHeaderSector)
    (content : second jrnlContentSector = first jrnlContentSector)
    (usage : second jrnlUsageSector = first jrnlUsageSector) :
    rollbackLog second = rollbackLog first := by
  have same : headerOn second = headerOn first := by simp only [headerOn, header]
  unfold rollbackLog
  rw [same, content, usage]

theorem rollback_ready_congr {first second : Card Sector} (ready : RollbackReady first)
    (header : second jrnlHeaderSector = first jrnlHeaderSector)
    (content : second jrnlContentSector = first jrnlContentSector)
    (usage : second jrnlUsageSector = first jrnlUsageSector) : RollbackReady second := by
  have same : headerOn second = headerOn first := by simp only [headerOn, header]
  exact
    { active := by rw [header]; exact ready.active
      region := by rw [same]; exact ready.region
      content := by rw [same, content]; exact ready.content
      usage := by rw [same, usage]; exact ready.usage }

theorem recovered_idle {card final : Card Sector} (recovers : Recovers card final) :
    JournalIdle final := by
  rcases recovers with ⟨idle, rfl⟩ | ⟨ready, rfl⟩
  · exact idle
  · obtain ⟨work, log, targets⟩ := rollback_log_targets ready
    rw [log, apply_writes_append]
    simp only [apply_writes_cons, apply_writes_nil, JournalIdle, Function.update_self]
    exact header_status_committed (rollback_magic ready.active)

theorem recovered_superheader {card final : Card Sector} (recovers : Recovers card final) :
    final superheaderSector = card superheaderSector := by
  rcases recovers with ⟨_, rfl⟩ | ⟨ready, rfl⟩
  · rfl
  · obtain ⟨work, log, targets⟩ := rollback_log_targets ready
    rw [log]
    apply apply_writes_other
    intro entry member
    rcases List.mem_append.mp member with inWork | header
    · have high := targets entry inWork
      simp
      omega
    · rw [List.eq_of_mem_singleton header]
      simp

theorem recovers_cut {card final : Card Sector} (recovers : Recovers card final) (db : Database)
    (count : Nat) : Recovers (cutCard journalInit db count card) final := by
  rw [cut_card_eq]
  rcases recovers with ⟨idle, rfl⟩ | ⟨ready, rfl⟩
  · rw [out_journalInit_idle db idle]
    exact Or.inl ⟨by simpa using idle, by simp⟩
  · rw [out_journalInit_rollback db ready]
    obtain ⟨work, log, targets⟩ := rollback_log_targets ready
    by_cases complete : (rollbackLog card).length ≤ count
    · rw [List.take_of_length_le complete]
      exact Or.inl ⟨recovered_idle (Or.inr ⟨ready, rfl⟩), rfl⟩
    · have untouched : ∀ index < 4,
          applyWrites ((rollbackLog card).take count) card index = card index := by
        intro index low
        apply apply_writes_other
        intro entry member same
        have short : count ≤ work.length := by
          rw [log] at complete
          simp at complete
          omega
        rw [log, List.take_append_of_le_length short] at member
        have high := targets entry (List.mem_of_mem_take member)
        omega
      have header := untouched jrnlHeaderSector (by decide)
      have content := untouched jrnlContentSector (by decide)
      have usage := untouched jrnlUsageSector (by decide)
      refine Or.inr ⟨rollback_ready_congr ready header content usage, ?_⟩
      rw [rollback_log_congr header content usage, apply_writes_take_then_all]

/-- A start-up on `card` succeeds and leaves `final`. -/
structure Restores (card final : Card Sector) : Prop where
  run : ∀ db, ∃ header log, out journalInit db card = ((true, { db with journal := header }), log) ∧
    applyWrites log card = final
  idle : JournalIdle final
  superheader : final superheaderSector = card superheaderSector

theorem Recovers.restores {card final : Card Sector} (recovers : Recovers card final) :
    Restores card final :=
  ⟨recovers_journalInit recovers, recovered_idle recovers, recovered_superheader recovers⟩

/-- The header of a journal without a transaction, as it is written to a new card. -/
def emptyHeaderBlock : Sector :=
  sectorCrcStamp (toSector (⟨jrnlMagic, jrnlEmpty, 0#8, 0#16, zeros 500⟩ : JournalHeader))

theorem empty_header_idle : journalHeaderStatus emptyHeaderBlock = .valid := by
  simp [journalHeaderStatus, emptyHeaderBlock, jrnlEmpty, jrnlActive]

/-- A header that counts as never written is written anew. -/
theorem restores_uninitialized {card : Card Sector}
    (blank : journalHeaderStatus (card jrnlHeaderSector) = .uninitialized) :
    Restores card (Function.update card jrnlHeaderSector emptyHeaderBlock) where
  run db := by
    refine ⟨db.journal, [(jrnlHeaderSector, emptyHeaderBlock)], ?_, rfl⟩
    have narrow : u16 jrnlHeaderSector = jrnlHeaderSector := rfl
    have status : out getJournalStatus db card = ((.uninitialized, db), []) := by
      simp only [getJournalStatus, out_bind, out_readSectorRaw, narrow, blank]
      rfl
    rw [journalInit, out_bind_of status]
    rfl
  idle := by
    rw [JournalIdle, Function.update_self]
    exact empty_header_idle
  superheader := Function.update_of_ne (by decide) _ _

/-- Any number of start-ups, each cut while it recovers the journal. -/
inductive CutRecoveries : Card Sector → Card Sector → Prop where
  | none (card : Card Sector) : CutRecoveries card card
  | cut {card later : Card Sector} (db : Database) (count : Nat)
      (rest : CutRecoveries (cutCard journalInit db count card) later) : CutRecoveries card later

theorem recovers_cut_recoveries {card later final : Card Sector} (recovers : Recovers card final)
    (cuts : CutRecoveries card later) : Recovers later final := by
  induction cuts with
  | none => exact recovers
  | cut db count rest ih => exact ih (recovers_cut recovers db count)

end SdDatabase
