import SdDatabase.View

/-!
# Power cuts in a run of transactions

A run is safe towards power cuts when, whatever write the power is cut at, the
recovery of the journal leaves a card that holds one of a few known views. Runs
of single transactions are safe, and safe runs can be put behind one another.
-/

namespace SdDatabase

open Bytes Device

set_option autoImplicit false

def HoldsView (card : Card Sector) (view : View) : Prop := ∃ bitmap, Holds bitmap card view

/-- A power cut after `count` writes recovers to a card with a view that `during count`
allows, and one that tears the next sector to a view allowed before or after it. -/
structure CrashSafe (log : WriteLog Sector) (card : Card Sector) (during : Nat → View → Prop) :
    Prop where
  cut : ∀ count, ∃ final view, Recovers (applyWrites (log.take count) card) final ∧
    during count view ∧ HoldsView final view
  torn : ∀ count entry, log[count]? = some entry → ∀ torn, TornReadable entry.1 torn →
    ∃ final view,
      Restores (Function.update (applyWrites (log.take count) card) entry.1 torn) final ∧
      (during count view ∨ during (count + 1) view) ∧ HoldsView final view

/-- Views allowed in two runs behind one another, the first of `length` writes. -/
def thenDuring (length : Nat) (first second : Nat → View → Prop) : Nat → View → Prop :=
  fun count view => (count ≤ length ∧ first count view) ∨
    (length ≤ count ∧ second (count - length) view)

section CrashSafe

variable {first second log : WriteLog Sector} {card : Card Sector}
  {during later wider : Nat → View → Prop}

theorem CrashSafe.append (safeFirst : CrashSafe first card during)
    (safeSecond : CrashSafe second (applyWrites first card) later) :
    CrashSafe (first ++ second) card (thenDuring first.length during later) where
  cut count := by
    by_cases inFirst : count < first.length
    · obtain ⟨final, view, recovers, known, holds⟩ := safeFirst.cut count
      rw [List.take_append_of_le_length (by omega)]
      exact ⟨final, view, recovers, Or.inl ⟨by omega, known⟩, holds⟩
    · obtain ⟨final, view, recovers, known, holds⟩ := safeSecond.cut (count - first.length)
      rw [List.take_append, List.take_of_length_le (by omega), apply_writes_append]
      exact ⟨final, view, recovers, Or.inr ⟨by omega, known⟩, holds⟩
  torn count entry written torn readable := by
    by_cases inFirst : count < first.length
    · rw [List.getElem?_append_left inFirst] at written
      obtain ⟨final, view, restores, known, holds⟩ :=
        safeFirst.torn count entry written torn readable
      rw [List.take_append_of_le_length (by omega)]
      refine ⟨final, view, restores, known.imp (fun known => ?_) fun known => ?_, holds⟩
      · exact Or.inl ⟨by omega, known⟩
      · exact Or.inl ⟨by omega, known⟩
    · rw [List.getElem?_append_right (by omega)] at written
      obtain ⟨final, view, restores, known, holds⟩ :=
        safeSecond.torn (count - first.length) entry written torn readable
      rw [List.take_append, List.take_of_length_le (by omega), apply_writes_append]
      refine ⟨final, view, restores, known.imp (fun known => ?_) fun known => ?_, holds⟩
      · exact Or.inr ⟨by omega, known⟩
      · exact Or.inr ⟨by omega, by rwa [Nat.sub_add_comm (by omega)]⟩

theorem CrashSafe.mono (safe : CrashSafe log card during)
    (widen : ∀ count view, during count view → wider count view) :
    CrashSafe log card wider where
  cut count := by
    obtain ⟨final, view, recovers, known, holds⟩ := safe.cut count
    exact ⟨final, view, recovers, widen count view known, holds⟩
  torn count entry written torn readable := by
    obtain ⟨final, view, restores, known, holds⟩ := safe.torn count entry written torn readable
    exact ⟨final, view, restores, known.imp (widen count view) (widen (count + 1) view), holds⟩

theorem crash_safe_nil {bitmap : UsageBitmap} {view : View} (idle : JournalIdle card)
    (holds : Holds bitmap card view) (known : ∀ count, during count view) :
    CrashSafe [] card during where
  cut count := by
    rw [List.take_nil, apply_writes_nil]
    exact ⟨card, view, Or.inl ⟨idle, rfl⟩, known count, bitmap, holds⟩
  torn count entry written := by cases written

end CrashSafe

/-- After the log the card holds `view` with an idle journal, and every cut on
the way recovers to a view that `during` allows. -/
structure Leads (card : Card Sector) (log : WriteLog Sector) (bitmap : UsageBitmap) (view : View)
    (during : Nat → View → Prop) : Prop where
  idle : JournalIdle (applyWrites log card)
  holds : Holds bitmap (applyWrites log card) view
  safe : CrashSafe log card during

theorem leads_nil {card : Card Sector} {bitmap : UsageBitmap} {view : View}
    {during : Nat → View → Prop} (idle : JournalIdle card) (holds : Holds bitmap card view)
    (known : ∀ count, during count view) : Leads card [] bitmap view during :=
  ⟨idle, holds, crash_safe_nil idle holds known⟩

theorem Leads.mono {card : Card Sector} {log : WriteLog Sector} {bitmap : UsageBitmap}
    {view : View} {during wider : Nat → View → Prop} (leads : Leads card log bitmap view during)
    (widen : ∀ count other, during count other → wider count other) :
    Leads card log bitmap view wider :=
  ⟨leads.idle, leads.holds, leads.safe.mono widen⟩

theorem Leads.append {card : Card Sector} {first second : WriteLog Sector}
    {bitmap next : UsageBitmap} {view later : View} {during then_ : Nat → View → Prop}
    (leadsFirst : Leads card first bitmap view during)
    (leadsSecond : Leads (applyWrites first card) second next later then_) :
    Leads card (first ++ second) next later (thenDuring first.length during then_) where
  idle := by
    rw [apply_writes_append]
    exact leadsSecond.idle
  holds := by
    rw [apply_writes_append]
    exact leadsSecond.holds
  safe := leadsFirst.safe.append leadsSecond.safe

/-- Two runs of which only the set of views seen is of interest. -/
theorem Leads.append_seen {card : Card Sector} {first second : WriteLog Sector}
    {bitmap next : UsageBitmap} {view later : View} {during : View → Prop}
    (leadsFirst : Leads card first bitmap view fun _ => during)
    (leadsSecond : Leads (applyWrites first card) second next later fun _ => during) :
    Leads card (first ++ second) next later fun _ => during :=
  (leadsFirst.append leadsSecond).mono fun _ _ seen => seen.elim And.right And.right

theorem transaction_final (type : JrnlType) (index : Nat) (saved : Sector) (bitmap : UsageBitmap)
    (work : WriteLog Sector) {commits : Nat} (card : Card Sector) (committed : 0 < commits) :
    JournalIdle (applyWrites (transactionLog type index saved bitmap work commits) card) ∧
      SameData (applyWrites (transactionLog type index saved bitmap work commits) card)
        (applyWrites work card) := by
  obtain ⟨fewer, rfl⟩ : ∃ fewer, commits = fewer + 1 :=
    ⟨_, (Nat.succ_pred_eq_of_pos committed).symm⟩
  have added : SameData (applyWrites (journalAddLog type index saved bitmap) card) card :=
    same_data_of_journal_writes card (journal_add_log_targets type index saved bitmap)
  rw [transactionLog, apply_writes_append, apply_writes_append]
  constructor
  · have header : applyWrites (commitLog type index (fewer + 1))
        (applyWrites work (applyWrites (journalAddLog type index saved bitmap) card))
        jrnlHeaderSector = sectorCrcStamp (toSector (journalDataInit type index).committed) := by
      rw [commitLog, List.replicate_succ', apply_writes_append]
      simp
    rw [JournalIdle, header]
    exact header_status_committed rfl
  · refine SameData.trans (same_data_of_journal_writes _ ?_) (added.apply_writes work)
    intro entry member
    rw [List.eq_of_mem_replicate member]
    simp

/-- Views seen when a transaction with its first commit behind `length` writes is cut. -/
def atCommit (length : Nat) (view later : View) : Nat → View → Prop :=
  fun count seen => seen = if count ≤ length then view else later

theorem at_commit_seen {length count : Nat} {view later seen : View}
    (known : atCommit length view later count seen) : seen = view ∨ seen = later := by
  unfold atCommit at known
  split at known
  · exact Or.inl known
  · exact Or.inr known

theorem transaction_leads {type : JrnlType} {index : Nat} {saved : Sector}
    {bitmap next : UsageBitmap} {work : WriteLog Sector} {commits : Nat} {card : Card Sector}
    {view later : View} (idle : JournalIdle card) (holds : Holds bitmap card view)
    (region : index + dataRegionStartSector < 65536)
    (covered : ∀ entry ∈ work,
      (type ≠ .remove ∧ entry.1 = index + dataRegionStartSector) ∨
      (type.savesBitmap = true ∧ entry.1 = usageBitmapStartSector + usageBitmapFindSector index))
    (committed : 0 < commits)
    (undone : Holds bitmap (rolledBack type index saved bitmap card) view)
    (done : Holds next (applyWrites work card) later) :
    Leads card (transactionLog type index saved bitmap work commits) next later
      (atCommit (openWrites type index saved bitmap work) view later) := by
  obtain ⟨finalIdle, finalSame⟩ :=
    transaction_final type index saved bitmap work card committed
  refine ⟨finalIdle, done.same_data finalSame, fun count => ?_,
    fun count entry written torn readable => ?_⟩
  · obtain ⟨final, recovers, outcome⟩ := @transaction_cut _ _ saved bitmap _ _ _
      idle region covered committed count
    cases outcome with
    | untouched early _ same =>
        exact ⟨final, view, recovers, by rw [atCommit, if_pos early], bitmap, holds.same_data same⟩
    | undone early _ same =>
        exact ⟨final, view, recovers, by rw [atCommit, if_pos early], bitmap,
          undone.same_data same⟩
    | complete late same =>
        exact ⟨final, later, recovers, by rw [atCommit, if_neg (not_le.mpr late)], next,
          done.same_data same⟩
  · obtain ⟨final, restores, outcome⟩ := transaction_torn idle region covered written readable
    rcases outcome with ⟨early, same | same⟩ | ⟨late, same⟩
    · exact ⟨final, view, restores, Or.inl (by rw [atCommit, if_pos early]), bitmap,
        holds.same_data same⟩
    · exact ⟨final, view, restores, Or.inl (by rw [atCommit, if_pos early]), bitmap,
        undone.same_data same⟩
    · exact ⟨final, later, restores, Or.inr (by rw [atCommit, if_neg (by omega)]), next,
        done.same_data same⟩

/-- Rolling back changes the data sector only, since the bitmap is the saved one. -/
theorem rolled_back_other {type : JrnlType} {index : Nat} {saved : Sector} {bitmap : UsageBitmap}
    {card : Card Sector} (bits : BitmapHolds bitmap card)
    (low : type.savesBitmap = true → index < totalDataSectorSize) {target : Nat}
    (other : target ≠ index + dataRegionStartSector ∨ type = .remove) :
    rolledBack type index saved bitmap card target = card target := by
  have dataKept : applyWrites (if type = .remove then []
      else [(index + dataRegionStartSector, sectorCrcStamp saved)]) card target = card target := by
    apply apply_writes_other
    intro entry member
    split at member
    · simp at member
    · rename_i kept
      rw [List.eq_of_mem_singleton member]
      rcases other with other | remove
      · exact Ne.symm other
      · exact absurd remove kept
  rw [rolledBack, apply_writes_append]
  by_cases saves : type.savesBitmap = true
  · have inside : usageBitmapFindSector index < usageBitmapSectorSize := by
      have bound := low saves
      simp at bound ⊢
      omega
    have stored := bits.mirror _ inside
    rw [if_pos saves, apply_writes_cons, apply_writes_nil, stamp_of_valid (bits.stamped _ inside)]
    by_cases atBitmap : target = usageBitmapStartSector + usageBitmapFindSector index
    · rw [atBitmap, Function.update_self, stored]
    · rw [Function.update_of_ne atBitmap, dataKept]
  · rw [if_neg saves, apply_writes_nil, dataKept]

theorem Holds.rolled_back_stored {type : JrnlType} {index : Nat} {saved : Sector}
    {bitmap : UsageBitmap} {card : Card Sector} {view : View} (holds : Holds bitmap card view)
    (low : type.savesBitmap = true → index < totalDataSectorSize)
    (stored : type ≠ .remove → saved = card (index + dataRegionStartSector))
    (valid : type ≠ .remove → sectorCrcValid saved = true) :
    Holds bitmap (rolledBack type index saved bitmap card) view := by
  have same : rolledBack type index saved bitmap card = card := by
    funext target
    by_cases remove : type = .remove
    · exact rolled_back_other holds.bits low (Or.inr remove)
    · by_cases atData : target = index + dataRegionStartSector
      · have bitmapKept : applyWrites (if type.savesBitmap then
            [(usageBitmapStartSector + usageBitmapFindSector index,
              sectorCrcStamp (bitmapSector bitmap (usageBitmapFindSector index)))]
            else []) (Function.update card (index + dataRegionStartSector)
              (sectorCrcStamp saved)) target = sectorCrcStamp saved := by
          rw [apply_writes_other, atData, Function.update_self]
          intro entry member
          split at member
          · rename_i saves
            have bound := low saves
            rw [List.eq_of_mem_singleton member, atData]
            simp at bound ⊢
            omega
          · simp at member
        rw [rolledBack, apply_writes_append, if_neg remove, apply_writes_cons, apply_writes_nil,
          bitmapKept, stamp_of_valid (valid remove), stored remove, atData]
      · exact rolled_back_other holds.bits low (Or.inl atData)
  rw [same]
  exact holds

def bitWork (bitmap : UsageBitmap) (dataSector : Nat) (used : Bool) : WriteLog Sector :=
  [(usageBitmapStartSector + usageBitmapFindSector dataSector,
    bitmapSector (setUsageBit bitmap dataSector used) (usageBitmapFindSector dataSector))]

section BitWork

variable {bitmap : UsageBitmap} {card : Card Sector} {dataSector : Nat} (used : Bool)

theorem bit_work_other {target : Nat} (low : dataSector < totalDataSectorSize)
    (other : target < 4 ∨ 12 ≤ target) :
    applyWrites (bitWork bitmap dataSector used) card target = card target := by
  apply apply_writes_other
  intro entry member
  rw [List.eq_of_mem_singleton member]
  simp at low ⊢
  omega

theorem BitmapHolds.set (bits : BitmapHolds bitmap card) (low : dataSector < totalDataSectorSize) :
    BitmapHolds (setUsageBit bitmap dataSector used)
      (applyWrites (bitWork bitmap dataSector used) card) where
  mirror sector bound := by
    simp only [bitWork, apply_writes_cons, apply_writes_nil]
    by_cases changed : sector = usageBitmapFindSector dataSector
    · rw [changed, Function.update_self]
    · rw [Function.update_of_ne (by omega), set_bitmap_other _ _ _ changed]
      exact bits.mirror sector bound
  stamped sector bound := by
    by_cases changed : sector = usageBitmapFindSector dataSector
    · rw [changed]
      exact set_sector_valid _ _ _
    · rw [set_bitmap_other _ _ _ changed]
      exact bits.stamped sector bound
  beyond other behind inside := by
    rw [usage_bit_set, if_neg (by omega)]
    exact bits.beyond other behind inside

end BitWork

end SdDatabase
