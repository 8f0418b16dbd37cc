import SdDatabase.Recovery
import SdDatabase.Lib.WriteTrace

/-!
# The writes to the journal

The journal sectors are written by `journal_add`, copies before header, and by
`journal_free`. As long as no copy is written while the header on the card is
active, the copies behind an active header are those that were made for it,
whichever writes fail.
-/

namespace SdDatabase

open Bytes Device

set_option autoImplicit false

/-- What `journal_add` is called with, and the bitmap that it finds in memory. -/
structure JournalEntry where
  type : JrnlType
  index : Nat
  content : Sector
  bitmap : UsageBitmap
  region : index + dataRegionStartSector < 65536

namespace JournalEntry

def log (entry : JournalEntry) : WriteLog Sector :=
  journalAddLog entry.type entry.index entry.content entry.bitmap

/-- What a rollback with the copies of the entry writes. -/
def restores (entry : JournalEntry) : WriteLog Sector :=
  (if entry.type = .remove then []
  else [(entry.index + dataRegionStartSector, sectorCrcStamp entry.content)]) ++
  (if entry.type.savesBitmap then
    [(usageBitmapStartSector + usageBitmapFindSector entry.index,
      sectorCrcStamp (bitmapSector entry.bitmap (usageBitmapFindSector entry.index)))]
  else []) ++
  [(jrnlHeaderSector, sectorCrcStamp (toSector (journalDataInit entry.type entry.index).committed))]

/-- The journal on the card is the one that the entry left. -/
structure Saved (entry : JournalEntry) (card : Card Sector) : Prop where
  header : card jrnlHeaderSector =
    sectorCrcStamp (toSector (journalDataInit entry.type entry.index))
  content : entry.type ≠ .remove → card jrnlContentSector = sectorCrcStamp entry.content
  usage : entry.type.savesBitmap = true → card jrnlUsageSector =
    sectorCrcStamp (bitmapSector entry.bitmap (usageBitmapFindSector entry.index))

/-- All writes of the entry took effect, and no header was written after them. -/
def LastIn (entry : JournalEntry) (log : WriteLog Sector) : Prop :=
  ∃ before after, log = before ++ entry.log ++ after ∧
    ∀ write ∈ after, write.1 ≠ jrnlHeaderSector

theorem LastIn.append {entry : JournalEntry} {log : WriteLog Sector} (last : entry.LastIn log)
    {more : WriteLog Sector} (others : ∀ write ∈ more, write.1 ≠ jrnlHeaderSector) :
    entry.LastIn (log ++ more) := by
  obtain ⟨before, after, rfl, behind⟩ := last
  refine ⟨before, after ++ more, List.append_assoc _ _ _, ?_⟩
  intro write member
  rcases List.mem_append.mp member with earlier | later
  · exact behind write earlier
  · exact others write later

theorem last_in_append (entry : JournalEntry) (log : WriteLog Sector) :
    entry.LastIn (log ++ entry.log) := by
  refine ⟨log, [], (List.append_nil _).symm, ?_⟩
  intro write member
  cases member

theorem Saved.congr {entry : JournalEntry} {card later : Card Sector} (saved : entry.Saved card)
    (same : ∀ index, 1 ≤ index → index ≤ 3 → later index = card index) : entry.Saved later where
  header := (same _ (by decide) (by decide)).trans saved.header
  content kept := (same _ (by decide) (by decide)).trans (saved.content kept)
  usage saves := (same _ (by decide) (by decide)).trans (saved.usage saves)

theorem saved_log (entry : JournalEntry) (card : Card Sector) :
    entry.Saved (applyWrites entry.log card) := by
  obtain ⟨type, index, content, bitmap, region⟩ := entry
  cases type <;> constructor <;> first | exact fun _ => rfl | rfl | (intro wrong; cases wrong) |
    exact fun wrong => absurd rfl wrong

section Rollback

variable {entry : JournalEntry} {card : Card Sector}

theorem Saved.head (saved : entry.Saved card) :
    headerOn card = journalDataInit entry.type entry.index := by
  rw [headerOn, saved.header, of_sector_stamp, of_to_sector]

theorem index_toNat (entry : JournalEntry) :
    (journalDataInit entry.type entry.index).sector.toNat = entry.index := by
  have region := entry.region
  exact Nat.mod_eq_of_lt (by omega)

theorem is_remove_iff (type : JrnlType) (index : Nat) :
    (journalDataInit type index).isRemove = decide (type = .remove) := by
  cases type <;> rfl

theorem is_history_eq (type : JrnlType) (index : Nat) :
    (journalDataInit type index).isHistory = !type.savesBitmap := by
  cases type <;> rfl

theorem Saved.ready (saved : entry.Saved card) : RollbackReady card where
  active := by
    rw [saved.header]
    exact header_status_active _ _
  region := by
    rw [saved.head, index_toNat]
    exact entry.region
  content kept := by
    rw [saved.head, is_remove_iff] at kept
    rw [saved.content (of_decide_eq_false kept)]
    exact stamp_valid _
  usage saves := by
    rw [saved.head, is_history_eq] at saves
    rw [saved.usage (by simpa using saves)]
    exact stamp_valid _

theorem Saved.rolls_back (saved : entry.Saved card) (memory : Database) :
    out journalInit memory card =
      ((true, { memory with journal := (journalDataInit entry.type entry.index).committed }),
        entry.restores) := by
  have log : rollbackLog card = entry.restores := by
    unfold rollbackLog restores
    dsimp only
    rw [saved.head, is_remove_iff, is_history_eq, index_toNat]
    have narrow : u16 (entry.index + dataRegionStartSector) =
        entry.index + dataRegionStartSector := u16_of_lt entry.region
    rw [narrow]
    congr 2
    · by_cases remove : entry.type = .remove
      · rw [if_pos (decide_eq_true remove), if_pos remove]
      · rw [if_neg (by simpa using remove), if_neg remove, saved.content remove,
          stamp_of_valid (stamp_valid _)]
    · cases saves : entry.type.savesBitmap with
      | true => rw [saved.usage saves, stamp_of_valid (stamp_valid _)]; rfl
      | false => rfl
  rw [out_journalInit_rollback memory saved.ready, log, saved.head]

end Rollback

end JournalEntry

/-- The journal sectors are written by whole calls of `journal_add`, each given up at its first
failed write, and with headers that are committed. -/
inductive JournalTrace : List (Attempt Sector) → Prop
  | nil : JournalTrace []
  | other {attempt : Attempt Sector} {rest : List (Attempt Sector)} :
      ¬(1 ≤ attempt.index ∧ attempt.index ≤ 3) → JournalTrace rest → JournalTrace (attempt :: rest)
  | commit {header : JournalHeader} {accepted : Bool} {rest : List (Attempt Sector)} :
      header.state = jrnlCommitted → JournalTrace rest →
        JournalTrace (⟨jrnlHeaderSector, sectorCrcStamp (toSector header), accepted⟩ :: rest)
  | add {entry : JournalEntry} {writes : Nat → Bool} {rest : List (Attempt Sector)} :
      JournalTrace rest → JournalTrace (triedWrites entry.log writes ++ rest)

theorem journal_trace_law : TraceLaw JournalTrace where
  nil := .nil
  append first second firstLaw secondLaw := by
    induction firstLaw with
    | nil => exact secondLaw
    | other outside _ ih => exact .other outside ih
    | commit committed _ ih => exact .commit committed ih
    | add _ ih =>
        rw [List.append_assoc]
        exact .add ih

theorem journal_trace_single {attempt : Attempt Sector}
    (outside : ¬(1 ≤ attempt.index ∧ attempt.index ≤ 3)) : JournalTrace [attempt] :=
  .other outside .nil

/-- No copy is written while the header on the card is active. -/
def SparesCopies : List (Attempt Sector) → Card Sector → Prop
  | [], _ => True
  | attempt :: rest, card =>
      (attempt.accepted = true →
        attempt.index = jrnlContentSector ∨ attempt.index = jrnlUsageSector →
        journalHeaderStatus (card jrnlHeaderSector) ≠ .rollback) ∧
      SparesCopies rest (applyWrites (acceptedWrites [attempt]) card)

theorem spares_copies_append (first second : List (Attempt Sector)) (card : Card Sector) :
    SparesCopies (first ++ second) card ↔
      SparesCopies first card ∧ SparesCopies second (applyWrites (acceptedWrites first) card) := by
  induction first generalizing card with
  | nil => exact (and_iff_right trivial).symm
  | cons attempt rest ih =>
      have whole : acceptedWrites (attempt :: rest) =
          acceptedWrites [attempt] ++ acceptedWrites rest := accepted_writes_append [attempt] rest
      rw [List.cons_append, SparesCopies, SparesCopies, ih, whole, apply_writes_append, and_assoc]

/-- An active header comes from the last entry written, and its copies are on the card. -/
def JournalCoherent (log : WriteLog Sector) (card : Card Sector) : Prop :=
  journalHeaderStatus (card jrnlHeaderSector) = .rollback →
    ∃ entry : JournalEntry, entry.LastIn log ∧ entry.Saved card

section Coherence

variable {log more : WriteLog Sector} {card later : Card Sector}

theorem JournalCoherent.other (coherent : JournalCoherent log card)
    (others : ∀ write ∈ more, ¬(1 ≤ write.1 ∧ write.1 ≤ 3)) :
    JournalCoherent (log ++ more) (applyWrites more card) := by
  have same : ∀ index, 1 ≤ index → index ≤ 3 → applyWrites more card index = card index := by
    intro index low high
    apply apply_writes_other
    intro write member here
    exact others write member ⟨by omega, by omega⟩
  intro active
  rw [same _ (by decide) (by decide)] at active
  obtain ⟨entry, last, saved⟩ := coherent active
  refine ⟨entry, last.append ?_, saved.congr same⟩
  intro write member here
  exact others write member (by rw [here]; decide)

theorem coherent_of_idle (idle : journalHeaderStatus (card jrnlHeaderSector) ≠ .rollback) :
    JournalCoherent log card := fun active => absurd active idle

theorem status_committed_header {header : JournalHeader} (committed : header.state = jrnlCommitted) :
    journalHeaderStatus (sectorCrcStamp (toSector header)) ≠ .rollback := by
  unfold journalHeaderStatus
  dsimp only
  rw [stamp_valid, of_sector_stamp, of_to_sector, committed]
  split
  · rename_i invalid
    cases invalid
  · split <;> exact fun same => by cases same

theorem journal_copies_cons (entry : JournalEntry) :
    ∃ index block copies, entry.log = (index, block) :: copies ++
        [(jrnlHeaderSector, sectorCrcStamp (toSector (journalDataInit entry.type entry.index)))] ∧
      (index = jrnlContentSector ∨ index = jrnlUsageSector) ∧
      ∀ write ∈ copies, write.1 ≠ jrnlHeaderSector := by
  obtain ⟨type, index, content, bitmap, region⟩ := entry
  cases type with
  | contact => exact ⟨_, _, [_], rfl, Or.inr rfl, by simp⟩
  | message => exact ⟨_, _, [_], rfl, Or.inr rfl, by simp⟩
  | callHist => exact ⟨_, _, [], rfl, Or.inl rfl, by simp⟩
  | msgHist => exact ⟨_, _, [], rfl, Or.inl rfl, by simp⟩
  | remove => exact ⟨_, _, [], rfl, Or.inr rfl, by simp⟩

/-- A call of `journal_add` that spares the copies of an active header. -/
theorem JournalCoherent.add (coherent : JournalCoherent log card) (entry : JournalEntry)
    (writes : Nat → Bool) (spares : SparesCopies (triedWrites entry.log writes) card) :
    JournalCoherent (log ++ acceptedWrites (triedWrites entry.log writes))
      (applyWrites (acceptedWrites (triedWrites entry.log writes)) card) := by
  rcases accepted_tried_writes entry.log writes with all | ⟨count, within, part⟩
  · rw [all]
    exact fun _ => ⟨entry, entry.last_in_append log, entry.saved_log card⟩
  · rw [part]
    cases count with
    | zero =>
        rw [List.take_zero, List.append_nil]
        exact coherent
    | succ count =>
        obtain ⟨index, block, copies, split, copy, others⟩ := journal_copies_cons entry
        -- the first copy was written, so the header on the card was not active
        have idle : journalHeaderStatus (card jrnlHeaderSector) ≠ .rollback := by
          rw [split] at part spares
          cases taken : writes 0 with
          | true =>
              simp only [List.cons_append, triedWrites, taken, if_true] at spares
              exact spares.1 rfl copy
          | false =>
              simp only [List.cons_append, triedWrites, taken, Bool.false_eq_true, if_false] at part
              cases part
        apply coherent_of_idle
        have untouched : applyWrites (entry.log.take (count + 1)) card jrnlHeaderSector =
            card jrnlHeaderSector := by
          apply apply_writes_other
          intro write member here
          rw [split, List.length_append, List.length_singleton, List.length_cons] at within
          rw [split, List.take_append_of_le_length (by rw [List.length_cons]; omega)] at member
          rcases List.mem_cons.mp (List.mem_of_mem_take member) with first | rest
          · rw [first] at here
            rcases copy with content | usage
            · exact absurd (content.symm.trans here) (by decide)
            · exact absurd (usage.symm.trans here) (by decide)
          · exact others write rest here
        rwa [untouched]

theorem JournalTrace.coherent {trace : List (Attempt Sector)} (lawful : JournalTrace trace)
    (spares : SparesCopies trace card) (coherent : JournalCoherent log card) :
    JournalCoherent (log ++ acceptedWrites trace) (applyWrites (acceptedWrites trace) card) := by
  induction lawful generalizing log card with
  | nil =>
      rw [accepted_writes_nil, List.append_nil]
      exact coherent
  | @other attempt rest outside _ ih =>
      have whole : acceptedWrites (attempt :: rest) =
          acceptedWrites [attempt] ++ acceptedWrites rest := accepted_writes_append [attempt] rest
      rw [whole, ← List.append_assoc, apply_writes_append]
      apply ih spares.2
      apply coherent.other
      intro write member
      rw [accepted_writes_cons] at member
      split at member
      · rw [List.mem_singleton.mp member]
        exact outside
      · cases member
  | @commit header accepted rest committed _ ih =>
      have whole : acceptedWrites
          (⟨jrnlHeaderSector, sectorCrcStamp (toSector header), accepted⟩ :: rest) =
          acceptedWrites [⟨jrnlHeaderSector, sectorCrcStamp (toSector header), accepted⟩] ++
            acceptedWrites rest := accepted_writes_append [_] rest
      rw [whole, ← List.append_assoc, apply_writes_append]
      apply ih spares.2
      cases accepted with
      | true =>
          apply coherent_of_idle
          rw [accepted_writes_cons, if_pos rfl, accepted_writes_nil, apply_writes_cons,
            apply_writes_nil, Function.update_self]
          exact status_committed_header committed
      | false =>
          rw [accepted_writes_cons, if_neg Bool.false_ne_true, accepted_writes_nil, List.append_nil]
          exact coherent
  | @add entry writes rest _ ih =>
      rw [spares_copies_append] at spares
      rw [accepted_writes_append, ← List.append_assoc, apply_writes_append]
      exact ih spares.2 (coherent.add entry writes spares.1)

end Coherence

end SdDatabase
