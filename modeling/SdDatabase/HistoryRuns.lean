import SdDatabase.RingAdds
import SdDatabase.Run

/-!
# Runs of adds

A history is cleared and then entries are added one after the other. At any time
the position in memory and the sectors on the card are those of the ring that
the entries make, so that the position can be found again from the card alone,
however often the ring and its sequence number have wrapped.
-/

namespace SdDatabase

open Bytes Device

set_option autoImplicit false

section Runs

variable {E : Type}

def historyStartSector (layout : HistoryLayout E) : Nat :=
  layout.dataStart + dataRegionStartSector

/-- A new history: its sectors are cleared and its position is looked up. -/
def historyReset (layout : HistoryLayout E) (size : Nat) : DbM Bool := do
  let ret ← clearRingBuffer (historyStartSector layout) size
  if ret ≠ .strgOk then
    return false
  match ← initRingBuffer (layout.ring (← get)) size (historyStartSector layout) with
  | none => return false
  | some rb =>
      modifyRing layout fun _ => rb
      return true

namespace Machine

def resetHistory (layout : HistoryLayout E) (size : Nat) (machine : Machine) : Machine :=
  (machine.run (historyReset layout size)).2

def addHistory (layout : HistoryLayout E) (machine : Machine) (entry : E) : Machine :=
  (machine.run (historyAdd layout entry)).2

/-- The machine after a cleared history got the entries, oldest first. -/
def withHistory (layout : HistoryLayout E) (size : Nat) (machine : Machine) (entries : List E) :
    Machine :=
  entries.foldl (addHistory layout) (machine.resetHistory layout size)

end Machine

/-- The ring of sectors that the entries make, oldest first. -/
def entriesRing (layout : HistoryLayout E) (size : Nat) (entries : List E) : List (List E) :=
  entries.foldl (fun ring entry => SectorRing.add size layout.capacity entry ring) []

/-- Position and sectors of a history with the entries of `ring`. -/
structure HistoryAt (layout : HistoryLayout E) (size started : Nat) (ring : List (List E))
    (machine : Machine) : Prop where
  position : layout.ring machine.db = ringAt size started
  keeps : RingKeeps layout size started ring (historySectors layout machine.card)
  unmarked : 0 < started → CurrentOpen layout size started machine.card

variable {layout : HistoryLayout E} (frame : layout.Frame) {size : Nat} (room : 0 < size)
  (region : layout.dataStart + 12 + size ≤ 65536)

theorem blank_ring_keeps {sector : Nat → Sector}
    (blank : ∀ index < size, sector index = blankRingBlock) :
    RingKeeps layout size 0 [] sector where
  fits := SectorRing.fits_nil
  count := (Nat.zero_min size).symm
  valid index bound := by
    rw [blank index bound]
    exact stamp_valid _
  blank index bound _ := by
    rw [blank index bound, blank_ring_header]
    rfl
  numbered age bound := absurd bound (Nat.not_lt_zero _)
  stored age entries found := by cases found
  past age _ bound := absurd bound (Nat.not_lt_zero _)
  current newest member := by cases member

include frame room region

omit frame room region in
theorem history_stored (card : Card Sector) : ∀ index < size,
    card (historyStartSector layout + index) = historySectors layout card index := by
  intro index _
  unfold historySectors ringRaw historyStartSector
  congr 1

omit frame in
theorem reset_history_run (machine : Machine) :
    RingKeeps layout size 0 [] (historySectors layout
        (applyWrites (ringBlocks (historyStartSector layout) size) machine.card)) ∧
      machine.run (historyReset layout size) =
        (true, ⟨layout.setRing (ringAt size 0) machine.db,
          applyWrites (ringBlocks (historyStartSector layout) size) machine.card⟩) := by
  have start : historyStartSector layout = layout.dataStart + 12 := rfl
  have cleared := out_clearRingBuffer machine.db machine.card (historyStartSector layout) size
    (by omega)
  have keeps : RingKeeps layout size 0 [] (historySectors layout
      (applyWrites (ringBlocks (historyStartSector layout) size) machine.card)) := by
    refine blank_ring_keeps fun index bound => ?_
    unfold historySectors ringRaw
    rw [ring_blocks_apply, if_pos (by omega)]
  have found := @out_initRingBuffer _ _ _ machine.db _ _ (keeps.searchable room (by omega))
    (history_stored _) (by omega) room (layout.ring machine.db)
  refine ⟨keeps, Machine.run_of ?_⟩
  have log_ : ringBlocks (historyStartSector layout) size =
      ringBlocks (historyStartSector layout) size ++ ([] ++ ([] ++ ([] ++ []))) := by simp
  unfold historyReset
  rw [log_]
  refine out_bind_both cleared ?_
  rw [if_neg (by decide)]
  refine out_bind_both (out_get _ _) ?_
  refine out_bind_both found ?_
  exact out_bind_both rfl rfl

theorem reset_history_at (machine : Machine) :
    (machine.run (historyReset layout size)).1 = true ∧
      HistoryAt layout size 0 [] (machine.resetHistory layout size) := by
  obtain ⟨keeps, run⟩ := reset_history_run room region machine
  rw [Machine.resetHistory, run]
  exact ⟨rfl, frame.ring_set _ _, keeps, fun some_ => absurd some_ (Nat.lt_irrefl 0)⟩

theorem add_history_at {started : Nat} {ring : List (List E)} {machine : Machine}
    (at_ : HistoryAt layout size started ring machine) (entry : E) :
    (machine.run (historyAdd layout entry)).1 = .strgOk ∧
      ∃ later, HistoryAt layout size later (SectorRing.add size layout.capacity entry ring)
        (machine.addHistory layout entry) := by
  obtain ⟨later, journal, log, run, leads, open_⟩ := history_add_leads frame room region at_.keeps
    (Or.inl at_.position) (fun some_ full => by
      have open_ := at_.unmarked some_
      rw [CurrentOpen, full] at open_
      exact absurd open_ (by decide)) entry
  rw [Machine.addHistory, Machine.run_of run]
  refine ⟨rfl, later, ?_, leads.keeps, fun _ => open_⟩
  dsimp only
  rw [frame.ring_journal, frame.ring_set]

theorem with_history_at (machine : Machine) (entries : List E) :
    ∃ started, HistoryAt layout size started (entriesRing layout size entries)
      (machine.withHistory layout size entries) := by
  induction entries using List.reverseRecOn with
  | nil => exact ⟨0, (reset_history_at frame room region machine).2⟩
  | append_singleton entries entry ih =>
      obtain ⟨started, at_⟩ := ih
      obtain ⟨later, next⟩ := (add_history_at frame room region at_ entry).2
      refine ⟨later, ?_⟩
      rw [entriesRing, Machine.withHistory, List.foldl_concat, List.foldl_concat]
      exact next

omit frame in
/-- The sectors of a ring give its position, whatever position was in memory. -/
theorem HistoryAt.rebuilt {started : Nat} {ring : List (List E)} {machine : Machine}
    (at_ : HistoryAt layout size started ring machine) {rb : RingBuffer} (sized : rb.size = size) :
    machine.run (reconstructRingBuffer rb (historyStartSector layout)) =
      (some (layout.ring machine.db), machine) := by
  have start : historyStartSector layout = layout.dataStart + 12 := rfl
  have found := @out_initRingBuffer _ _ _ machine.db _ _ (at_.keeps.searchable room (by omega))
    (history_stored _) (by omega) room rb
  have same : initRingBuffer rb size (historyStartSector layout) =
      reconstructRingBuffer rb (historyStartSector layout) := by
    rw [initRingBuffer, if_neg (by omega), ← sized]
  rw [same] at found
  rw [Machine.run_of found, at_.position]
  rfl

theorem history_rebuilt (machine : Machine) (entries : List E) {rb : RingBuffer}
    (sized : rb.size = size) :
    ((machine.withHistory layout size entries).run
        (reconstructRingBuffer rb (historyStartSector layout))).1 =
      some (layout.ring (machine.withHistory layout size entries).db) := by
  obtain ⟨started, at_⟩ := with_history_at frame room region machine entries
  rw [at_.rebuilt room region sized]

theorem history_starts_zero (machine : Machine) :
    layout.ring (machine.withHistory layout size []).db = ⟨0#32, size, 0, 0⟩ := by
  rw [Machine.withHistory, List.foldl_nil, (reset_history_at frame room region machine).2.position,
    ringAt, Nat.zero_min, Nat.zero_sub, Nat.zero_mod]

end Runs

/-- Whatever was added since a history was cleared, the binary search over its sectors
gives exactly the position that the adds have left in memory. -/
theorem ring_position_rebuilt (size : Nat) (room : 0 < size) (machine : Machine) (rb : RingBuffer)
    (sized : rb.size = size) :
    (historyStartSector messageHistoryLayout + size ≤ 65536 → ∀ entries,
      ((machine.withHistory messageHistoryLayout size entries).run
        (reconstructRingBuffer rb (historyStartSector messageHistoryLayout))).1 =
          some (machine.withHistory messageHistoryLayout size entries).db.messageHistory ∧
      (machine.withHistory messageHistoryLayout size []).db.messageHistory = ⟨0#32, size, 0, 0⟩) ∧
    (historyStartSector callHistoryLayout + size ≤ 65536 → ∀ entries,
      ((machine.withHistory callHistoryLayout size entries).run
        (reconstructRingBuffer rb (historyStartSector callHistoryLayout))).1 =
          some (machine.withHistory callHistoryLayout size entries).db.callHistory ∧
      (machine.withHistory callHistoryLayout size []).db.callHistory = ⟨0#32, size, 0, 0⟩) := by
  constructor
  · intro region entries
    exact ⟨history_rebuilt messageHistoryFrame room region machine entries sized,
      history_starts_zero messageHistoryFrame room region machine⟩
  · intro region entries
    exact ⟨history_rebuilt callHistoryFrame room region machine entries sized,
      history_starts_zero callHistoryFrame room region machine⟩

theorem ring_position_rebuilt_example :
    ((exampleMachine.withHistory messageHistoryLayout 3
        (List.replicate 9 messageHistoryLayout.blank)).run
      (reconstructRingBuffer ⟨7#32, 3, 1, 2⟩ (historyStartSector messageHistoryLayout))).1 =
        some (exampleMachine.withHistory messageHistoryLayout 3
          (List.replicate 9 messageHistoryLayout.blank)).db.messageHistory :=
  ((ring_position_rebuilt 3 (by decide) exampleMachine ⟨7#32, 3, 1, 2⟩ rfl).1 (by decide)
    (List.replicate 9 messageHistoryLayout.blank)).1

end SdDatabase
