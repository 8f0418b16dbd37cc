import SdDatabase.Lib.FirstFailure
import SdDatabase.BitmapFaults
import SdDatabase.HistoryCuts

/-!
# Histories under failing writes

An add ends at its first failed write. Before the last write of the transaction
that marks the current sector full, nothing has changed; after it the position in
memory and the ring on the card disagree until the entry is in the next sector.
-/

namespace SdDatabase

open Bytes Device

set_option autoImplicit false

section Stops

/-- A write of `journal_add` fails. -/
theorem refused_journalAdd (type : JrnlType) (plain : type.savesBitmap = false) (index : Nat)
    (content : Sector) (db : Database) (card : Card Sector) {count : Nat} (within : count < 2) :
    refused (journalAdd type index content) db card count =
      .done (false, { db with journal := journalDataInit type (u16 index) }) := by
  have either : count = 0 ∨ count = 1 := by omega
  cases type with
  | contact => cases plain
  | message => cases plain
  | remove => cases plain
  | callHist => cases either <;> subst count <;> rfl
  | msgHist => cases either <;> subst count <;> rfl

variable {E : Type} {layout : HistoryLayout E}

theorem refused_commitHistory (sector : RingSector E layout.capacity layout.spare) (db : Database)
    (card : Card Sector) {count : Nat} (within : count < 2) :
    ∃ journal, refused (commitHistory layout sector) db card count =
      .done (.strgFail, { db with journal := journal }) := by
  have either : count = 0 ∨ count = 1 := by omega
  cases either with
  | inl first => exact ⟨db.journal, by subst count; rfl⟩
  | inr second => exact ⟨db.journal.committed, by subst count; rfl⟩

variable (frame : layout.Frame) {db : Database} {card : Card Sector}

include frame

theorem length_replaceLog (bitmap : UsageBitmap) (index : Nat) (content : Sector) :
    (replaceLog layout bitmap card index content).length = 4 := by
  have kept : layout.type ≠ .remove := by
    intro remove
    have saves := frame.type
    rw [remove] at saves
    cases saves
  rw [replaceLog, transactionLog, journalAddLog, journalCopies, frame.type, if_neg kept]
  rfl

theorem refused_nextRing (rest : DbM StrgRet) (count : Nat) :
    refused (do
      modifyRing layout addRingBuffer
      modifyRing layout moveNextRingBuffer
      modifyRing layout incSeqRingBuffer
      rest) db card count =
      refused rest (layout.setRing (nextRing (layout.ring db)) db) card count := by
  simp only [modifyRing, refused_modify, frame.ring_set, frame.set_set]
  rfl

omit frame in
theorem refused_committed {B : Type} {rb : RingBuffer} (known : layout.ring db = rb)
    (region : ringRaw layout rb.currentIndex < 65536)
    (sector : RingSector E layout.capacity layout.spare) (rest : StrgRet → DbM B) (count : Nat) :
    refused (commitHistory layout sector >>= rest) db card (2 + count) =
      refused (rest .strgOk) { db with journal := db.journal.committed }
        (applyWrites [(ringRaw layout rb.currentIndex, sectorCrcStamp (toSector sector)),
          (jrnlHeaderSector, sectorCrcStamp (toSector db.journal.committed))] card) count :=
  refused_bind_of (out_commitHistory known region sector) rfl

def afterCopies (layout : HistoryLayout E) (rb : RingBuffer) (content : Sector) (entry : E)
    (fuel : Nat) : DbM StrgRet :=
  let sector : RingSector E layout.capacity layout.spare := ofSector content
  match historyStep layout.capacity rb sector.header with
  | .invalid => return .strgFail
  | .store header =>
      commitHistory layout
        { sector with
          header := header
          entries := arraySet sector.entries header.head.toNat entry }
  | .moveNext => do
      let ret ← commitHistory layout
        { sector with header := { sector.header with state := rbFull } }
      if ret ≠ .strgOk then
        return ret
      modifyRing layout addRingBuffer
      modifyRing layout moveNextRingBuffer
      modifyRing layout incSeqRingBuffer
      historyAddLoop layout entry fuel

variable {rb : RingBuffer} (opened : openedRing (layout.ring db) = rb)
  (region : ringRaw layout rb.currentIndex < 65536)
  (valid : sectorCrcValid (card (ringRaw layout rb.currentIndex)) = true)

include opened region valid

theorem refused_opened (entry : E) (fuel count : Nat) :
    refused (historyAddLoop layout entry (fuel + 1)) db card count =
      refused (do
          if !(← journalAdd layout.type (layout.dataStart + rb.currentIndex)
              (card (ringRaw layout rb.currentIndex))) then
            return .strgFail
          afterCopies layout rb (card (ringRaw layout rb.currentIndex)) entry fuel)
        (layout.setRing rb db) card count := by
  rw [historyAddLoop, refused_bind_pure (out_openRing frame), opened,
    refused_bind_pure (out_get _ _), frame.ring_set,
    refused_bind_pure (out_readHistorySector region valid _)]
  rfl

/-- The copies of a round: what is left when the failed write is one of them, and when it
comes behind them. -/
theorem refused_copies (entry : E) (fuel count : Nat) :
    (count < 2 → ∃ journal, refused (historyAddLoop layout entry (fuel + 1)) db card count =
      .done (.strgFail, { layout.setRing rb db with journal := journal })) ∧
    refused (historyAddLoop layout entry (fuel + 1)) db card (2 + count) =
      refused (afterCopies layout rb (card (ringRaw layout rb.currentIndex)) entry fuel)
        { layout.setRing rb db with
          journal := journalDataInit layout.type (layout.dataStart + rb.currentIndex) }
        (applyWrites (journalAddLog layout.type (layout.dataStart + rb.currentIndex)
          (card (ringRaw layout rb.currentIndex)) db.usageBitmap) card) count := by
  have below : layout.dataStart + rb.currentIndex < 65536 := by
    unfold ringRaw at region
    omega
  have kept : layout.type ≠ .remove := by
    intro remove
    have saves := frame.type
    rw [remove] at saves
    cases saves
  have saved := out_journalAdd (layout.setRing rb db) card layout.type
    (card (ringRaw layout rb.currentIndex)) below
  have copies : (journalAddLog layout.type (layout.dataStart + rb.currentIndex)
      (card (ringRaw layout rb.currentIndex)) (layout.setRing rb db).usageBitmap).length = 2 := by
    rw [journalAddLog, journalCopies, frame.type, if_neg kept]
    rfl
  rw [refused_opened frame opened region valid, refused_opened frame opened region valid]
  constructor
  · intro early
    have stops := refused_journalAdd layout.type frame.type
      (layout.dataStart + rb.currentIndex) (card (ringRaw layout rb.currentIndex))
      (layout.setRing rb db) card early
    rw [refused_bind_stops (by rw [saved, copies]; exact early) stops]
    exact ⟨_, rfl⟩
  · rw [refused_bind_of saved copies]
    simp only [frame.type, Bool.false_eq_true, if_false, Bool.not_true, frame.set_bitmap]

theorem refused_round (entry : E) (fuel : Nat) (sound : historyStep layout.capacity rb
      (ringHeader (card (ringRaw layout rb.currentIndex))) ≠ .invalid)
    {count : Nat} (within : count < 4) :
    ∃ journal, refused (historyAddLoop layout entry (fuel + 1)) db card count =
      .done (.strgFail, { layout.setRing rb db with journal := journal }) := by
  by_cases early : count < 2
  · exact (refused_copies frame opened region valid entry fuel count).1 early
  · obtain ⟨later, rfl⟩ : ∃ later, count = 2 + later := ⟨count - 2, by omega⟩
    rw [(refused_copies frame opened region valid entry fuel later).2, afterCopies, frame.header]
    cases step : historyStep layout.capacity rb
        (ringHeader (card (ringRaw layout rb.currentIndex))) with
    | invalid => exact absurd step sound
    | store header =>
        obtain ⟨journal, stops⟩ := refused_commitHistory _ _ _ (show later < 2 by omega)
        exact ⟨journal, stops⟩
    | moveNext =>
        obtain ⟨journal, stops⟩ := refused_commitHistory _ _ _ (show later < 2 by omega)
        dsimp only
        rw [refused_bind_stops _ stops]
        · exact ⟨journal, rfl⟩
        · rw [@out_commitHistory _ _ _ _ rb (by rw [frame.ring_journal, frame.ring_set]) region]
          exact (show later < 2 by omega)

theorem refused_next (entry : E) (fuel count : Nat)
    (step : historyStep layout.capacity rb
      (ringHeader (card (ringRaw layout rb.currentIndex))) = .moveNext) :
    refused (historyAddLoop layout entry (fuel + 1)) db card (4 + count) =
      refused (historyAddLoop layout entry fuel)
        { layout.setRing (nextRing rb) db with
          journal := (journalDataInit layout.type (layout.dataStart + rb.currentIndex)).committed }
        (applyWrites (replaceLog layout db.usageBitmap card rb.currentIndex
          (fullSector layout (card (ringRaw layout rb.currentIndex)))) card) count := by
  have split : 4 + count = 2 + (2 + count) := by omega
  rw [← frame.header (card (ringRaw layout rb.currentIndex))] at step
  rw [split, (refused_copies frame opened region valid entry fuel (2 + count)).2, afterCopies, step]
  dsimp only
  rw [@refused_committed _ _ _ _ _ rb (by rw [frame.ring_journal, frame.ring_set]) region]
  dsimp only
  rw [if_neg (fun other => other rfl), refused_nextRing frame, frame.ring_journal, frame.ring_set,
    frame.set_journal, frame.set_set, ← apply_writes_append]
  rfl

end Stops

section Parts

variable {E : Type} {layout : HistoryLayout E} (frame : layout.Frame) {card : Card Sector}

include frame

theorem replace_log_eq (bitmap : UsageBitmap) (index : Nat) (content : Sector) :
    replaceLog layout bitmap card index content =
      [(jrnlContentSector, sectorCrcStamp (card (ringRaw layout index))),
        (jrnlHeaderSector,
          sectorCrcStamp (toSector (journalDataInit layout.type (layout.dataStart + index)))),
        (ringRaw layout index, content),
        (jrnlHeaderSector, sectorCrcStamp (toSector
          (journalDataInit layout.type (layout.dataStart + index)).committed))] := by
  have kept : layout.type ≠ .remove := by
    intro remove
    have saves := frame.type
    rw [remove] at saves
    cases saves
  rw [replaceLog, transactionLog, journalAddLog, journalCopies, frame.type, if_neg kept]
  rfl

theorem part_sectors (bitmap : UsageBitmap) (index : Nat) (content : Sector) {count : Nat}
    (within : count ≤ 4) :
    historySectors layout (applyWrites ((replaceLog layout bitmap card index content).take count)
      card) = if count < 3 then historySectors layout card
        else Function.update (historySectors layout card) index content := by
  have journal : ∀ (block : Nat) (stored : Sector) (other : Card Sector), block < 3 →
      historySectors layout (Function.update other block stored) = historySectors layout other := by
    intro block stored other low
    funext place
    exact Function.update_of_ne (by unfold ringRaw; omega) _ _
  rw [replace_log_eq frame]
  have either : count = 0 ∨ count = 1 ∨ count = 2 ∨ count = 3 ∨ count = 4 := by omega
  obtain rfl | rfl | rfl | rfl | rfl := either
  · rfl
  · exact journal _ _ _ (by decide)
  · exact (journal _ _ _ (by decide)).trans (journal _ _ _ (by decide))
  · refine (history_sectors_update index content).trans ?_
    rw [journal _ _ _ (by decide), journal _ _ _ (by decide)]
    rfl
  · refine (journal _ _ _ (by decide)).trans ?_
    refine (history_sectors_update index content).trans ?_
    rw [journal _ _ _ (by decide), journal _ _ _ (by decide)]
    rfl

end Parts

section Continuing

variable {E : Type}

/-- The history lists the ring, and the next add that succeeds puts its entry in front. -/
def Continues (layout : HistoryLayout E) (size : Nat) (ring : List (List E)) (machine : Machine) :
    Prop :=
  machine.ShowsHistory layout ring.flatten ∧
    ∀ later, (machine.run (historyAdd layout later)).1 = .strgOk →
      (machine.addHistory layout later).ShowsHistory layout
        (SectorRing.add size layout.capacity later ring).flatten

variable {layout : HistoryLayout E}

theorem shows_unique {machine : Machine} {first second : List E}
    (shown : machine.ShowsHistory layout first) (other : machine.ShowsHistory layout second) :
    first = second := by
  have both : ∀ n, first.take n = second.take n := by
    intro n
    have same := (shown n).symm.trans (other n)
    exact (Prod.mk.inj same).2
  have whole := both (max first.length second.length)
  rwa [List.take_of_length_le (Nat.le_max_left _ _), List.take_of_length_le (Nat.le_max_right _ _)]
    at whole

variable (frame : layout.Frame) {size started : Nat} (room : 0 < size)
  (region : layout.dataStart + 12 + size ≤ 65536) {ring : List (List E)} {machine : Machine}

include frame region room

theorem continues_open (keeps : RingKeeps layout size started ring
    (historySectors layout machine.card)) (position : RingPositioned layout size started machine.db)
    (unmarked : 0 < started → CurrentOpen layout size started machine.card) :
    Continues layout size ring machine := by
  constructor
  · exact positioned_shows frame room region keeps position
  · intro later _
    obtain ⟨next, journal, log, run, leads, _⟩ := history_add_leads frame room region keeps position
      (fun some_ full => by
        have open_ := unmarked some_
        rw [CurrentOpen, full] at open_
        exact absurd open_ (by decide)) later
    rw [Machine.addHistory, Machine.run_of run]
    apply positioned_shows frame room region leads.keeps
    left
    dsimp only
    rw [frame.ring_journal, frame.ring_set]

theorem continues_marked (keeps : RingKeeps layout size started ring
    (historySectors layout machine.card)) (position : layout.ring machine.db = ringAt size started)
    (turns : SectorRing.Turns layout.capacity ring)
    (full : (ringHeader (machine.card (ringRaw layout (ringPlace size started 0)))).state = rbFull) :
    Continues layout size ring machine ↔ ring.length = size ∧ SectorRing.Alike ring := by
  have some_ : 0 < started := by
    obtain ⟨newest, older, known, _⟩ := turns
    have count := keeps.count
    rw [known, List.length_cons] at count
    omega
  have opened : openedRing (layout.ring machine.db) = ringAt size started := by
    rw [position, opened_at room, Nat.max_eq_left some_]
  have shows_ := positioned_shows frame room region keeps (Or.inl position)
  have next : ∀ later, (machine.run (historyAdd layout later)).1 = .strgOk ∧
      (machine.addHistory layout later).ShowsHistory layout ([later] :: ring.tail).flatten := by
    intro later
    obtain ⟨journal, log, run, leads, _⟩ := full_out frame room region keeps some_ opened full
      later ((layout.ring machine.db).size + 1)
    rw [Machine.addHistory, Machine.run_of ((out_historyAdd later).trans run)]
    refine ⟨rfl, positioned_shows frame room region leads.keeps (Or.inl ?_)⟩
    dsimp only
    rw [frame.ring_journal, frame.ring_set]
  rw [← SectorRing.tail_iff_alike keeps.fits turns frame.capacity.1]
  constructor
  · intro continues_
    have wanted := continues_.2 layout.blank (next layout.blank).1
    have same := shows_unique (next layout.blank).2 wanted
    rw [SectorRing.add_turns turns, List.flatten_cons, List.flatten_cons] at same
    exact (List.append_inj same rfl).2
  · intro same
    refine ⟨shows_, fun later _ => ?_⟩
    rw [SectorRing.add_turns turns, List.flatten_cons, ← same]
    exact (next later).2

omit frame region in
theorem ring_place_next (filled : size ≤ started) :
    ringPlace size (started + 1) 0 = ringPlace size started (size - 1) := by
  have split : started - 1 - (size - 1) = started - size := by omega
  unfold ringPlace
  rw [split, Nat.add_sub_cancel, Nat.sub_zero, Nat.mod_eq_sub_mod filled]

omit frame region in
theorem RingKeeps.rotated {sector : Nat → Sector}
    (keeps : RingKeeps layout size started ring sector)
    (turns : SectorRing.Turns layout.capacity ring) (positive : 0 < layout.capacity)
    (filled : ring.length = size) (given : ring ≠ []) :
    RingShown layout size (started + 1) (ring.getLast given :: ring.dropLast) sector := by
  have count := keeps.count
  have full := keeps.fits.all_full turns
  have wide : size ≤ started := by omega
  have oldest := full _ (List.getLast_mem given)
  have older : ∀ age, ringPlace size (started + 1) (age + 1) = ringPlace size started age := by
    intro age
    unfold ringPlace
    congr 1
    omega
  have length : (ring.getLast given :: ring.dropLast).length = size := by
    rw [List.length_cons, List.length_dropLast]
    omega
  constructor
  · constructor
    · exact length.le
    · intro newest member
      rw [List.head?_cons, Option.mem_some_iff] at member
      rw [← member, oldest]
      exact ⟨positive, Nat.le_refl _⟩
    · intro entries member
      exact full entries (List.mem_of_mem_dropLast member)
  · rw [length]
    omega
  · intro age inside
    exact keeps.valid _ (ring_place_lt room age)
  · intro age inside
    rw [length] at inside
    cases age with
    | zero =>
        rw [ring_place_next room wide]
        exact keeps.started_state (by omega)
    | succ age =>
        rw [older]
        exact keeps.started_state (by omega)
  · intro age entries found
    cases age with
    | zero =>
        rw [ring_place_next room wide]
        apply keeps.stored
        rw [← filled, ← List.getLast?_eq_getElem?, List.getLast?_eq_some_getLast given]
        exact found
    | succ age =>
        rw [older]
        apply keeps.stored
        rw [List.getElem?_cons_succ, List.dropLast_eq_take, List.getElem?_take] at found
        split at found
        · exact found
        · cases found

theorem turned_shows (keeps : RingKeeps layout size started ring
    (historySectors layout machine.card))
    (position : layout.ring machine.db = ringAt size (started + 1))
    (turns : SectorRing.Turns layout.capacity ring) (given : ring ≠ []) :
    (ring.length < size → machine.ShowsHistory layout []) ∧
      (ring.length = size →
        machine.ShowsHistory layout (ring.getLast given :: ring.dropLast).flatten) := by
  have count := keeps.count
  constructor
  · intro short
    have early : started < size := by omega
    apply shows_nothing frame room region keeps position
    rw [ringPlace, Nat.add_sub_cancel, Nat.sub_zero, Nat.mod_eq_of_lt early]
  · intro filled
    have shown := keeps.rotated room turns frame.capacity.1 filled given
    apply shown.shows frame room region _ position
    have oldest := keeps.fits.all_full turns _ (List.getLast_mem given)
    have positive := frame.capacity.1
    rw [List.flatten_cons, List.length_append]
    omega

/-- The position has moved on: the ring carries on only where its sectors are all the same. -/
theorem continues_turned (keeps : RingKeeps layout size started ring
    (historySectors layout machine.card))
    (position : layout.ring machine.db = ringAt size (started + 1))
    (turns : SectorRing.Turns layout.capacity ring)
    (full : (ringHeader (machine.card (ringRaw layout (ringPlace size started 0)))).state = rbFull) :
    Continues layout size ring machine ↔ ring.length = size ∧ SectorRing.Alike ring := by
  have positive := frame.capacity.1
  have whole := keeps.fits.all_full turns
  have given : ring ≠ [] := by
    obtain ⟨newest, older, known, _⟩ := turns
    rw [known]
    exact List.cons_ne_nil _ _
  have lists := turned_shows frame room region keeps position turns given
  have opened : openedRing (layout.ring machine.db) = ringAt size (started + 1) := by
    rw [position, opened_at room, Nat.max_eq_left (Nat.succ_le_succ (Nat.zero_le _))]
  have next : ∀ later, (machine.addHistory layout later).ShowsHistory layout
      (SectorRing.add size layout.capacity later ring).flatten := by
    intro later
    obtain ⟨journal, log, run, leads, _⟩ := start_out frame room region keeps
      (fun newest member => ⟨whole newest (List.mem_of_mem_head? member), full⟩) opened later
      ((layout.ring machine.db).size + 1)
    rw [SectorRing.add_turns turns, Machine.addHistory,
      Machine.run_of ((out_historyAdd later).trans run)]
    apply positioned_shows frame room region leads.keeps
    left
    dsimp only
    rw [frame.ring_journal, frame.ring_set]
  constructor
  · intro continues_
    by_cases short : ring.length < size
    · have empty := shows_unique (lists.1 short) continues_.1
      have entries := SectorRing.flatten_length whole
      rw [← empty, List.length_nil] at entries
      have some_ := List.length_pos_iff.mpr given
      have product := Nat.mul_pos some_ positive
      omega
    · have filled : ring.length = size := by
        have sectors := keeps.fits.sectors
        omega
      have same := shows_unique (lists.2 filled) continues_.1
      exact ⟨filled, (SectorRing.rotated_iff_alike keeps.fits turns positive given).mp same⟩
  · intro both
    have same := (SectorRing.rotated_iff_alike keeps.fits turns positive given).mpr both.2
    have shows_ := lists.2 both.1
    rw [same] at shows_
    exact ⟨shows_, fun later _ => next later⟩

end Continuing

section Failing

variable {E : Type}

/-- An add with these failing writes that does not succeed leaves the history as it was or
with the new entry in front, and the next add carries on from there. -/
def FailsSafely (layout : HistoryLayout E) (size : Nat) (ring : List (List E)) (machine : Machine)
    (entry : E) (writes : Nat → Bool) : Prop :=
  (machine.attempt (historyAdd layout entry) writes).1 ≠ .strgOk →
    ∃ left, (left = ring ∨ left = SectorRing.add size layout.capacity entry ring) ∧
      Continues layout size left (machine.attempt (historyAdd layout entry) writes).2

/-- The first failed write comes after the current sector is marked full and before the
entry is in the next one. -/
def BreaksTurn (writes : Nat → Bool) : Prop :=
  ∃ first, 3 ≤ first ∧ first ≤ 6 ∧ (∀ index < first, writes index = true) ∧ writes first = false

theorem breaks_turn_iff {writes : Nat → Bool} {first : Nat}
    (accepted : ∀ index < first, writes index = true) (fails : writes first = false) :
    BreaksTurn writes ↔ 3 ≤ first ∧ first ≤ 6 := by
  constructor
  · intro breaks
    obtain ⟨other, low, high, before, refused_⟩ := breaks
    have same : other = first := by
      apply Nat.le_antisymm
      · by_contra above
        rw [before first (by omega)] at fails
        cases fails
      · by_contra below
        rw [accepted other (by omega)] at refused_
        cases refused_
    rw [← same]
    exact ⟨low, high⟩
  · intro between
    exact ⟨first, between.1, between.2, accepted, fails⟩

theorem Machine.attempt_accepted {A : Type} {program : DbM A} {machine : Machine} {result : A}
    {next : Database} {log : WriteLog Sector} {writes : Nat → Bool}
    (run : out program machine.db machine.card = ((result, next), log))
    (accepted : ∀ index < log.length, writes index = true) :
    machine.attempt program writes = (result, ⟨next, applyWrites log machine.card⟩) := by
  have whole := @exec_accepted _ _ _ program machine.db machine.card writes
    (by rw [run]; exact accepted)
  rw [Machine.attempt, whole, run]

theorem Machine.attempt_stops {A : Type} {program : DbM A} {machine : Machine} {result value : A}
    {next later : Database} {log : WriteLog Sector} {writes : Nat → Bool} {first : Nat}
    (run : out program machine.db machine.card = ((result, next), log))
    (within : first < log.length) (accepted : ∀ index < first, writes index = true)
    (fails : writes first = false)
    (stops : refused program machine.db machine.card first = .done (value, later)) :
    machine.attempt program writes =
      (value, ⟨later, applyWrites (log.take first) machine.card⟩) := by
  have whole := @exec_stops _ _ _ program machine.db later machine.card first value writes
    (by rw [run]; exact within) accepted fails stops
  rw [Machine.attempt, whole, run]

variable {layout : HistoryLayout E}

theorem refused_historyAdd (entry : E) {db : Database} {card : Card Sector} (count : Nat) :
    refused (historyAdd layout entry) db card count =
      refused (historyAddLoop layout entry ((layout.ring db).size + 2)) db card count := by
  rw [historyAdd, refused_bind_pure (out_get _ _)]

theorem fails_safely_of_ok {size : Nat} {ring : List (List E)} {machine : Machine} {entry : E}
    {writes : Nat → Bool}
    (ok : (machine.attempt (historyAdd layout entry) writes).1 = .strgOk) :
    FailsSafely layout size ring machine entry writes :=
  fun failed => absurd ok failed

theorem fails_safely_iff {size : Nat} {ring : List (List E)} {machine final : Machine} {entry : E}
    {writes : Nat → Bool}
    (ends : machine.attempt (historyAdd layout entry) writes = (.strgFail, final)) :
    FailsSafely layout size ring machine entry writes ↔
      Continues layout size ring final ∨
        Continues layout size (SectorRing.add size layout.capacity entry ring) final := by
  rw [FailsSafely, ends]
  constructor
  · intro safe
    obtain ⟨left, either, continues_⟩ := safe (fun same => by cases same)
    cases either with
    | inl same => exact Or.inl (same ▸ continues_)
    | inr same => exact Or.inr (same ▸ continues_)
  · intro either _
    cases either with
    | inl continues_ => exact ⟨ring, Or.inl rfl, continues_⟩
    | inr continues_ => exact ⟨_, Or.inr rfl, continues_⟩

variable (frame : layout.Frame) {size started : Nat} (room : 0 < size)
  (region : layout.dataStart + 12 + size ≤ 65536) {ring : List (List E)} {machine : Machine}
  (at_ : HistoryAt layout size started ring machine) (entry : E) {writes : Nat → Bool}

include frame room region at_

omit frame in
/-- The first sector of the add is read without trouble. -/
theorem HistoryAt.first_round :
    openedRing (layout.ring machine.db) = ringAt size (max started 1) ∧
      ringRaw layout (ringPlace size (max started 1) 0) < 65536 ∧
      sectorCrcValid (machine.card (ringRaw layout (ringPlace size (max started 1) 0))) = true := by
  have bound : ringPlace size (max started 1) 0 < size := ring_place_lt room 0
  refine ⟨by rw [at_.position, opened_at room], ring_place_region room region 0, ?_⟩
  exact at_.keeps.valid _ bound

theorem HistoryAt.continues {final : Machine}
    (position : RingPositioned layout size started final.db)
    (same : historySectors layout final.card = historySectors layout machine.card) :
    Continues layout size ring final := by
  have keeps := at_.keeps
  rw [← same] at keeps
  apply continues_open frame room region keeps position
  intro some_
  have open_ := at_.unmarked some_
  have here : final.card (ringRaw layout (ringPlace size started 0)) =
      machine.card (ringRaw layout (ringPlace size started 0)) :=
    congrFun same (ringPlace size started 0)
  unfold CurrentOpen at open_ ⊢
  rw [here]
  exact open_

omit frame room region at_ in
theorem opened_positioned {db : Database} (known : layout.ring db = ringAt size (max started 1)) :
    RingPositioned layout size started db := by
  rcases Nat.eq_zero_or_pos started with none_ | some_
  · right
    rw [none_] at known
    exact ⟨none_, known⟩
  · left
    rw [known, Nat.max_eq_left some_]

theorem HistoryAt.uncommitted {final : Machine} {next : Database} {log : WriteLog Sector}
    (run : out (historyAdd layout entry) machine.db machine.card = ((.strgOk, next), log))
    (position : layout.ring final.db = layout.ring next)
    (same : historySectors layout final.card =
      historySectors layout (applyWrites log machine.card)) :
    Continues layout size (SectorRing.add size layout.capacity entry ring) final := by
  obtain ⟨_, later, added⟩ := add_history_at frame room region at_ entry
  rw [Machine.addHistory, Machine.run_of run] at added
  exact added.continues frame room region (Or.inl (position.trans added.position)) same

omit region in
theorem HistoryAt.still_step (still : ¬SectorRing.Turns layout.capacity ring) :
    ∃ header, historyStep layout.capacity (ringAt size (max started 1))
      (ringHeader (machine.card (ringRaw layout (ringPlace size (max started 1) 0)))) =
        .store header := by
  rcases Nat.eq_zero_or_pos started with none_ | some_
  · subst none_
    have blank : (ringHeader (machine.card (ringRaw layout (ringPlace size 1 0)))).state =
        rbEmpty := at_.keeps.blank _ (ring_place_lt room 0) (Nat.zero_le _)
    exact ⟨_, step_first (Or.inl blank)⟩
  · rw [Nat.max_eq_left some_]
    cases known : ring with
    | nil =>
        have count := at_.keeps.count
        rw [known, List.length_nil] at count
        omega
    | cons newest older =>
        have step := step_open at_.keeps known (at_.unmarked some_) frame.capacity.1
        have short := (at_.keeps.fits.newest newest (by rw [known]; rfl)).2
        rw [if_neg (fun last => still ⟨newest, older, known, last.ge⟩)] at step
        exact ⟨_, step⟩

theorem HistoryAt.still_safe (still : ¬SectorRing.Turns layout.capacity ring) :
    FailsSafely layout size ring machine entry writes := by
  obtain ⟨opened, inside, valid⟩ := at_.first_round room region
  obtain ⟨header, step⟩ := at_.still_step frame room still
  have sound : historyStep layout.capacity (ringAt size (max started 1))
      (ringHeader (machine.card (ringRaw layout (ringPlace size (max started 1) 0)))) ≠
        .invalid := by
    rw [step]
    exact fun same => by cases same
  have run := out_history_store frame opened inside valid step entry
    ((layout.ring machine.db).size + 1)
  rw [← out_historyAdd] at run
  have length := @length_replaceLog _ _ frame machine.card machine.db.usageBitmap
    (ringAt size (max started 1)).currentIndex (storedSector layout (machine.card
      (ringRaw layout (ringAt size (max started 1)).currentIndex)) header entry)
  have part := @part_sectors _ _ frame machine.card machine.db.usageBitmap
    (ringAt size (max started 1)).currentIndex (storedSector layout (machine.card
      (ringRaw layout (ringAt size (max started 1)).currentIndex)) header entry)
  cases first_failure writes 4 with
  | inl accepted =>
      apply fails_safely_of_ok
      rw [Machine.attempt_accepted run (by rw [length]; exact accepted)]
  | inr refused_ =>
      obtain ⟨first, within, accepted, fails⟩ := refused_
      obtain ⟨journal, stops⟩ := refused_round frame opened inside valid entry
        ((layout.ring machine.db).size + 1) sound within
      rw [← refused_historyAdd] at stops
      have ends := Machine.attempt_stops run (by rw [length]; exact within) accepted fails stops
      rw [fails_safely_iff ends]
      by_cases soon : first < 3
      · left
        apply at_.continues frame room region
        · apply opened_positioned
          rw [frame.ring_journal, frame.ring_set]
        · rw [part within.le, if_pos soon]
      · right
        apply at_.uncommitted frame room region entry run
        · exact (frame.ring_journal _ _).trans (frame.ring_journal _ _).symm
        · have whole := part (Nat.le_refl 4)
          rw [List.take_of_length_le length.le, if_neg (by decide)] at whole
          rw [part within.le, if_neg soon, whole]

omit frame region at_ in
theorem not_added {final : Machine} (fits : SectorRing.Fits size layout.capacity ring)
    (turns : SectorRing.Turns layout.capacity ring) (wide : 1 < layout.capacity)
    {entries : List E} (shown : final.ShowsHistory layout entries)
    (lists : entries = [] ∨ entries.length = ring.flatten.length) :
    ¬Continues layout size (SectorRing.add size layout.capacity entry ring) final := by
  intro continues_
  have same := shows_unique shown continues_.1
  have full := fits.all_full turns
  have sectors := fits.sectors
  have taken := @SectorRing.flatten_length _ layout.capacity (ring.take (size - 1))
    fun sector member => full sector (List.mem_of_mem_take member)
  have lengths := congrArg List.length same
  rw [SectorRing.add_turns turns, List.flatten_cons, List.length_append, List.length_singleton,
    taken, List.length_take] at lengths
  cases lists with
  | inl none_ =>
      rw [none_, List.length_nil] at lengths
      omega
  | inr counted =>
      rw [counted, SectorRing.flatten_length full] at lengths
      by_cases filled : ring.length = size
      · have most : min (size - 1) ring.length = ring.length - 1 := by omega
        have split : ring.length = (ring.length - 1) + 1 := by omega
        rw [most] at lengths
        nth_rewrite 1 [split] at lengths
        rw [Nat.succ_mul] at lengths
        omega
      · have most : min (size - 1) ring.length = ring.length := by omega
        rw [most] at lengths
        omega

omit room region at_ in
theorem part_of_whole (card : Card Sector) (bitmap : UsageBitmap) (index : Nat)
    (content : Sector) (count : Nat) (within : count ≤ 4) :
    historySectors layout
        (applyWrites ((replaceLog layout bitmap card index content).take count) card) =
      if count < 3 then historySectors layout card
      else historySectors layout (applyWrites (replaceLog layout bitmap card index content) card) := by
  have whole := @part_sectors _ _ frame card bitmap index content 4 (Nat.le_refl 4)
  rw [List.take_of_length_le (@length_replaceLog _ _ frame card bitmap index content).le,
    if_neg (by decide)] at whole
  rw [part_sectors frame bitmap index content within, whole]

/-- What a failing transaction of an add leaves of the sectors, by its failed write. -/
def PartsOf (layout : HistoryLayout E) (card : Card Sector) (log : WriteLog Sector) : Prop :=
  log.length = 4 ∧ ∀ count, count ≤ 4 →
    historySectors layout (applyWrites (log.take count) card) =
      if count < 3 then historySectors layout card
      else historySectors layout (applyWrites log card)

omit room region at_ in
theorem replace_parts (card : Card Sector) (bitmap : UsageBitmap) (index : Nat)
    (content : Sector) : PartsOf layout card (replaceLog layout bitmap card index content) :=
  ⟨length_replaceLog frame _ _ _, part_of_whole frame card bitmap index content⟩

theorem HistoryAt.marking (turns : SectorRing.Turns layout.capacity ring) :
    ∃ next log, PartsOf layout machine.card log ∧
      RingKeeps layout size started ring (historySectors layout (applyWrites log machine.card)) ∧
      (ringHeader (applyWrites log machine.card
        (ringRaw layout (ringPlace size started 0)))).state = rbFull ∧
      layout.ring next = ringAt size (started + 1) ∧
      (let rest := out (historyAddLoop layout entry ((layout.ring machine.db).size + 1)) next
        (applyWrites log machine.card)
       out (historyAdd layout entry) machine.db machine.card = (rest.1, log ++ rest.2)) ∧
      (∀ count, count < 4 → ∃ later,
        refused (historyAdd layout entry) machine.db machine.card count =
          .done (.strgFail, later) ∧ layout.ring later = ringAt size started) ∧
      ∀ count, refused (historyAdd layout entry) machine.db machine.card (4 + count) =
        refused (historyAddLoop layout entry ((layout.ring machine.db).size + 1)) next
          (applyWrites log machine.card) count := by
  obtain ⟨opened, inside, valid⟩ := at_.first_round room region
  obtain ⟨newest, older, known, long⟩ := turns
  have count := at_.keeps.count
  have some_ : 0 < started := by
    rw [known, List.length_cons] at count
    omega
  rw [Nat.max_eq_left some_] at opened inside valid
  have last : newest.length = layout.capacity :=
    Nat.le_antisymm (at_.keeps.fits.newest newest (by rw [known]; rfl)).2 long
  have step := step_open at_.keeps known (at_.unmarked some_) frame.capacity.1
  rw [if_pos last] at step
  have sound : historyStep layout.capacity (ringAt size started)
      (ringHeader (machine.card (ringRaw layout (ringPlace size started 0)))) ≠ .invalid := by
    rw [step]
    exact fun same => by cases same
  have moved : nextRing (ringAt size started) = ringAt size (started + 1) := by
    obtain ⟨before, rfl⟩ : ∃ before, started = before + 1 := ⟨started - 1, by omega⟩
    exact next_at room before
  obtain ⟨leads, full⟩ := marking_leads frame room region at_.keeps known some_ last
    machine.db.usageBitmap
  have run := out_history_next frame opened inside valid step entry
    ((layout.ring machine.db).size + 1)
  refine ⟨_, _, replace_parts frame _ _ _ _, leads.keeps, full, ?_,
    (out_historyAdd entry).trans run, ?_, ?_⟩
  · rw [frame.ring_journal, frame.ring_set, moved]
  · intro first within
    obtain ⟨journal, stops⟩ := refused_round frame opened inside valid entry
      ((layout.ring machine.db).size + 1) sound within
    rw [← refused_historyAdd] at stops
    refine ⟨_, stops, ?_⟩
    rw [frame.ring_journal, frame.ring_set]
  · intro later
    rw [refused_historyAdd]
    exact refused_next frame opened inside valid entry ((layout.ring machine.db).size + 1) later
      step

omit at_ in
theorem starting {card : Card Sector} {db : Database}
    (keeps : RingKeeps layout size started ring (historySectors layout card))
    (full : (ringHeader (card (ringRaw layout (ringPlace size started 0)))).state = rbFull)
    (position : layout.ring db = ringAt size (started + 1)) (fuel : Nat) :
    ∃ next log, PartsOf layout card log ∧
      out (historyAddLoop layout entry (fuel + 1)) db card = ((.strgOk, next), log) ∧
      layout.ring next = ringAt size (started + 1) ∧
      ∀ count, count < 4 → ∃ later,
        refused (historyAddLoop layout entry (fuel + 1)) db card count =
          .done (.strgFail, later) ∧ layout.ring later = ringAt size (started + 1) := by
  have opened : openedRing (layout.ring db) = ringAt size (started + 1) := by
    rw [position, opened_at room, Nat.max_eq_left (Nat.succ_le_succ (Nat.zero_le _))]
  have inside : ringRaw layout (ringPlace size (started + 1) 0) < 65536 :=
    ring_place_region room region 0
  have valid : sectorCrcValid (card (ringRaw layout (ringPlace size (started + 1) 0))) = true :=
    keeps.valid _ (ring_place_lt room 0)
  have reusable : (ringHeader (card (ringRaw layout (ringPlace size (started + 1) 0)))).state =
      rbEmpty ∨ (ringHeader (card (ringRaw layout (ringPlace size (started + 1) 0)))).state =
        rbFull := keeps.next_reusable room fun _ _ => full
  have step := @step_first _ layout size (started + 1) _ reusable
  have sound : historyStep layout.capacity (ringAt size (started + 1))
      (ringHeader (card (ringRaw layout (ringPlace size (started + 1) 0)))) ≠ .invalid := by
    rw [step]
    exact fun same => by cases same
  refine ⟨_, _, replace_parts frame _ _ _ _,
    out_history_store frame opened inside valid step entry fuel, ?_, ?_⟩
  · rw [frame.ring_journal, frame.ring_set]
  · intro first within
    obtain ⟨journal, stops⟩ := refused_round frame opened inside valid entry fuel sound within
    refine ⟨_, stops, ?_⟩
    rw [frame.ring_journal, frame.ring_set]

omit at_ in
theorem turned_not_added (keeps : RingKeeps layout size started ring
    (historySectors layout machine.card))
    (position : layout.ring machine.db = ringAt size (started + 1))
    (turns : SectorRing.Turns layout.capacity ring) (wide : 1 < layout.capacity) :
    ¬Continues layout size (SectorRing.add size layout.capacity entry ring) machine := by
  have given : ring ≠ [] := by
    obtain ⟨newest, older, known, _⟩ := turns
    rw [known]
    exact List.cons_ne_nil _ _
  have lists := turned_shows frame room region keeps position turns given
  have full := keeps.fits.all_full turns
  by_cases short : ring.length < size
  · exact not_added room entry keeps.fits turns wide (lists.1 short) (Or.inl rfl)
  · have sectors := keeps.fits.sectors
    have filled : ring.length = size := by omega
    apply not_added room entry keeps.fits turns wide (lists.2 filled)
    right
    rw [List.flatten_cons, List.length_append, full _ (List.getLast_mem given),
      SectorRing.flatten_length fun sector member => full sector (List.mem_of_mem_dropLast member),
      SectorRing.flatten_length full, List.length_dropLast]
    have split : ring.length = (ring.length - 1) + 1 := by omega
    nth_rewrite 2 [split]
    rw [Nat.succ_mul, Nat.add_comm]

theorem HistoryAt.turn_iff (turns : SectorRing.Turns layout.capacity ring)
    (wide : 1 < layout.capacity) :
    FailsSafely layout size ring machine entry writes ↔
      ¬BreaksTurn writes ∨ (ring.length = size ∧ SectorRing.Alike ring) := by
  obtain ⟨middle, first, firstParts, marked, full, moved, run, firstStops, behind⟩ :=
    at_.marking frame room region entry turns
  obtain ⟨next, second, secondParts, secondRun, position, secondStops⟩ :=
    starting frame room region entry marked full moved (layout.ring machine.db).size
  dsimp only at run
  rw [secondRun] at run
  have length : (first ++ second).length = 8 := by
    rw [List.length_append, firstParts.1, secondParts.1]
  have oldKeeps := at_.keeps
  cases first_failure writes 8 with
  | inl accepted =>
      have ok := Machine.attempt_accepted run (by rw [length]; exact accepted)
      apply iff_of_true (fails_safely_of_ok (by rw [ok]))
      left
      intro breaks
      obtain ⟨count, _, high, _, fails⟩ := breaks
      rw [accepted count (by omega)] at fails
      cases fails
  | inr refused_ =>
      obtain ⟨count, within, accepted, fails⟩ := refused_
      rw [breaks_turn_iff accepted fails]
      by_cases inFirst : count < 4
      · obtain ⟨later, stops, laterPosition⟩ := firstStops count inFirst
        have ends := Machine.attempt_stops run (by rw [length]; exact within) accepted fails stops
        rw [List.take_append_of_le_length (by rw [firstParts.1]; omega)] at ends
        have part := firstParts.2 count inFirst.le
        rw [fails_safely_iff ends]
        by_cases soon : count < 3
        · apply iff_of_true _ (Or.inl (by omega))
          rw [if_pos soon] at part
          exact Or.inl (at_.continues frame room region (Or.inl laterPosition) part)
        · rw [if_neg soon] at part
          have keeps := marked
          rw [← part] at keeps
          have state : (ringHeader (applyWrites (first.take count) machine.card
              (ringRaw layout (ringPlace size started 0)))).state = rbFull := by
            have here := congrFun part (ringPlace size started 0)
            exact (congrArg (fun content => (ringHeader content).state) here).trans full
          have shown := @positioned_shows _ _ frame _ _ room region _ ⟨later, _⟩ keeps
            (Or.inl laterPosition)
          have other := not_added room entry keeps.fits turns wide shown (Or.inr rfl)
          rw [or_iff_left other, or_iff_right (not_not_intro ⟨by omega, by omega⟩)]
          exact continues_marked frame room region keeps laterPosition turns state
      · obtain ⟨more, rfl⟩ : ∃ more, count = 4 + more := ⟨count - 4, by omega⟩
        obtain ⟨later, stops, laterPosition⟩ := secondStops more (by omega)
        have ends := Machine.attempt_stops run (by rw [length]; exact within) accepted fails
          ((behind more).trans stops)
        have taken : (first ++ second).take (4 + more) = first ++ second.take more := by
          rw [← firstParts.1, List.take_length_add_append]
        rw [taken, apply_writes_append] at ends
        have part := secondParts.2 more (by omega)
        rw [fails_safely_iff ends]
        by_cases soon : more < 3
        · rw [if_pos soon] at part
          have keeps := marked
          rw [← part] at keeps
          have state : (ringHeader (applyWrites (second.take more) (applyWrites first machine.card)
              (ringRaw layout (ringPlace size started 0)))).state = rbFull := by
            have here := congrFun part (ringPlace size started 0)
            exact (congrArg (fun content => (ringHeader content).state) here).trans full
          have other := @turned_not_added _ _ frame _ _ room region _ ⟨later, _⟩ entry keeps
            laterPosition turns wide
          rw [or_iff_left other, or_iff_right (not_not_intro ⟨by omega, by omega⟩)]
          exact continues_turned frame room region keeps laterPosition turns state
        · apply iff_of_true _ (Or.inl (by omega))
          rw [if_neg soon] at part
          right
          apply at_.uncommitted frame room region entry run (laterPosition.trans position.symm)
          rw [apply_writes_append]
          exact part

omit at_ in
theorem fails_safely_of_entries (wide : 1 < layout.capacity) (machine : Machine)
    (entries : List E) :
    FailsSafely layout size (entriesRing layout size entries)
        (machine.withHistory layout size entries) entry writes ↔
      ¬(SectorRing.Turns layout.capacity (entriesRing layout size entries) ∧ BreaksTurn writes) ∨
        ((entriesRing layout size entries).length = size ∧
          SectorRing.Alike (entriesRing layout size entries)) := by
  obtain ⟨started, reached⟩ := with_history_at frame room region machine entries
  by_cases turns : SectorRing.Turns layout.capacity (entriesRing layout size entries)
  · rw [reached.turn_iff frame room region entry turns wide, and_iff_right turns]
  · apply iff_of_true (reached.still_safe frame room region entry turns)
    exact Or.inl fun both => turns both.1

end Failing

/-- A failing add to either history loses entries exactly when the write that fails lies
between marking a sector full and storing the entry in the next one, unless all sectors of
a full ring hold the same. -/
theorem history_failures_iff (size : Nat) (room : 0 < size) (machine : Machine)
    (writes : Nat → Bool) :
    (historyStartSector messageHistoryLayout + size ≤ 65536 → ∀ entries entry,
      let ring := entriesRing messageHistoryLayout size entries
      FailsSafely messageHistoryLayout size ring
          (machine.withHistory messageHistoryLayout size entries) entry writes ↔
        ¬(SectorRing.Turns messageHistoryLayout.capacity ring ∧ BreaksTurn writes) ∨
          (ring.length = size ∧ SectorRing.Alike ring)) ∧
    (historyStartSector callHistoryLayout + size ≤ 65536 → ∀ entries entry,
      let ring := entriesRing callHistoryLayout size entries
      FailsSafely callHistoryLayout size ring
          (machine.withHistory callHistoryLayout size entries) entry writes ↔
        ¬(SectorRing.Turns callHistoryLayout.capacity ring ∧ BreaksTurn writes) ∨
          (ring.length = size ∧ SectorRing.Alike ring)) :=
  ⟨fun region entries entry =>
      fails_safely_of_entries messageHistoryFrame room region entry (by decide) machine entries,
    fun region entries entry =>
      fails_safely_of_entries callHistoryFrame room region entry (by decide) machine entries⟩

/-- The pattern in which write number `failed` fails. -/
def failingAt (failed : Nat) : Nat → Bool := fun index => index != failed

theorem history_failures_iff_example :
    FailsSafely messageHistoryLayout 5000 (entriesRing messageHistoryLayout 5000 [exampleEntry])
        (exampleMachine.withHistory messageHistoryLayout 5000 [exampleEntry]) exampleEntry
        (failingAt 3) ↔
      ¬(SectorRing.Turns messageHistoryLayout.capacity
          (entriesRing messageHistoryLayout 5000 [exampleEntry]) ∧ BreaksTurn (failingAt 3)) ∨
        ((entriesRing messageHistoryLayout 5000 [exampleEntry]).length = 5000 ∧
          SectorRing.Alike (entriesRing messageHistoryLayout 5000 [exampleEntry])) :=
  (history_failures_iff 5000 (by decide) exampleMachine (failingAt 3)).1 (by decide)
    [exampleEntry] exampleEntry

/-- Two messages fill a sector. A third one fails on the first write for the next sector, and
neither of the first two is listed any more. -/
theorem history_failure_hides :
    ¬FailsSafely messageHistoryLayout 5000
      (entriesRing messageHistoryLayout 5000 [exampleEntry, exampleEntry])
      (exampleMachine.withHistory messageHistoryLayout 5000 [exampleEntry, exampleEntry])
      exampleEntry (failingAt 4) := by
  have room : 0 < 5000 := by decide
  have region : messageHistoryLayout.dataStart + 12 + 5000 ≤ 65536 := by decide
  have ring : entriesRing messageHistoryLayout 5000 [exampleEntry, exampleEntry] =
      [[exampleEntry, exampleEntry]] := rfl
  have wide : 1 < messageHistoryLayout.capacity := by decide
  rw [fails_safely_of_entries messageHistoryFrame room region exampleEntry wide exampleMachine, ring]
  intro safe
  cases safe with
  | inl unbroken =>
      apply unbroken
      constructor
      · exact ⟨_, _, rfl, by decide⟩
      · refine ⟨4, by decide, by decide, ?_, rfl⟩
        intro index below
        exact bne_iff_ne.mpr (Nat.ne_of_lt below)
  | inr filled => exact absurd filled.1 (by decide)

end SdDatabase
