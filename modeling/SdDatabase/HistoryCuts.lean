import SdDatabase.HistoryWindow

/-!
# Histories across power cuts

A cut between the two transactions of an add leaves the current sector marked
full, and the position that is found at the restart is still on it. The next add
then writes over the newest sector. As long as no add begins on such a sector,
nothing but the oldest sector is ever given up.
-/

namespace SdDatabase

open Bytes Device

set_option autoImplicit false

section Cuts

variable {E : Type}

/-- The start of a history: the journal is recovered, then the position is looked up. -/
def historyRestart (layout : HistoryLayout E) (size : Nat) : DbM Bool := do
  if !(← journalInit) then
    return false
  match ← initRingBuffer (layout.ring (← get)) size (historyStartSector layout) with
  | none => return false
  | some rb =>
      modifyRing layout fun _ => rb
      return true

/-- An add that ends, or one that is cut before write `count` and followed by a
restart with whatever is in memory then. -/
inductive HistoryEvent (E : Type) where
  | add (entry : E)
  | cut (entry : E) (count : Nat) (memory : Database)

def HistoryEvent.apply (layout : HistoryLayout E) (size : Nat) (machine : Machine) :
    HistoryEvent E → Machine
  | .add entry => machine.addHistory layout entry
  | .cut entry count memory =>
      (Machine.run (historyRestart layout size)
        ⟨memory, cutCard (historyAdd layout entry) machine.db count machine.card⟩).2

/-- What the event may make of a ring: the entry is put in front, or is lost in a cut. -/
def HistoryEvent.Allows (layout : HistoryLayout E) (size : Nat) (ring next : List (List E)) :
    HistoryEvent E → Prop
  | .add entry => next = SectorRing.add size layout.capacity entry ring
  | .cut entry _ _ => next = ring ∨ next = SectorRing.add size layout.capacity entry ring

/-- A range from the newest entry on lists `entries`. -/
def Machine.ShowsHistory (layout : HistoryLayout E) (machine : Machine) (entries : List E) : Prop :=
  ∀ n, (machine.run (historyGetRange layout 0 n)).1 = (.strgOk, entries.take n)

/-- At every point of the run the history lists a ring that the events allow. -/
def Survives (layout : HistoryLayout E) (size : Nat) :
    Machine → List (List E) → List (HistoryEvent E) → Prop
  | machine, ring, [] => machine.ShowsHistory layout ring.flatten
  | machine, ring, event :: rest =>
      machine.ShowsHistory layout ring.flatten ∧
        ∃ next, event.Allows layout size ring next ∧
          Survives layout size (event.apply layout size machine) next rest

def FoundFull (layout : HistoryLayout E) (machine : Machine) : Prop :=
  (ringHeader (machine.card
    (ringRaw layout (layout.ring machine.db).currentIndex))).state = rbFull

/-- No add of the run begins on a current sector that is marked full, unless the
ring has no other sector. -/
def NeverFull (layout : HistoryLayout E) (size : Nat) : Machine → List (HistoryEvent E) → Prop
  | _, [] => True
  | machine, event :: rest =>
      (size = 1 ∨ ¬FoundFull layout machine) ∧
        NeverFull layout size (event.apply layout size machine) rest

def Machine.newHistory (layout : HistoryLayout E) (size : Nat) (machine : Machine) : Machine :=
  (machine.run journalHeaderInit).2.resetHistory layout size

/-- What a run of adds and cuts keeps. -/
structure HistoryKept (layout : HistoryLayout E) (size started : Nat) (ring : List (List E))
    (machine : Machine) : Prop where
  idle : JournalIdle machine.card
  position : layout.ring machine.db = ringAt size started
  keeps : RingKeeps layout size started ring (historySectors layout machine.card)

variable {layout : HistoryLayout E} (frame : layout.Frame) {size started : Nat} (room : 0 < size)
  (region : layout.dataStart + 12 + size ≤ 65536) {ring : List (List E)} {machine : Machine}

include frame room region

theorem RingShown.shows (shown : RingShown layout size started ring
    (historySectors layout machine.card)) (some_ : 0 < ring.flatten.length)
    (position : layout.ring machine.db = ringAt size started) :
    machine.ShowsHistory layout ring.flatten := by
  intro n
  rw [Machine.run_of (shown.out_range frame room region position some_ n)]
  rfl

/-- On a sector that was never started nothing is listed. -/
theorem shows_nothing (keeps : RingKeeps layout size started ring
    (historySectors layout machine.card)) {count : Nat}
    (position : layout.ring machine.db = ringAt size count)
    (fresh : started ≤ ringPlace size count 0) : machine.ShowsHistory layout [] := by
  intro n
  have bound : ringPlace size count 0 < size := ring_place_lt room 0
  have place : (layout.ring machine.db).currentIndex = ringPlace size count 0 := by
    rw [position]
    rfl
  have valid : sectorCrcValid (machine.card (ringRaw layout (ringPlace size count 0))) = true :=
    keeps.valid _ bound
  have blank : (ringHeader (machine.card (ringRaw layout (ringPlace size count 0)))).state =
      rbEmpty := keeps.blank _ bound fresh
  rw [← place] at valid blank
  rw [← frame.header] at blank
  rw [Machine.run_of (out_historyGetRange_empty rfl
    (by rw [place]; exact ring_place_region room region 0) valid blank 0 n), List.take_nil]

omit frame region in
/-- A ring without entries was never started. -/
theorem RingKeeps.none_of_empty {sector : Nat → Sector}
    (keeps : RingKeeps layout size started ring sector) (empty : ¬0 < ring.flatten.length) :
    started = 0 ∧ ring = [] := by
  have count := keeps.count
  cases ring with
  | nil =>
      rw [List.length_nil] at count
      exact ⟨by omega, rfl⟩
  | cons newest older =>
      have newestSome := keeps.fits.newest newest rfl
      rw [List.flatten_cons, List.length_append] at empty
      omega

theorem positioned_shows (keeps : RingKeeps layout size started ring
    (historySectors layout machine.card)) (position : RingPositioned layout size started machine.db) :
    machine.ShowsHistory layout ring.flatten := by
  by_cases some_ : 0 < ring.flatten.length
  · have given : 0 < started := by
      by_contra none_
      have count := keeps.count
      have empty : ring = [] := List.length_eq_zero_iff.mp (by omega)
      rw [empty, List.flatten_nil] at some_
      exact Nat.lt_irrefl _ some_
    cases position with
    | inl known => exact (keeps.shown room).shows frame room region some_ known
    | inr opened => exact absurd opened.1 (Nat.pos_iff_ne_zero.mp given)
  · obtain ⟨rfl, rfl⟩ := keeps.none_of_empty room some_
    cases position with
    | inl known => exact shows_nothing frame room region keeps known (Nat.zero_le _)
    | inr opened => exact shows_nothing frame room region keeps opened.2 (Nat.zero_le _)

theorem HistoryKept.shows (kept : HistoryKept layout size started ring machine) :
    machine.ShowsHistory layout ring.flatten :=
  positioned_shows frame room region kept.keeps (Or.inl kept.position)

theorem new_history_kept (machine : Machine) :
    HistoryKept layout size 0 [] (machine.newHistory layout size) := by
  have header : machine.run journalHeaderInit =
      (true, ⟨machine.db, Function.update machine.card jrnlHeaderSector emptyHeaderBlock⟩) := rfl
  have low : jrnlHeaderSector = 1 := rfl
  have start : historyStartSector layout = layout.dataStart + 12 := rfl
  obtain ⟨_, at_⟩ := reset_history_at frame room region (machine.run journalHeaderInit).2
  refine ⟨?_, at_.position, at_.keeps⟩
  have run := (reset_history_run room region (machine.run journalHeaderInit).2).2
  rw [Machine.newHistory, Machine.resetHistory, run, JournalIdle]
  dsimp only
  rw [ring_blocks_apply, if_neg (by omega), header]
  dsimp only
  rw [Function.update_self]
  exact empty_header_idle

theorem restart_kept {cut final : Card Sector} (recovers : Recovers cut final)
    (keeps : RingKeeps layout size started ring (historySectors layout final)) (memory : Database) :
    HistoryKept layout size started ring
        (Machine.run (historyRestart layout size) ⟨memory, cut⟩).2 ∧
      (Machine.run (historyRestart layout size) ⟨memory, cut⟩).2.card = final := by
  have start : historyStartSector layout = layout.dataStart + 12 := rfl
  obtain ⟨header, log, recovered, applied⟩ := recovers_journalInit recovers memory
  have found := @out_initRingBuffer _ _ _ { memory with journal := header } _ _
    (keeps.searchable room (by omega)) (history_stored final) (by omega) room
    (layout.ring { memory with journal := header })
  have run : Machine.run (historyRestart layout size) ⟨memory, cut⟩ =
      (true, ⟨layout.setRing (ringAt size started) { memory with journal := header }, final⟩) := by
    have whole : out (historyRestart layout size) memory cut =
        ((true, layout.setRing (ringAt size started) { memory with journal := header }), log) := by
      have logEq : log = log ++ ([] ++ ([] ++ ([] ++ []))) := by simp
      unfold historyRestart
      rw [logEq]
      refine out_bind_both recovered ?_
      rw [applied, Bool.not_true, if_neg Bool.false_ne_true]
      refine out_bind_both (out_get _ _) ?_
      refine out_bind_both found ?_
      exact out_bind_both rfl rfl
    rw [Machine.run_of whole, applied]
  rw [run]
  exact ⟨⟨recovered_idle recovers, frame.ring_set _ _, keeps⟩, rfl⟩

omit frame room region in
/-- On an only sector that is marked full, writing over it is what the ring allows. -/
theorem HistoryKept.single (kept : HistoryKept layout size started ring machine)
    (single : size = 1) (some_ : 0 < started) (full : FoundFull layout machine) (entry : E) :
    [entry] :: ring.tail = SectorRing.add size layout.capacity entry ring := by
  have count := kept.keeps.count
  cases ring with
  | nil =>
      rw [List.length_nil] at count
      omega
  | cons newest older =>
      have older_ : older = [] := by
        rw [List.length_cons] at count
        exact List.length_eq_zero_iff.mp (by omega)
      rw [FoundFull, kept.position] at full
      have length : newest.length = layout.capacity := by
        rcases kept.keeps.current newest rfl with occupied | ⟨_, length⟩
        · exact absurd (full.symm.trans occupied) (by decide)
        · exact length
      rw [SectorRing.add_turns ⟨newest, older, rfl, length.ge⟩, older_, single]
      rfl

theorem HistoryKept.overwrites (kept : HistoryKept layout size started ring machine)
    (some_ : 0 < started) (full : FoundFull layout machine) (entry : E) :
    ∃ next log, out (historyAdd layout entry) machine.db machine.card =
        ((.strgOk, next), log) ∧ layout.ring next = ringAt size started ∧
      RingLeads layout size machine.card log started ([entry] :: ring.tail)
        fun seen => seen = ring ∨ seen = [entry] :: ring.tail := by
  have opened : openedRing (layout.ring machine.db) = ringAt size started := by
    rw [kept.position, opened_at room, Nat.max_eq_left some_]
  rw [FoundFull, kept.position] at full
  obtain ⟨journal, log, run, leads, _⟩ := full_out frame room region kept.keeps some_ opened
    full entry ((layout.ring machine.db).size + 1)
  exact ⟨_, log, (out_historyAdd entry).trans run, by rw [frame.ring_journal, frame.ring_set],
    leads⟩

theorem HistoryKept.add_leads (kept : HistoryKept layout size started ring machine)
    (sound : size = 1 ∨ ¬FoundFull layout machine) (entry : E) :
    ∃ later next log, out (historyAdd layout entry) machine.db machine.card =
        ((.strgOk, next), log) ∧ layout.ring next = ringAt size later ∧
      RingLeads layout size machine.card log later (SectorRing.add size layout.capacity entry ring)
        fun seen => seen = ring ∨ seen = SectorRing.add size layout.capacity entry ring := by
  by_cases full : 0 < started ∧ FoundFull layout machine
  · have single := sound.resolve_right (not_not_intro full.2)
    have written := kept.overwrites frame room region full.1 full.2 entry
    rw [kept.single single full.1 full.2] at written
    exact ⟨started, written⟩
  · obtain ⟨later, journal, log, run, leads, _⟩ := history_add_leads frame room region kept.keeps
      (Or.inl kept.position) (fun some_ marked => full ⟨some_, by
        rw [FoundFull, kept.position]
        exact marked⟩) entry
    exact ⟨later, _, log, run, by rw [frame.ring_journal, frame.ring_set], leads⟩

theorem HistoryKept.event (kept : HistoryKept layout size started ring machine)
    (event : HistoryEvent E) (sound : size = 1 ∨ ¬FoundFull layout machine) :
    ∃ later next, event.Allows layout size ring next ∧
      HistoryKept layout size later next (event.apply layout size machine) := by
  cases event with
  | add entry =>
      obtain ⟨later, next, log, run, position, leads⟩ := kept.add_leads frame room region sound entry
      refine ⟨later, _, rfl, ?_⟩
      rw [HistoryEvent.apply, Machine.addHistory, Machine.run_of run]
      exact ⟨leads.idle, position, leads.keeps⟩
  | cut entry count memory =>
      obtain ⟨later, next, log, run, position, leads⟩ := kept.add_leads frame room region sound entry
      obtain ⟨final, found, left, recovers, seen, keeps⟩ := leads.cut kept.idle count
      refine ⟨found, left, seen, ?_⟩
      rw [HistoryEvent.apply, cut_card_eq, run]
      exact (restart_kept frame room region recovers keeps memory).1

theorem HistoryKept.survives (kept : HistoryKept layout size started ring machine)
    (events : List (HistoryEvent E)) (sound : NeverFull layout size machine events) :
    Survives layout size machine ring events := by
  induction events generalizing machine ring started with
  | nil => exact kept.shows frame room region
  | cons event rest ih =>
      obtain ⟨later, next, allowed, nextKept⟩ := kept.event frame room region event sound.1
      exact ⟨kept.shows frame room region, next, allowed, ih nextKept sound.2⟩

omit frame region in
theorem HistoryAt.not_full (at_ : HistoryAt layout size started ring machine) :
    ¬FoundFull layout machine := by
  intro full
  rw [FoundFull, at_.position] at full
  rcases Nat.eq_zero_or_pos started with rfl | some_
  · have blank := at_.keeps.blank 0 room (Nat.le_refl 0)
    rw [ringAt, Nat.zero_sub, Nat.zero_mod] at full
    exact absurd (full.symm.trans blank) (by decide)
  · have occupied : (ringHeader (machine.card (ringRaw layout (ringPlace size started 0)))).state =
        rbOccupied := at_.unmarked some_
    exact absurd (full.symm.trans occupied) (by decide)

/-- A cut behind the first transaction of an add that starts a sector leaves the
current one marked full. -/
theorem HistoryAt.cut_marks (at_ : HistoryAt layout size started ring machine)
    (turns : SectorRing.Turns layout.capacity ring)
    (entry : E) (memory : Database) :
    let cut := (HistoryEvent.cut entry 4 memory).apply layout size machine
    HistoryKept layout size started ring cut ∧ FoundFull layout cut := by
  obtain ⟨newest, older, known, long⟩ := turns
  have count := at_.keeps.count
  have some_ : 0 < started := by
    rw [known, List.length_cons] at count
    omega
  have short := (at_.keeps.fits.newest newest (by rw [known]; rfl)).2
  have last : newest.length = layout.capacity := by omega
  have bound : ringPlace size started 0 < size := ring_place_lt room 0
  have inside : ringRaw layout (ringPlace size started 0) < 65536 := ring_place_region room region 0
  have valid : sectorCrcValid (machine.card (ringRaw layout (ringPlace size started 0))) = true :=
    at_.keeps.valid _ bound
  have step := step_open at_.keeps known (at_.unmarked some_) frame.capacity.1
  rw [if_pos last] at step
  have opened : openedRing (layout.ring machine.db) = ringAt size started := by
    rw [at_.position, opened_at room, Nat.max_eq_left some_]
  have run := out_history_next frame opened inside valid step entry
    ((layout.ring machine.db).size + 1)
  dsimp only at run
  rw [show (ringAt size started).currentIndex = ringPlace size started 0 from rfl,
    ← out_historyAdd] at run
  obtain ⟨leads, marked⟩ := marking_leads frame room region at_.keeps known some_ last
    machine.db.usageBitmap
  have length : (replaceLog layout machine.db.usageBitmap machine.card (ringPlace size started 0)
      (fullSector layout (machine.card (ringRaw layout (ringPlace size started 0))))).length = 4 := by
    have kept : layout.type ≠ .remove := by
      intro remove
      have saves := frame.type
      rw [remove] at saves
      cases saves
    rw [replaceLog, transactionLog, journalAddLog, journalCopies, frame.type, if_neg kept]
    rfl
  have cutCard_ : cutCard (historyAdd layout entry) machine.db 4 machine.card =
      applyWrites (replaceLog layout machine.db.usageBitmap machine.card (ringPlace size started 0)
        (fullSector layout (machine.card (ringRaw layout (ringPlace size started 0)))))
        machine.card := by
    rw [cut_card_eq, run]
    dsimp only
    rw [List.take_append_of_le_length length.ge, List.take_of_length_le length.le]
  obtain ⟨kept, card⟩ := restart_kept frame room region (Or.inl ⟨leads.idle, rfl⟩) leads.keeps memory
  rw [← cutCard_] at kept card marked
  refine ⟨kept, ?_⟩
  rw [FoundFull, HistoryEvent.apply, kept.position, card]
  exact marked

end Cuts

/-- Whatever adds are cut and restarted, both histories list their entries but for those of an
overwritten oldest sector, as long as no add begins on a current sector marked full. -/
theorem history_survives_cuts (size : Nat) (room : 0 < size) (machine : Machine) :
    (historyStartSector messageHistoryLayout + size ≤ 65536 → ∀ events,
      NeverFull messageHistoryLayout size (machine.newHistory messageHistoryLayout size) events →
      Survives messageHistoryLayout size (machine.newHistory messageHistoryLayout size) []
        events) ∧
    (historyStartSector callHistoryLayout + size ≤ 65536 → ∀ events,
      NeverFull callHistoryLayout size (machine.newHistory callHistoryLayout size) events →
      Survives callHistoryLayout size (machine.newHistory callHistoryLayout size) [] events) :=
  ⟨fun region events sound => (new_history_kept messageHistoryFrame room region machine).survives
      messageHistoryFrame room region events sound,
    fun region events sound => (new_history_kept callHistoryFrame room region machine).survives
      callHistoryFrame room region events sound⟩

def exampleEntry : MessageHistoryEntry := messageHistoryLayout.blank

def exampleHistory : Machine := exampleMachine.newHistory messageHistoryLayout 5000

theorem history_survives_cuts_example :
    Survives messageHistoryLayout 5000 exampleHistory []
      [.add exampleEntry, .cut exampleEntry 3 formattedDatabase] := by
  have region : messageHistoryLayout.dataStart + 12 + 5000 ≤ 65536 := by decide
  have at_ := (reset_history_at messageHistoryFrame (by decide) region
    (exampleMachine.run journalHeaderInit).2).2
  obtain ⟨later, next⟩ := (add_history_at messageHistoryFrame (by decide) region at_ exampleEntry).2
  refine (history_survives_cuts 5000 (by decide) exampleMachine).1 (by decide) _
    ⟨Or.inr ?_, Or.inr ?_, trivial⟩
  · exact at_.not_full (by decide)
  · exact next.not_full (by decide)

/-- Two messages fill a sector; a third one is cut after four writes, and the next
message writes over the first two. -/
theorem history_cut_loses :
    ¬Survives messageHistoryLayout 5000 exampleHistory []
      [.add exampleEntry, .add exampleEntry, .cut exampleEntry 4 formattedDatabase,
        .add exampleEntry] := by
  have room : 0 < 5000 := by decide
  have region : messageHistoryLayout.dataStart + 12 + 5000 ≤ 65536 := by decide
  have positive : 0 < messageHistoryLayout.capacity := by decide
  obtain ⟨_, start⟩ := reset_history_at messageHistoryFrame room region
    (exampleMachine.run journalHeaderInit).2
  obtain ⟨_, _, first⟩ := add_history_at messageHistoryFrame room region start exampleEntry
  obtain ⟨_, _, second⟩ := add_history_at messageHistoryFrame room region first exampleEntry
  have whole : SectorRing.add 5000 messageHistoryLayout.capacity exampleEntry
      (SectorRing.add 5000 messageHistoryLayout.capacity exampleEntry []) =
      [[exampleEntry, exampleEntry]] := rfl
  rw [whole] at second
  obtain ⟨kept, full⟩ := second.cut_marks messageHistoryFrame room region
    ⟨_, _, rfl, le_refl 2⟩ exampleEntry formattedDatabase
  have count := kept.keeps.count
  obtain ⟨later, log, run, position, leads⟩ := kept.overwrites messageHistoryFrame room region
    (by rw [List.length_singleton] at count; omega) full exampleEntry
  have left : HistoryKept messageHistoryLayout 5000 _ [[exampleEntry]] ⟨later, _⟩ :=
    ⟨leads.idle, position, leads.keeps⟩
  rintro ⟨_, _, rfl, _, _, rfl, _, next, allowed, _, _, rfl, shows⟩
  have actual := left.shows messageHistoryFrame room region 2
  have claimed := shows 2
  simp only [HistoryEvent.apply] at claimed
  rw [Machine.addHistory] at claimed
  unfold exampleHistory Machine.newHistory at claimed
  simp only [HistoryEvent.apply] at run
  rw [Machine.run_of run] at claimed
  have listed := congrArg (fun answer => answer.2.length) (actual.symm.trans claimed)
  rcases allowed with rfl | rfl
  · exact absurd listed (by decide)
  · exact absurd listed (by decide)

end SdDatabase
