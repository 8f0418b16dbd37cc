import SdDatabase.Crash
import SdDatabase.History

/-!
# Histories on the card

The sectors of a history are started one after the other, so the position kept
in memory and the sequence numbers and states on the card follow from how many
were started. Adding an entry touches one sector, or marks it full and starts
the next; a power cut between the two leaves a full sector that is used again.
-/

namespace SdDatabase

open Bytes Device

set_option autoImplicit false

/-- The position of a ring of `size` sectors of which `started` were started. -/
def ringAt (size started : Nat) : RingBuffer where
  seq := BitVec.ofNat 32 (started - 1)
  size := size
  currentIndex := (started - 1) % size
  occupancy := min started size

/-- The position of a ring of which `started` sectors were started. -/
def ringPosition (started : Nat) : RingBuffer where
  seq := BitVec.ofNat 32 (started - 1)
  size := 5000
  currentIndex := (started - 1) % 5000
  occupancy := min started 5000

theorem ring_round_current {started : Nat} (some_ : 0 < started) :
    ringRound started ((started - 1) % 5000) = started - 1 := by
  unfold ringRound
  omega

theorem ring_round_next {started index : Nat} (bound : index < 5000) (below : index < started + 1)
    (other : index ≠ started % 5000) :
    index < started ∧ ringRound (started + 1) index = ringRound started index := by
  unfold ringRound
  constructor
  · by_contra above
    have same : index = started := by omega
    omega
  · have quotient : (started - index) / 5000 = (started - 1 - index) / 5000 := by omega
    rw [show started + 1 - 1 - index = started - index by omega, quotient]

section Rings

variable {capacity started : Nat} {sector : Nat → Sector} {content : Sector}

theorem RingHolds.rewrite (ring : RingHolds capacity started sector) (some_ : 0 < started)
    (valid : sectorCrcValid content = true)
    (numbered : (ringHeader content).seq = BitVec.ofNat 32 (started - 1))
    (open_ : Appendable capacity (ringHeader content)) :
    RingHolds capacity started (Function.update sector ((started - 1) % 5000) content) where
  valid index bound := by
    by_cases same : index = (started - 1) % 5000
    · rwa [same, Function.update_self]
    · rw [Function.update_of_ne same]
      exact ring.valid index bound
  blank index bound above := by
    rw [Function.update_of_ne (by omega)]
    exact ring.blank index bound above
  numbered index bound below := by
    by_cases same : index = (started - 1) % 5000
    · rw [same, Function.update_self, numbered, ring_round_current some_]
    · rw [Function.update_of_ne same]
      exact ring.numbered index bound below
  past index bound below other := by
    rw [Function.update_of_ne other]
    exact ring.past index bound below other
  current _ := by rwa [Function.update_self]

theorem RingHolds.start (ring : RingHolds capacity started sector)
    (full : 0 < started → (ringHeader (sector ((started - 1) % 5000))).state = rbFull)
    (valid : sectorCrcValid content = true)
    (numbered : (ringHeader content).seq = BitVec.ofNat 32 started)
    (open_ : Appendable capacity (ringHeader content)) :
    RingHolds capacity (started + 1) (Function.update sector (started % 5000) content) where
  valid index bound := by
    by_cases same : index = started % 5000
    · rwa [same, Function.update_self]
    · rw [Function.update_of_ne same]
      exact ring.valid index bound
  blank index bound above := by
    rw [Function.update_of_ne (by omega)]
    exact ring.blank index bound (by omega)
  numbered index bound below := by
    by_cases same : index = started % 5000
    · rw [same, Function.update_self, numbered]
      have round := ring_round_current (Nat.succ_pos started)
      rw [Nat.succ_eq_add_one, Nat.add_sub_cancel] at round
      rw [round]
    · obtain ⟨earlier, round⟩ := ring_round_next bound below same
      rw [Function.update_of_ne same, round]
      exact ring.numbered index bound earlier
  past index bound below other := by
    rw [Nat.add_sub_cancel] at other
    have earlier := (ring_round_next bound below other).1
    rw [Function.update_of_ne other]
    by_cases last : index = (started - 1) % 5000
    · rw [last]
      exact full (by omega)
    · exact ring.past index bound earlier last
  current _ := by rwa [Nat.add_sub_cancel, Function.update_self]

theorem RingHolds.reusable (ring : RingHolds capacity started sector)
    (full : 0 < started → (ringHeader (sector ((started - 1) % 5000))).state = rbFull) :
    (ringHeader (sector (started % 5000))).state = rbEmpty ∨
      (ringHeader (sector (started % 5000))).state = rbFull := by
  have bound : started % 5000 < 5000 := Nat.mod_lt _ (by decide)
  by_cases fresh : started ≤ started % 5000
  · exact Or.inl (ring.blank _ bound fresh)
  · right
    by_cases last : started % 5000 = (started - 1) % 5000
    · rw [last]
      exact full (by omega)
    · exact ring.past _ bound (by omega) last

end Rings

/-- The ring position an add works on: the first add makes one sector occupied. -/
def openedRing (rb : RingBuffer) : RingBuffer :=
  if rb.occupancy = 0 then addRingBuffer rb else rb

/-- The ring position after a sector was marked full. -/
def nextRing (rb : RingBuffer) : RingBuffer :=
  incSeqRingBuffer (moveNextRingBuffer (addRingBuffer rb))

theorem opened_at {size : Nat} (room : 0 < size) (started : Nat) :
    openedRing (ringAt size started) = ringAt size (max started 1) := by
  unfold openedRing
  by_cases none_ : started = 0
  · subst none_
    simp [ringAt, addRingBuffer, room, Nat.min_eq_left (Nat.succ_le_of_lt room)]
  · rw [if_neg (by simp [ringAt]; omega), Nat.max_eq_left (by omega)]

theorem opened_position (started : Nat) :
    openedRing (ringPosition started) = ringPosition (max started 1) :=
  opened_at (by decide) started

theorem succ_mod_within {size before : Nat} (within : before % size + 1 < size) :
    (before + 1) % size = before % size + 1 := by
  rw [Nat.add_mod, Nat.mod_eq_of_lt (show 1 < size by omega), Nat.mod_eq_of_lt within]

theorem succ_mod_turns {size before : Nat} (turns : before % size + 1 = size) :
    (before + 1) % size = 0 := by
  rcases Nat.lt_or_ge 1 size with wide | narrow
  · rw [Nat.add_mod, Nat.mod_eq_of_lt wide, turns, Nat.mod_self]
  · have one : size = 1 := by omega
    rw [one, Nat.mod_one]

theorem next_at {size : Nat} (room : 0 < size) (before : Nat) :
    nextRing (ringAt size (before + 1)) = ringAt size (before + 2) := by
  have sequence : BitVec.ofNat 32 before + 1#32 = BitVec.ofNat 32 (before + 1) := by
    rw [← BitVec.ofNat_add]
  have small := Nat.mod_lt before room
  unfold nextRing incSeqRingBuffer moveNextRingBuffer addRingBuffer ringAt
  simp only [Nat.add_sub_cancel, show before + 2 - 1 = before + 1 by omega]
  by_cases filling : before + 1 < size
  · have inside : before % size = before := Nat.mod_eq_of_lt (by omega)
    have after : (before + 1) % size = before + 1 := Nat.mod_eq_of_lt filling
    simp only [inside, after, show min (before + 1) size = before + 1 by omega,
      show min (before + 2) size = before + 2 by omega, if_pos filling]
    rw [if_pos (by omega)]
    simp [sequence]
  · simp only [show min (before + 1) size = size by omega,
      show min (before + 2) size = size by omega, lt_self_iff_false, if_false]
    by_cases wraps : before % size + 1 < size
    · rw [if_pos (by omega), succ_mod_within wraps]
      simp only [sequence]
    · rw [if_neg (by omega), succ_mod_turns (by omega)]
      simp only [sequence]

theorem next_position (before : Nat) :
    nextRing (ringPosition (before + 1)) = ringPosition (before + 2) :=
  next_at (by decide) before

section Layout

variable {E : Type}

def ringRaw (layout : HistoryLayout E) (index : Nat) : Nat := layout.dataStart + 12 + index

/-- What the proofs about a history use of its layout. -/
structure HistoryLayout.Frame (layout : HistoryLayout E) where
  started : View → Nat
  setStarted : View → Nat → View
  capacity : 0 < layout.capacity ∧ layout.capacity ≤ 255
  type : layout.type.savesBitmap = false
  start : 30253 ≤ layout.dataStart ∧ layout.dataStart + 5000 ≤ 40253
  header : ∀ content : Sector,
    (ofSector content : RingSector E layout.capacity layout.spare).header = ringHeader content
  ring_set : ∀ rb db, layout.ring (layout.setRing rb db) = rb
  ring_journal : ∀ journal db, layout.ring { db with journal := journal } = layout.ring db
  set_set : ∀ first second db,
    layout.setRing second (layout.setRing first db) = layout.setRing second db
  set_ring : ∀ db, layout.setRing (layout.ring db) db = db
  set_journal : ∀ rb journal db, layout.setRing rb { db with journal := journal } =
    { layout.setRing rb db with journal := journal }
  set_bitmap : ∀ rb db, (layout.setRing rb db).usageBitmap = db.usageBitmap
  started_set : ∀ view count, started (setStarted view count) = count
  set_started : ∀ view, setStarted view (started view) = view
  set_started_set : ∀ view first second,
    setStarted (setStarted view first) second = setStarted view second
  contact : ∀ view count, (setStarted view count).contact = view.contact
  sector : ∀ view count, (setStarted view count).sector = view.sector
  holds : ∀ card view, RingsHold card view →
    RingHolds layout.capacity (started view) fun index => card (ringRaw layout index)
  update : ∀ card other view count, RingsHold card view →
    (∀ target, target < ringRaw layout 0 ∨ ringRaw layout 5000 ≤ target →
      other target = card target) →
    RingHolds layout.capacity count (fun index => other (ringRaw layout index)) →
    RingsHold other (setStarted view count)

theorem call_ring_behind (index : Nat) : ringRaw messageHistoryLayout 5000 ≤ callHistRaw index := by
  simp [ringRaw, messageHistoryLayout, callHistRaw]

theorem message_ring_before {index : Nat} (bound : index < 5000) :
    messageHistRaw index < ringRaw callHistoryLayout 0 := by
  simp [ringRaw, callHistoryLayout, messageHistRaw]
  omega

def messageHistoryFrame : messageHistoryLayout.Frame where
  started view := view.messageRing
  setStarted view count := { view with messageRing := count }
  capacity := by decide
  type := rfl
  start := by decide
  header _ := rfl
  ring_set _ _ := rfl
  ring_journal _ _ := rfl
  set_set _ _ _ := rfl
  set_ring _ := rfl
  set_journal _ _ _ := rfl
  set_bitmap _ _ := rfl
  started_set _ _ := rfl
  set_started _ := rfl
  set_started_set _ _ _ := rfl
  contact _ _ := rfl
  sector _ _ := rfl
  holds _ _ rings := rings.messages
  update card other view count rings same ring :=
    { messages := ring
      calls := rings.calls.congr fun index _ => same _ (Or.inr (call_ring_behind index)) }

def callHistoryFrame : callHistoryLayout.Frame where
  started view := view.callRing
  setStarted view count := { view with callRing := count }
  capacity := by decide
  type := rfl
  start := by decide
  header _ := rfl
  ring_set _ _ := rfl
  ring_journal _ _ := rfl
  set_set _ _ _ := rfl
  set_ring _ := rfl
  set_journal _ _ _ := rfl
  set_bitmap _ _ := rfl
  started_set _ _ := rfl
  set_started _ := rfl
  set_started_set _ _ _ := rfl
  contact _ _ := rfl
  sector _ _ := rfl
  holds _ _ rings := rings.calls
  update card other view count rings same ring :=
    { calls := ring
      messages := rings.messages.congr fun _ bound =>
        same _ (Or.inl (message_ring_before bound)) }

end Layout

section Sectors

variable {E : Type} {layout : HistoryLayout E} {db : Database} {card : Card Sector}

theorem history_raw {index : Nat} (region : ringRaw layout index < 65536) :
    u16 (index + layout.dataStart + dataRegionStartSector) = ringRaw layout index ∧
      u16 (ringRaw layout index) = ringRaw layout index := by
  have place : index + layout.dataStart + dataRegionStartSector = ringRaw layout index := by
    simp [ringRaw]
    omega
  rw [place]
  exact ⟨u16_of_lt region, u16_of_lt region⟩

theorem out_readHistorySector {index : Nat} (region : ringRaw layout index < 65536)
    (valid : sectorCrcValid (card (ringRaw layout index)) = true) (db : Database) :
    out (readHistorySector layout index) db card =
      ((.ok (card (ringRaw layout index)), db), []) := by
  obtain ⟨raw, narrow⟩ := history_raw region
  rw [readHistorySector, raw, out_readSector, narrow, if_pos valid]

theorem out_writeHistorySector {index : Nat} (region : ringRaw layout index < 65536)
    (db : Database) (card : Card Sector)
    (sector : RingSector E layout.capacity layout.spare) :
    out (writeHistorySector layout index sector) db card =
      ((.strgOk, db), [(ringRaw layout index, sectorCrcStamp (toSector sector))]) := by
  obtain ⟨raw, narrow⟩ := history_raw region
  rw [writeHistorySector, raw, out_writeSector, narrow]

theorem out_commitHistory {rb : RingBuffer} (known : layout.ring db = rb)
    (region : ringRaw layout rb.currentIndex < 65536)
    (sector : RingSector E layout.capacity layout.spare) :
    out (commitHistory layout sector) db card =
      ((.strgOk, { db with journal := db.journal.committed }),
        [(ringRaw layout rb.currentIndex, sectorCrcStamp (toSector sector)),
          (jrnlHeaderSector, sectorCrcStamp (toSector db.journal.committed))]) := by
  rw [commitHistory, out_bind_of (out_get _ _), known]
  change ((out (writeHistorySector layout rb.currentIndex sector >>= _) db card).1,
    [] ++ (out (writeHistorySector layout rb.currentIndex sector >>= _) db card).2) = _
  rw [out_bind_of (out_writeHistorySector region db card sector)]
  rfl

end Sectors

section Changes

variable {E : Type}

/-- The sector of a history with a new header and an entry at its head. -/
def storedSector (layout : HistoryLayout E) (content : Sector) (header : RingBufferHeader)
    (entry : E) : Sector :=
  let sector : RingSector E layout.capacity layout.spare := ofSector content
  sectorCrcStamp (toSector
    { sector with
      header := header
      entries := arraySet sector.entries header.head.toNat entry })

def fullSector (layout : HistoryLayout E) (content : Sector) : Sector :=
  let sector : RingSector E layout.capacity layout.spare := ofSector content
  sectorCrcStamp (toSector { sector with header := { sector.header with state := rbFull } })

/-- The writes that replace one sector of a history. -/
def replaceLog (layout : HistoryLayout E) (bitmap : UsageBitmap) (card : Card Sector)
    (index : Nat) (content : Sector) : WriteLog Sector :=
  transactionLog layout.type (layout.dataStart + index) (card (ringRaw layout index)) bitmap
    [(ringRaw layout index, content)] 1

end Changes

section Runs

variable {E : Type} {layout : HistoryLayout E} (frame : layout.Frame) {db : Database}
  {card : Card Sector} {view : View}

include frame

theorem ring_raw_bounds {index : Nat} (bound : index < 5000) :
    30265 ≤ ringRaw layout index ∧ ringRaw layout index < 40265 := by
  have start := frame.start
  simp only [ringRaw]
  omega

theorem out_openRing :
    out (openRing layout) db card =
      ((PUnit.unit, layout.setRing (openedRing (layout.ring db)) db), []) := by
  unfold openRing openedRing
  rw [out_bind_of (out_get _ _)]
  by_cases none_ : (layout.ring db).occupancy = 0
  · rw [if_pos none_, if_pos none_]
    rfl
  · rw [if_neg none_, if_neg none_, frame.set_ring]
    rfl

theorem out_historyAddLoop {rb : RingBuffer} (opened : openedRing (layout.ring db) = rb)
    (region : ringRaw layout rb.currentIndex < 65536)
    (valid : sectorCrcValid (card (ringRaw layout rb.currentIndex)) = true) (entry : E)
    (fuel : Nat) :
    let content := card (ringRaw layout rb.currentIndex)
    let sector : RingSector E layout.capacity layout.spare := ofSector content
    let saved := journalAddLog layout.type (layout.dataStart + rb.currentIndex) content
      db.usageBitmap
    let rest := out (match historyStep layout.capacity rb sector.header with
      | .invalid => return .strgFail
      | .store header =>
          commitHistory layout
            { sector with
              header := header
              entries := arraySet sector.entries header.head.toNat entry }
      | .moveNext => do
          let ret ← commitHistory layout
            { sector with header := { sector.header with state := rbFull } }
          if ret ≠ .strgOk then
            return ret
          modifyRing layout addRingBuffer
          modifyRing layout moveNextRingBuffer
          modifyRing layout incSeqRingBuffer
          historyAddLoop layout entry fuel)
      { layout.setRing rb db with
        journal := journalDataInit layout.type (layout.dataStart + rb.currentIndex) }
      (applyWrites saved card)
    out (historyAddLoop layout entry (fuel + 1)) db card = (rest.1, saved ++ rest.2) := by
  intro content sector saved rest
  have below : layout.dataStart + rb.currentIndex < 65536 := by
    unfold ringRaw at region
    omega
  have saves : journalAddLog layout.type (layout.dataStart + rb.currentIndex) content
      (layout.setRing rb db).usageBitmap = saved := by rw [frame.set_bitmap]
  have added : out (journalAdd layout.type (layout.dataStart + rb.currentIndex)
      (card (ringRaw layout rb.currentIndex))) (layout.setRing rb db) card =
      ((true, { layout.setRing rb db with
        journal := journalDataInit layout.type (layout.dataStart + rb.currentIndex) }),
        saved) := by
    rw [out_journalAdd _ _ layout.type _ below, if_neg (by rw [frame.type]; decide), saves]
  rw [historyAddLoop, out_bind_of (out_openRing frame), opened, out_bind_of (out_get _ _)]
  simp only [frame.ring_set, apply_writes_nil, List.nil_append]
  rw [out_bind_of (out_readHistorySector region valid _)]
  dsimp only [apply_writes_nil]
  rw [out_bind_of added]
  rfl

/-- Replacing a ring sector leads to the same view but for the count of the ring. -/
theorem history_change_leads (idle : JournalIdle card) {bitmap : UsageBitmap}
    (holds : Holds bitmap card view) {index started : Nat} (bound : index < 5000)
    {content : Sector}
    (ring : RingHolds layout.capacity started
      (Function.update (fun index => card (ringRaw layout index)) index content)) :
    Leads card
      (transactionLog layout.type (layout.dataStart + index) (card (ringRaw layout index)) bitmap
        [(ringRaw layout index, content)] 1)
      bitmap (frame.setStarted view started)
      fun _ seen => seen = view ∨ seen = frame.setStarted view started := by
  have start := frame.start
  obtain ⟨low, high⟩ := ring_raw_bounds frame bound
  have kept : layout.type ≠ .remove := by
    intro remove
    have saves := frame.type
    rw [remove] at saves
    cases saves
  have raw : layout.dataStart + index + dataRegionStartSector = ringRaw layout index := by
    simp [ringRaw]
    omega
  have stored := (frame.holds card view holds.rings).valid index bound
  have others : ∀ target, target ≠ ringRaw layout index →
      applyWrites [(ringRaw layout index, content)] card target = card target :=
    fun target other => Function.update_of_ne other _ _
  refine (transaction_leads idle holds ?_ ?_ Nat.zero_lt_one
    (holds.rolled_back_stored ?_ ?_ fun _ => stored) ?_).mono fun _ _ => at_commit_seen
  · rw [raw]
    omega
  · intro entry member
    left
    rw [List.eq_of_mem_singleton member]
    exact ⟨kept, raw.symm⟩
  · intro saves
    rw [frame.type] at saves
    cases saves
  · intro _
    rw [raw]
  · exact
      { superheader := by
          rw [others _ (by simp; omega)]
          exact holds.superheader
        bits := holds.bits.congr fun target _ below => others target (by omega)
        contacts := by
          rw [frame.contact]
          exact holds.contacts.congr (fun _ _ => rfl) fun physSector inside _ =>
            others _ (by
              simp at inside
              simp only [contactRaw]
              omega)
        messages := by
          rw [frame.sector]
          exact holds.messages.congr (fun _ _ => rfl) fun position given =>
            others _ (by
              have inside := holds.messages.bound position given
              simp at inside
              simp only [messageRaw]
              omega)
        rings := by
          refine frame.update card _ view started holds.rings ?_ (ring.congr ?_)
          · intro target outside
            simp only [ringRaw] at outside
            exact others target (by simp only [ringRaw]; omega)
          · intro other _
            by_cases same : other = index
            · rw [same, Function.update_self]
              exact Function.update_self _ _ _
            · rw [Function.update_of_ne same]
              exact others _ (by simp only [ringRaw]; omega) }

theorem ring_header_to_sector (sector : RingSector E layout.capacity layout.spare) :
    ringHeader (sectorCrcStamp (toSector sector)) = sector.header := by
  rw [← frame.header, of_sector_stamp, of_to_sector]

theorem stored_header (content : Sector) (header : RingBufferHeader) (entry : E) :
    ringHeader (storedSector layout content header entry) = header :=
  ring_header_to_sector frame _

theorem full_header (content : Sector) : ringHeader (fullSector layout content) =
    { ringHeader content with state := rbFull } := by
  rw [← frame.header content]
  exact ring_header_to_sector frame _

theorem out_nextRing (rest : DbM StrgRet) :
    out (do
      modifyRing layout addRingBuffer
      modifyRing layout moveNextRingBuffer
      modifyRing layout incSeqRingBuffer
      rest) db card = out rest (layout.setRing (nextRing (layout.ring db)) db) card := by
  simp only [modifyRing, out_bind, out_modify, apply_writes_nil, List.nil_append, frame.ring_set,
    frame.set_set]
  rfl

theorem out_history_store {rb : RingBuffer} (opened : openedRing (layout.ring db) = rb)
    (region : ringRaw layout rb.currentIndex < 65536)
    (valid : sectorCrcValid (card (ringRaw layout rb.currentIndex)) = true)
    {header : RingBufferHeader}
    (step : historyStep layout.capacity rb
      (ringHeader (card (ringRaw layout rb.currentIndex))) = .store header) (entry : E)
    (fuel : Nat) :
    out (historyAddLoop layout entry (fuel + 1)) db card =
      ((.strgOk, { layout.setRing rb db with
        journal := (journalDataInit layout.type (layout.dataStart + rb.currentIndex)).committed }),
        replaceLog layout db.usageBitmap card rb.currentIndex
          (storedSector layout (card (ringRaw layout rb.currentIndex)) header entry)) := by
  have run := out_historyAddLoop frame opened region valid entry fuel
  dsimp only at run
  rw [← frame.header (card (ringRaw layout rb.currentIndex))] at step
  rw [step] at run
  dsimp only at run
  rw [@out_commitHistory _ _ _ _ rb (by rw [frame.ring_journal, frame.ring_set]) region] at run
  exact run

/-- An add that finds the sector at its end: it is marked full and the entry goes
into the next one. -/
theorem out_history_next {rb : RingBuffer} (opened : openedRing (layout.ring db) = rb)
    (region : ringRaw layout rb.currentIndex < 65536)
    (valid : sectorCrcValid (card (ringRaw layout rb.currentIndex)) = true)
    (step : historyStep layout.capacity rb
      (ringHeader (card (ringRaw layout rb.currentIndex))) = .moveNext) (entry : E) (fuel : Nat) :
    let marking := replaceLog layout db.usageBitmap card rb.currentIndex
      (fullSector layout (card (ringRaw layout rb.currentIndex)))
    let rest := out (historyAddLoop layout entry fuel)
      { layout.setRing (nextRing rb) db with
        journal := (journalDataInit layout.type (layout.dataStart + rb.currentIndex)).committed }
      (applyWrites marking card)
    out (historyAddLoop layout entry (fuel + 1)) db card = (rest.1, marking ++ rest.2) := by
  intro marking rest
  have run := out_historyAddLoop frame opened region valid entry fuel
  dsimp only at run
  rw [← frame.header (card (ringRaw layout rb.currentIndex))] at step
  rw [step] at run
  dsimp only at run
  rw [out_bind_of (@out_commitHistory _ _ _ _ rb
    (by rw [frame.ring_journal, frame.ring_set]) region _)] at run
  simp only [ne_eq, not_true_eq_false, if_false] at run
  rw [out_nextRing frame, frame.ring_journal, frame.ring_set, frame.set_journal, frame.set_set,
    frame.set_journal, ← apply_writes_append, ← List.append_assoc] at run
  exact run

theorem history_store_run (idle : JournalIdle card) (holds : Holds db.usageBitmap card view)
    {current : Nat} (opened : openedRing (layout.ring db) = ringPosition current) (entry : E)
    (fuel : Nat) {header : RingBufferHeader}
    (step : historyStep layout.capacity (ringPosition current)
      (ringHeader (card (ringRaw layout ((current - 1) % 5000)))) = .store header)
    (ring : ∀ content, sectorCrcValid content = true → ringHeader content = header →
      RingHolds layout.capacity current
        (Function.update (fun index => card (ringRaw layout index)) ((current - 1) % 5000)
          content)) :
    ∃ journal log,
      out (historyAddLoop layout entry (fuel + 1)) db card =
        ((.strgOk, { layout.setRing (ringPosition current) db with journal := journal }), log) ∧
      Leads card log db.usageBitmap (frame.setStarted view current)
        fun _ seen => seen = view ∨ seen = frame.setStarted view current := by
  have bound : (current - 1) % 5000 < 5000 := Nat.mod_lt _ (by decide)
  have region : ringRaw layout (ringPosition current).currentIndex < 65536 := by
    have bounds := ring_raw_bounds frame bound
    exact lt_of_lt_of_le bounds.2 (by decide)
  have run := out_history_store frame opened region
    ((frame.holds card view holds.rings).valid _ bound) step entry fuel
  refine ⟨_, _, run, ?_⟩
  exact history_change_leads frame idle holds bound
    (ring _ (stamp_valid _) (stored_header frame _ _ _))

/-- An add whose entry is the first of the next sector. -/
theorem history_start_run (idle : JournalIdle card) (holds : Holds db.usageBitmap card view)
    {started : Nat} (known : frame.started view = started)
    (opened : openedRing (layout.ring db) = ringPosition (started + 1))
    (full : 0 < started →
      (ringHeader (card (ringRaw layout ((started - 1) % 5000)))).state = rbFull)
    (entry : E) (fuel : Nat) :
    ∃ journal log,
      out (historyAddLoop layout entry (fuel + 1)) db card =
        ((.strgOk, { layout.setRing (ringPosition (started + 1)) db with journal := journal }),
          log) ∧
      Leads card log db.usageBitmap (frame.setStarted view (started + 1))
        fun _ seen => seen = view ∨ seen = frame.setStarted view (started + 1) := by
  have ring := frame.holds card view holds.rings
  rw [known] at ring
  have reusable := ring.reusable full
  refine @history_store_run _ _ frame _ _ _ idle holds _ opened entry fuel
    { ringHeader (card (ringRaw layout (started % 5000))) with
      state := rbOccupied, head := 0#8, seq := BitVec.ofNat 32 started } ?_ ?_
  · rw [Nat.add_sub_cancel, historyStep, if_pos reusable]
    rfl
  · intro content valid header
    rw [Nat.add_sub_cancel]
    refine ring.start full valid (by rw [header]) (Or.inr ?_)
    rw [header]
    exact ⟨rfl, frame.capacity.1⟩

/-- An add that finds the sector at its end: it is marked full and the entry goes
into the next one. -/
theorem history_next_run (idle : JournalIdle card) (holds : Holds db.usageBitmap card view)
    {before : Nat} (started : frame.started view = before + 1)
    (position : layout.ring db = ringPosition (before + 1)) (entry : E) (fuel : Nat)
    (step : historyStep layout.capacity (ringPosition (before + 1))
      (ringHeader (card (ringRaw layout (before % 5000)))) = .moveNext) :
    ∃ journal log,
      out (historyAddLoop layout entry (fuel + 2)) db card =
        ((.strgOk, { layout.setRing (ringPosition (before + 2)) db with journal := journal }),
          log) ∧
      Leads card log db.usageBitmap (frame.setStarted view (before + 2))
        fun _ seen => seen = view ∨ seen = frame.setStarted view (before + 2) := by
  have bound : before % 5000 < 5000 := Nat.mod_lt _ (by decide)
  have ring := frame.holds card view holds.rings
  rw [started] at ring
  have numbered := ring.numbered (before % 5000) bound (by omega)
  have round := ring_round_current (Nat.succ_pos before)
  rw [Nat.succ_eq_add_one, Nat.add_sub_cancel] at round
  rw [round] at numbered
  have opened : openedRing (layout.ring db) = ringPosition (before + 1) := by
    rw [position, opened_position, Nat.max_eq_left (by omega)]
  have region : ringRaw layout (ringPosition (before + 1)).currentIndex < 65536 := by
    have bounds := ring_raw_bounds frame bound
    exact lt_of_lt_of_le bounds.2 (by decide)
  have run := out_history_next frame opened region (ring.valid _ bound) step entry (fuel + 1)
  dsimp only at run
  rw [next_position, show (ringPosition (before + 1)).currentIndex = before % 5000 from rfl] at run
  generalize content : fullSector layout (card (ringRaw layout (before % 5000))) = marked at run
  have markedHeader : ringHeader marked =
      { ringHeader (card (ringRaw layout (before % 5000))) with state := rbFull } := by
    rw [← content, full_header frame]
  have fullRing : RingHolds layout.capacity (before + 1)
      (Function.update (fun index => card (ringRaw layout index)) (before % 5000) marked) := by
    refine ring.rewrite (Nat.succ_pos before) ?_ ?_ ?_
    · rw [← content, fullSector, stamp_valid]
    · rw [markedHeader]
      exact numbered
    · rw [markedHeader]
      exact Or.inl rfl
  have first := @history_change_leads _ _ frame _ _ idle db.usageBitmap holds _ _ bound _ fullRing
  rw [← started, frame.set_started, ← replaceLog] at first
  -- the sector just marked is the last one, so the next one can be started
  have marked_ : applyWrites (replaceLog layout db.usageBitmap card (before % 5000) marked) card
      (ringRaw layout (before % 5000)) = marked := by
    have above := ring_raw_bounds frame bound
    rw [replaceLog, (transaction_final layout.type _ _ db.usageBitmap _ card Nat.zero_lt_one).2 _
      (Or.inr (by omega))]
    exact Function.update_self _ _ _
  obtain ⟨journal, log, lastRun, second⟩ := @history_start_run _ _ frame
    { layout.setRing (ringPosition (before + 2)) db with
      journal := (journalDataInit layout.type (layout.dataStart + before % 5000)).committed }
    _ _ first.idle (by rw [frame.set_bitmap]; exact first.holds) _ started
    (by rw [frame.ring_journal, frame.ring_set, opened_position, Nat.max_eq_left (by omega)])
    (fun _ => by rw [Nat.add_sub_cancel, marked_, markedHeader]) entry fuel
  rw [frame.set_bitmap] at second
  rw [frame.set_journal _ (journalDataInit layout.type (layout.dataStart + before % 5000)).committed
    (layout.setRing (ringPosition (before + 2)) db), frame.set_set] at lastRun
  rw [lastRun] at run
  exact ⟨journal, _, run,
    (first.mono fun _ _ same => Or.inl (same.elim id id)).append_seen second⟩

omit frame in
theorem out_historyAdd (entry : E) : out (historyAdd layout entry) db card =
    out (historyAddLoop layout entry ((layout.ring db).size + 2)) db card := by
  rw [historyAdd, out_bind_of (out_get _ _)]
  simp only [apply_writes_nil, List.nil_append]

theorem history_add_loop_run (idle : JournalIdle card) (holds : Holds db.usageBitmap card view)
    (position : layout.ring db = ringPosition (frame.started view)) (entry : E) (fuel : Nat) :
    ∃ started journal log, 0 < started ∧
      out (historyAddLoop layout entry (fuel + 2)) db card =
        ((.strgOk, { layout.setRing (ringPosition started) db with journal := journal }), log) ∧
      Leads card log db.usageBitmap (frame.setStarted view started)
        fun _ seen => seen = view ∨ seen = frame.setStarted view started := by
  have ring := frame.holds card view holds.rings
  rcases Nat.eq_zero_or_eq_succ_pred (frame.started view) with none_ | some_
  · have opened : openedRing (layout.ring db) = ringPosition (0 + 1) := by
      rw [position, none_, opened_position]
      rfl
    obtain ⟨journal, log, run, leads⟩ := history_start_run frame idle holds none_ opened
      (fun above => absurd above (lt_irrefl 0)) entry (fuel + 1)
    exact ⟨_, journal, log, Nat.succ_pos _, run, leads⟩
  · generalize (frame.started view).pred = before at some_
    rw [some_, Nat.succ_eq_add_one] at ring position
    have opened : openedRing (layout.ring db) = ringPosition (before + 1) := by
      rw [position, opened_position, Nat.max_eq_left (by omega)]
    have bound : before % 5000 < 5000 := Nat.mod_lt _ (by decide)
    have numbered := ring.numbered (before % 5000) bound (by omega)
    have round := ring_round_current (Nat.succ_pos before)
    rw [Nat.succ_eq_add_one, Nat.add_sub_cancel] at round
    rw [round] at numbered
    have open_ := ring.current (Nat.succ_pos before)
    simp only [Nat.add_sub_cancel] at open_
    have capacity := frame.capacity
    rcases open_ with full | ⟨occupied, room⟩
    · obtain ⟨journal, log, run, leads⟩ := @history_store_run _ _ frame _ _ _ idle holds _
        opened entry (fuel + 1) { ringHeader (card (ringRaw layout (before % 5000))) with
          state := rbOccupied, head := 0#8, seq := BitVec.ofNat 32 before }
        (by rw [Nat.add_sub_cancel, historyStep, if_pos (Or.inr full)]; rfl)
        (fun content valid header => ring.rewrite (Nat.succ_pos before) valid (by rw [header]; rfl)
          (Or.inr (by rw [header]; exact ⟨rfl, capacity.1⟩)))
      exact ⟨_, journal, log, Nat.succ_pos _, run, leads⟩
    · have other : ¬((ringHeader (card (ringRaw layout (before % 5000)))).state = rbEmpty ∨
          (ringHeader (card (ringRaw layout (before % 5000)))).state = rbFull) := by
        rw [occupied]
        decide
      by_cases last : (ringHeader (card (ringRaw layout (before % 5000)))).head.toNat =
          layout.capacity - 1
      · obtain ⟨journal, log, run, leads⟩ := history_next_run frame idle holds some_ position entry
          fuel (by rw [historyStep, if_neg other, if_pos occupied, if_pos last])
        exact ⟨_, journal, log, Nat.succ_pos _, run, leads⟩
      · obtain ⟨journal, log, run, leads⟩ := @history_store_run _ _ frame _ _ _ idle holds _
          opened entry (fuel + 1) { ringHeader (card (ringRaw layout (before % 5000))) with
            head := (ringHeader (card (ringRaw layout (before % 5000)))).head + 1#8 }
          (by rw [Nat.add_sub_cancel, historyStep, if_neg other, if_pos occupied, if_neg last])
          (fun content valid header => ring.rewrite (Nat.succ_pos before) valid
            (by rw [header]; exact numbered)
            (Or.inr (by
              rw [header]
              refine ⟨occupied, ?_⟩
              rw [BitVec.toNat_add, BitVec.toNat_ofNat]
              omega)))
        exact ⟨_, journal, log, Nat.succ_pos _, run, leads⟩

/-- Adding an entry succeeds, leaves a history that was started, and everything but the
history alone. -/
theorem history_add_run (idle : JournalIdle card) (holds : Holds db.usageBitmap card view)
    (position : layout.ring db = ringPosition (frame.started view)) (entry : E) :
    ∃ started journal log, 0 < started ∧
      out (historyAdd layout entry) db card =
        ((.strgOk, { layout.setRing (ringPosition started) db with journal := journal }), log) ∧
      Leads card log db.usageBitmap (frame.setStarted view started)
        fun _ seen => seen = view ∨ seen = frame.setStarted view started := by
  obtain ⟨started, journal, log, some_, run, leads⟩ :=
    history_add_loop_run frame idle holds position entry (layout.ring db).size
  exact ⟨started, journal, log, some_, (out_historyAdd entry).trans run, leads⟩

/-- The first writes of an add save the current sector. -/
theorem history_add_saves (holds : Holds db.usageBitmap card view)
    (position : layout.ring db = ringPosition (frame.started view)) (entry : E) :
    ∃ index content rest, (out (historyAdd layout entry) db card).2 =
      journalAddLog layout.type (layout.dataStart + index) content db.usageBitmap ++ rest := by
  have opened : openedRing (layout.ring db) = ringPosition (max (frame.started view) 1) := by
    rw [position, opened_position]
  have bound : (max (frame.started view) 1 - 1) % 5000 < 5000 := Nat.mod_lt _ (by decide)
  have bounds := ring_raw_bounds frame bound
  have start := out_historyAddLoop frame opened (lt_of_lt_of_le bounds.2 (by decide))
    ((frame.holds card view holds.rings).valid _ bound) entry ((layout.ring db).size + 1)
  exact ⟨_, _, _, (congrArg Prod.snd (out_historyAdd entry)).trans (congrArg Prod.snd start)⟩

end Runs

end SdDatabase
