import SdDatabase.Shown
import SdDatabase.SuperheaderDamage

/-!
# Power cuts in a format

A format clears the bitmap and the histories one sector after the other and writes
the superheader last, over whatever the card held. A cut leaves the first of these
blocks cleared and the others as they were.
-/

namespace SdDatabase

open Bytes Device

set_option autoImplicit false

/-- The card left by a power cut after `count` writes of a format. -/
def Machine.formatCut (machine : Machine) (count : Nat) : Card Sector :=
  cutCard databaseFormat machine.db count machine.card

theorem format_cut_eq (machine : Machine) (count : Nat) :
    machine.formatCut count = applyWrites (formatLog.take count) machine.card := by
  rw [Machine.formatCut, cut_card_eq, out_databaseFormat]

theorem bitmap_blocks_take (bitmap : UsageBitmap) (count : Nat) (card : Card Sector)
    (index : Nat) : applyWrites ((bitmapBlocks bitmap).take count) card index =
      if 4 ≤ index ∧ index < 4 + min count 8 then bitmapSector bitmap (index - 4)
      else card index := by
  rw [bitmapBlocks, ← List.map_take, List.take_range]
  exact apply_writes_range 4 (min count 8) _ card index

theorem ring_blocks_take (rawStart size count : Nat) (card : Card Sector) (index : Nat) :
    applyWrites ((ringBlocks rawStart size).take count) card index =
      if rawStart ≤ index ∧ index < rawStart + min count size then blankRingBlock
      else card index := by
  rw [ringBlocks, ← List.map_take, List.take_range]
  exact apply_writes_range rawStart (min count size) _ card index

theorem format_cut_apply (machine : Machine) (count index : Nat) :
    machine.formatCut (count + 1) index =
      if index = superheaderSector ∧ 10009 ≤ count then
        sectorCrcStamp (toSector formattedSuperheader)
      else if 35265 ≤ index ∧ index < 35265 + min (count - 5008) 5000 then blankRingBlock
      else if 30265 ≤ index ∧ index < 30265 + min (count - 8) 5000 then blankRingBlock
      else if 4 ≤ index ∧ index < 4 + min count 8 then bitmapSector formatBitmap (index - 4)
      else if index = jrnlHeaderSector then emptyHeaderBlock
      else machine.card index := by
  have bitmapLength : (bitmapBlocks formatBitmap).length = 8 := by
    rw [bitmapBlocks, List.length_map, List.length_range]
    rfl
  have ringLength : ∀ start, (ringBlocks start 5000).length = 5000 := by
    intro start
    rw [ringBlocks, List.length_map, List.length_range]
  have superBlock : ∀ card : Card Sector, applyWrites
      ([(superheaderSector, sectorCrcStamp (toSector formattedSuperheader))].take
        (count - 8 - 5000 - 5000)) card index =
        if index = superheaderSector ∧ 10009 ≤ count then
          sectorCrcStamp (toSector formattedSuperheader)
        else card index := by
    intro card
    by_cases all : 10009 ≤ count
    · rw [List.take_of_length_le (by rw [List.length_singleton]; omega), apply_writes_cons,
        apply_writes_nil, Function.update_apply]
      by_cases super : index = superheaderSector
      · rw [if_pos super, if_pos ⟨super, all⟩]
      · rw [if_neg super, if_neg fun both => super both.1]
    · have none_ : count - 8 - 5000 - 5000 = 0 := by omega
      rw [none_, List.take_zero, apply_writes_nil, if_neg fun both => all both.2]
  have whole : formatLog = (jrnlHeaderSector, emptyHeaderBlock) :: (bitmapBlocks formatBitmap ++
      (ringBlocks 30265 5000 ++ (ringBlocks 35265 5000 ++
        [(superheaderSector, sectorCrcStamp (toSector formattedSuperheader))]))) := by
    simp [formatLog, formatBody]
  have calls : count - 8 - 5000 = count - 5008 := by omega
  rw [format_cut_eq, whole, List.take_succ_cons, apply_writes_cons, List.take_append,
    apply_writes_append, List.take_append, apply_writes_append, List.take_append,
    apply_writes_append, bitmapLength, ringLength, ringLength, superBlock, ring_blocks_take,
    ring_blocks_take, bitmap_blocks_take, Function.update_apply, calls]

section Cut

variable {machine : Machine} {view : View} {chain : Nat → List Nat} {listing : Listing}

theorem format_cut_idle (machine : Machine) (count : Nat) :
    JournalIdle (machine.formatCut (count + 1)) := by
  rw [JournalIdle, format_cut_apply, if_neg (by simp), if_neg (by simp), if_neg (by simp),
    if_neg (by simp), if_pos rfl]
  exact empty_header_idle

theorem format_cut_data (machine : Machine) (count : Nat) {raw : Nat} (above : 12 ≤ raw)
    (below : raw < 30265) : machine.formatCut (count + 1) raw = machine.card raw := by
  have header : jrnlHeaderSector = 1 := rfl
  have super : superheaderSector = 0 := rfl
  rw [format_cut_apply, if_neg (by omega), if_neg (by omega), if_neg (by omega),
    if_neg (by omega), if_neg (by omega)]

theorem format_cut_bitmap (machine : Machine) (count : Nat) {sector : Nat}
    (bound : sector < usageBitmapSectorSize) :
    machine.formatCut (count + 1) (usageBitmapStartSector + sector) =
      if sector < count then bitmapSector formatBitmap sector
      else machine.card (usageBitmapStartSector + sector) := by
  have range : sector < 8 := bound
  have place : usageBitmapStartSector + sector = 4 + sector := rfl
  have header : jrnlHeaderSector = 1 := rfl
  have super : superheaderSector = 0 := rfl
  rw [place, format_cut_apply, if_neg (by omega), if_neg (by omega), if_neg (by omega)]
  by_cases cleared : sector < count
  · rw [if_pos (by omega), if_pos cleared, Nat.add_sub_cancel_left]
  · rw [if_neg (by omega), if_neg cleared, if_neg (by omega)]

theorem format_cut_messages (machine : Machine) (count : Nat) {index : Nat}
    (bound : index < 5000) :
    machine.formatCut (count + 1) (messageHistRaw index) =
      if index < count - 8 then blankRingBlock else machine.card (messageHistRaw index) := by
  have header : jrnlHeaderSector = 1 := rfl
  have super : superheaderSector = 0 := rfl
  rw [messageHistRaw, format_cut_apply, if_neg (by omega), if_neg (by omega)]
  by_cases cleared : index < count - 8
  · rw [if_pos (by omega), if_pos cleared]
  · rw [if_neg (by omega), if_neg cleared, if_neg (by omega), if_neg (by omega)]

theorem format_cut_calls (machine : Machine) (count : Nat) {index : Nat} (bound : index < 5000) :
    machine.formatCut (count + 1) (callHistRaw index) =
      if index < count - 5008 then blankRingBlock else machine.card (callHistRaw index) := by
  have header : jrnlHeaderSector = 1 := rfl
  have super : superheaderSector = 0 := rfl
  rw [callHistRaw, format_cut_apply, if_neg (by omega)]
  by_cases cleared : index < count - 5008
  · rw [if_pos (by omega), if_pos cleared]
  · rw [if_neg (by omega), if_neg cleared, if_neg (by omega), if_neg (by omega),
      if_neg (by omega)]

theorem format_cut_superheader (machine : Machine) (count : Nat) :
    machine.formatCut (count + 1) superheaderSector =
      if 10009 ≤ count then sectorCrcStamp (toSector formattedSuperheader)
      else machine.card superheaderSector := by
  rw [format_cut_apply]
  by_cases all : 10009 ≤ count
  · rw [if_pos ⟨rfl, all⟩, if_pos all]
  · rw [if_neg fun both => all both.2, if_neg all, if_neg (by simp), if_neg (by simp),
      if_neg (by simp), if_neg (by simp)]

theorem format_cut_bit (mounted : Mounted machine.db machine.card view chain listing)
    (count : Nat) (bitmap : UsageBitmap) {dataSector : Nat}
    (region : dataSector < usageBitmapSectorSize * usageBitsPerSector) :
    usageBit (loadedBitmap (machine.formatCut (count + 1)) (List.range usageBitmapSectorSize)
        bitmap) dataSector =
      if dataSector / 4064 < count then false else usageBit machine.db.usageBitmap dataSector := by
  have bound : dataSector / 4064 < usageBitmapSectorSize := by
    simp at region ⊢
    omega
  have stored := loaded_sector (machine.formatCut (count + 1)) (List.range usageBitmapSectorSize)
    bitmap (Or.inl (List.mem_range.mpr bound))
  rw [format_cut_bitmap machine count bound] at stored
  by_cases cleared : dataSector / 4064 < count
  · rw [if_pos cleared] at stored ⊢
    rw [usage_bit_sector stored, format_bitmap_bit]
  · rw [if_neg cleared] at stored ⊢
    rw [mounted.core.holds.bits.mirror _ bound] at stored
    exact usage_bit_sector stored

theorem PrevChain.prev_of {sector : Nat → Option MessageSector} {start : Nat}
    {sectors : List Nat} (linked : PrevChain sector start sectors) {index : Nat}
    (member : index ∈ sectors) {mSector : MessageSector} (found : sector index = some mSector) :
    mSector.header.prev.toNat = uint16Max ∨ sector mSector.header.prev.toNat ≠ none := by
  induction sectors generalizing start with
  | nil => cases member
  | cons head rest ih =>
      obtain ⟨rfl, known, knownFound, older⟩ := linked
      rcases List.mem_cons.mp member with rfl | inRest
      · obtain rfl : known = mSector := Option.some_injective _ (knownFound.symm.trans found)
        cases rest with
        | nil => exact Or.inl older
        | cons next others =>
            obtain ⟨same, _, nextFound, _⟩ := older
            right
            rw [same, nextFound]
            exact Option.some_ne_none _
      · exact ih older inRest

/-- With the first sector of the bitmap cleared no contact is left, and what is left of
the chats are sectors of the old ones. -/
theorem format_cut_stray (mounted : Mounted machine.db machine.card view chain listing)
    (tidy : Tidy view chain) {count : Nat} (cleared : 1 ≤ count) (bitmap : UsageBitmap) :
    Stray (loadedBitmap (machine.formatCut (count + 1)) (List.range usageBitmapSectorSize) bitmap)
      (machine.formatCut (count + 1)) := by
  have known : ∀ index ∈ usedMessages (loadedBitmap (machine.formatCut (count + 1))
      (List.range usageBitmapSectorSize) bitmap), ∃ mSector,
        view.sector index = some mSector ∧
        ofSector (machine.formatCut (count + 1) (messageRaw index)) = mSector := by
    intro index member
    obtain ⟨inside, used⟩ := mem_used_messages.mp member
    rw [format_cut_bit mounted count bitmap (by simp at inside ⊢; omega)] at used
    have bit : usageBit machine.db.usageBitmap (messageDataSector index) = true := by
      split at used
      · cases used
      · exact used
    rw [mounted.core.holds.messages.used index inside] at bit
    obtain ⟨mSector, found⟩ := Option.isSome_iff_exists.mp bit
    refine ⟨mSector, found, ?_⟩
    rw [format_cut_data machine count (by simp [messageRaw]; omega)
      (by simp [messageRaw] at inside ⊢; omega)]
    exact (mounted.core.holds.messages.sectors index mSector found).2
  constructor
  · intro physSector inside
    have low : physSector < 4064 := by
      simp at inside
      omega
    rw [format_cut_bit mounted count bitmap (by simp; omega),
      if_pos (by rw [Nat.div_eq_of_lt low]; omega)]
  · intro index member
    obtain ⟨mSector, found, content⟩ := known index member
    rw [content]
    apply mounted.core.holds.contacts.bound
    exact mounted.core.chats.contacts _ (List.ne_nil_of_mem (tidy.covered index mSector found))
  · intro index member
    obtain ⟨mSector, found, content⟩ := known index member
    rw [messagePrev, content]
    refine (PrevChain.prev_of (mounted.core.chats.linked _) (tidy.covered index mSector found)
      found).imp_right fun stored => ?_
    exact mounted.core.holds.messages.bound _ stored

end Cut

section CutRing

variable {card : Card Sector} {db : Database} {rawStart : Nat}

/-- A ring whose first sector is blank counts as one that was never started. -/
theorem init_blank_ring (valid : sectorCrcValid (card rawStart) = true)
    (blank : (ringHeader (card rawStart)).state = rbEmpty) (region : rawStart < 65536)
    (rb : RingBuffer) :
    out (initRingBuffer rb 5000 rawStart) db card = ((some (ringPosition 0), db), []) := by
  have single : RingSearchable 1 0 fun index => card (rawStart + index) := by
    refine ⟨fun index bound => ?_, fun index bound => ?_, fun some_ => ?_, fun some_ => ?_⟩
    · rw [Nat.lt_one_iff.mp bound]
      exact valid
    · rw [Nat.lt_one_iff.mp bound]
      exact ⟨fun _ => Nat.le_refl 0, fun _ => blank⟩
    · exact absurd some_ (Nat.lt_irrefl 0)
    · exact absurd some_ (Nat.lt_irrefl 0)
  have first := @out_seqAndStateAt _ _ _ db card _ single (fun _ _ => rfl) (by omega) 0
    Nat.zero_lt_one
  have search : out (binarySearchHead rawStart 5000) db card =
      ((.error .strgEmpty, db), []) := by
    unfold binarySearchHead
    rw [out_bind_of first]
    simp only [Nat.add_zero, blank, if_true]
    rfl
  unfold initRingBuffer
  rw [if_neg (by omega)]
  unfold reconstructRingBuffer
  rw [out_bind_of search]
  rfl

/-- The position of a ring whose first sectors were cleared. -/
theorem init_cut_ring {capacity started cleared : Nat} {before : Nat → Sector}
    (ring : RingHolds capacity started before) (region : rawStart + 5000 ≤ 65536)
    (stored : ∀ index < 5000,
      card (rawStart + index) = if index < cleared then blankRingBlock else before index)
    (rb : RingBuffer) :
    out (initRingBuffer rb 5000 rawStart) db card =
      ((some (ringPosition (if cleared = 0 then started else 0)), db), []) := by
  by_cases none_ : cleared = 0
  · rw [if_pos none_]
    refine out_initRingBuffer ring.searchable (fun index bound => ?_) region (by decide) rb
    rw [stored index bound, none_, if_neg (Nat.not_lt_zero _)]
  · have first := stored 0 (by decide)
    rw [Nat.add_zero, if_pos (Nat.pos_of_ne_zero none_)] at first
    rw [if_neg none_]
    refine init_blank_ring ?_ ?_ (by omega) rb
    · rw [first]
      exact stamp_valid _
    · rw [first, blank_ring_header]
      rfl

end CutRing

section CutMount

variable {machine : Machine} {view : View} {chain : Nat → List Nat} {listing : Listing}

/-- What is left for a start-up when the first sector of the bitmap was cleared. -/
theorem format_cut_bare (mounted : Mounted machine.db machine.card view chain listing)
    (tidy : Tidy view chain) {count : Nat} (cleared : 1 ≤ count) :
    BareCard (machine.formatCut (count + 1))
      (ringPosition (if count - 8 = 0 then view.messageRing else 0))
      (ringPosition (if count - 5008 = 0 then view.callRing else 0)) where
  good := by
    rw [format_cut_superheader]
    split
    · exact formatted_superheader_good
    · exact mounted.core.holds.superheader
  idle := format_cut_idle machine count
  stamped sector bound := by
    rw [format_cut_bitmap machine count bound]
    split
    · exact format_bitmap_valid bound
    · rw [mounted.core.holds.bits.mirror sector bound]
      exact mounted.core.holds.bits.stamped sector bound
  stray bitmap := format_cut_stray mounted tidy cleared bitmap
  messageRing rb db later same := by
    refine init_cut_ring mounted.core.holds.rings.messages (by decide) (fun index bound => ?_) rb
    have kept := same (messageHistRaw index) (by rw [messageHistRaw]; omega)
    rw [format_cut_messages machine count bound] at kept
    exact kept
  callRing rb db later same := by
    refine init_cut_ring mounted.core.holds.rings.calls (by decide) (fun index bound => ?_) rb
    have kept := same (callHistRaw index) (by rw [callHistRaw]; omega)
    rw [format_cut_calls machine count bound] at kept
    exact kept

end CutMount

/-- The first `cleared` sectors of a history were blanked, and its position was searched
anew. -/
structure HistoryCleared {E : Type} (layout : HistoryLayout E) (started cleared : Nat)
    (before after : Machine) : Prop where
  held : HistoryHeld layout started before
  position : layout.ring after.db = ringPosition (if cleared = 0 then started else 0)
  sectors : ∀ index < 5000, after.card (ringRaw layout index) =
    if index < cleared then blankRingBlock else before.card (ringRaw layout index)

section HistoryCleared

variable {E : Type} {layout : HistoryLayout E} (frame : layout.Frame) {started cleared : Nat}
  {before after : Machine}

include frame

theorem HistoryCleared.untouched (cut : HistoryCleared layout started 0 before after) :
    HistoryHeld layout started after ∧ SameHistory layout after before := by
  have bounds := frame.start
  have same : ∀ index < 5000,
      after.card (ringRaw layout index) = before.card (ringRaw layout index) := by
    intro index bound
    rw [cut.sectors index bound, if_neg (Nat.not_lt_zero _)]
  have position := cut.position
  rw [if_pos rfl] at position
  refine ⟨⟨cut.held.ring.congr same, position⟩, fun start n => ?_⟩
  refine Agree.answer (agree_historyGetRange ?_ (fun index bound => (same index bound).symm)
    position cut.held.position start n)
  unfold ringRaw
  omega

theorem HistoryCleared.no_history (cut : HistoryCleared layout started cleared before after)
    (some_ : 0 < cleared) : NoHistory layout after := by
  intro start n
  have first := cut.sectors 0 (by decide)
  rw [if_pos some_] at first
  have position := cut.position
  rw [if_neg (Nat.ne_of_gt some_)] at position
  have valid : sectorCrcValid (after.card (ringRaw layout 0)) = true := by
    rw [first]
    exact stamp_valid _
  have blank : (ringHeader (after.card (ringRaw layout 0))).state = rbEmpty := by
    rw [first, blank_ring_header]
    rfl
  rw [Machine.run_of (blank_history_shown frame position valid blank start n)]

theorem HistoryCleared.no_history_iff (cut : HistoryCleared layout started cleared before after) :
    NoHistory layout after ↔ 0 < cleared ∨ (layout.ring before.db).occupancy = 0 := by
  rw [cut.held.none_iff]
  rcases Nat.eq_zero_or_pos cleared with rfl | some_
  · rw [(cut.untouched frame).1.no_history_iff frame]
    simp
  · exact ⟨fun _ => Or.inl some_, fun _ => cut.no_history frame some_⟩

theorem HistoryCleared.same_iff (cut : HistoryCleared layout started cleared before after) :
    SameHistory layout after before ↔
      cleared = 0 ∨ (layout.ring before.db).occupancy = 0 := by
  rcases Nat.eq_zero_or_pos cleared with rfl | some_
  · exact ⟨fun _ => Or.inl rfl, fun _ => (cut.untouched frame).2⟩
  · have nothing := cut.no_history frame some_
    have turned : SameHistory layout after before ↔ SameHistory layout before after :=
      forall_congr' fun start => forall_congr' fun n => eq_comm
    rw [turned, same_history_iff nothing, cut.held.no_history_iff frame, cut.held.none_iff]
    omega

end HistoryCleared

/-- A card that a start-up formats. -/
def Blank (card : Card Sector) : Prop :=
  getSuperheaderStatus (card superheaderSector) = .uninitialised

/-- A start-up behind the cut finds all that the machine had before, or the database of a
complete format. -/
def FormatCutSafe (machine : Machine) (count : Nat) (memory : Database) : Prop :=
  ∃ rebooted, Machine.restart (machine.formatCut count) memory = (.strgOk, rebooted) ∧
    (ShowsSame rebooted machine ∨ ShowsSame rebooted machine.format)

/-- Nothing was cleared yet, all was, or what was not cleared held nothing beside what was.
The journal header is written first, then come eight sectors of the bitmap, of which the
first has all contacts, and both histories. -/
def FormatCutFits (machine : Machine) (count : Nat) : Prop :=
  count ≤ 1 ∨ 5010 ≤ count ∨
    (count ≤ 9 ∧ (machine.db.htable.numElems = 0 ∨
      (machine.db.messageHistory.occupancy = 0 ∧ machine.db.callHistory.occupancy = 0))) ∨
    (10 ≤ count ∧ (machine.db.callHistory.occupancy = 0 ∨
      (machine.db.htable.numElems = 0 ∧ machine.db.messageHistory.occupancy = 0)))

section FormatCut

variable {machine : Machine} {view : View} {chain : Nat → List Nat} {listing : Listing}

theorem format_no_history (machine : Machine) :
    NoHistory messageHistoryLayout machine.format ∧ NoHistory callHistoryLayout machine.format :=
  ⟨(machine.format_mounts.held_messages.no_history_iff messageHistoryFrame).mpr rfl,
    (machine.format_mounts.held_calls.no_history_iff callHistoryFrame).mpr rfl⟩

/-- A start-up behind a cut in the bitmap or later finds nobody, and of each history all or
nothing. -/
theorem format_cut_restart (mounted : Mounted machine.db machine.card view chain listing)
    (tidy : Tidy view chain) {count : Nat} (cleared : 1 ≤ count) (memory : Database) :
    ∃ rebooted, Machine.restart (machine.formatCut (count + 1)) memory = (.strgOk, rebooted) ∧
      NoPeople rebooted.db ∧
      HistoryCleared messageHistoryLayout view.messageRing (count - 8) machine rebooted ∧
      HistoryCleared callHistoryLayout view.callRing (count - 5008) machine rebooted := by
  obtain ⟨next, log, run, nobody, messages, calls, same⟩ :=
    database_init_bare (format_cut_bare mounted tidy cleared) memory
  refine ⟨⟨next, applyWrites log (machine.formatCut (count + 1))⟩, Machine.run_of run, nobody,
    ⟨mounted.held_messages, messages, fun index bound => ?_⟩,
    ⟨mounted.held_calls, calls, fun index bound => ?_⟩⟩
  · have place : ringRaw messageHistoryLayout index = messageHistRaw index := rfl
    rw [place, ← format_cut_messages machine count bound]
    exact same _ (by rw [messageHistRaw]; omega)
  · have place : ringRaw callHistoryLayout index = callHistRaw index := rfl
    rw [place, ← format_cut_calls machine count bound]
    exact same _ (by rw [callHistRaw]; omega)

theorem format_cut_later_iff (mounted : Mounted machine.db machine.card view chain listing)
    (tidy : Tidy view chain) {count : Nat} (cleared : 1 ≤ count) (memory : Database) :
    FormatCutSafe machine (count + 1) memory ↔ FormatCutFits machine (count + 1) := by
  obtain ⟨rebooted, run, nobody, messages, calls⟩ := format_cut_restart mounted tidy cleared memory
  have safe : FormatCutSafe machine (count + 1) memory ↔
      ShowsSame rebooted machine ∨ ShowsSame rebooted machine.format := by
    constructor
    · rintro ⟨other, same, shows⟩
      obtain rfl : rebooted = other := (Prod.mk.inj (run.symm.trans same)).2
      exact shows
    · exact fun shows => ⟨rebooted, run, shows⟩
  have fresh : machine.format.db.htable.numElems = 0 := by
    rw [machine.format_eq]
    rfl
  obtain ⟨noMessages, noCalls⟩ := format_no_history machine
  rw [safe, nobody_shows_iff nobody mounted, nobody_shows_iff nobody machine.format_mounts,
    messages.same_iff messageHistoryFrame, calls.same_iff callHistoryFrame,
    same_history_iff noMessages, same_history_iff noCalls,
    messages.no_history_iff messageHistoryFrame, calls.no_history_iff callHistoryFrame]
  have ring : messageHistoryLayout.ring machine.db = machine.db.messageHistory := rfl
  have callRing : callHistoryLayout.ring machine.db = machine.db.callHistory := rfl
  rw [ring, callRing]
  unfold FormatCutFits
  omega

theorem format_cut_early (mounted : Mounted machine.db machine.card view chain listing)
    (tidy : Tidy view chain) {count : Nat} (early : count ≤ 1) (memory : Database) :
    FormatCutSafe machine count memory := by
  have idle : JournalIdle (machine.formatCut count) ∧
      SameData (machine.formatCut count) machine.card := by
    rcases Nat.le_one_iff_eq_zero_or_eq_one.mp early with rfl | rfl
    · rw [format_cut_eq, List.take_zero, apply_writes_nil]
      exact ⟨mounted.core.idle, fun _ _ => rfl⟩
    · refine ⟨format_cut_idle machine 0, fun index outside => ?_⟩
      have header : jrnlHeaderSector = 1 := rfl
      rw [format_cut_apply, if_neg (by omega), if_neg (by omega), if_neg (by omega),
        if_neg (by omega), if_neg (by omega)]
  obtain ⟨rebooted, newListing, run, onCard, remounted, _⟩ :=
    restart_spec (Or.inl ⟨idle.1, rfl⟩) ⟨_, mounted.core.holds.same_data idle.2⟩
      (mounted.core.mountable tidy) (.none _) memory
  have sectors : ∀ raw, 4 ≤ raw → rebooted.card raw = machine.card raw := by
    intro raw high
    rw [onCard]
    exact idle.2 raw (Or.inr high)
  have messages : HistoryCleared messageHistoryLayout view.messageRing 0 machine rebooted :=
    ⟨mounted.held_messages, remounted.core.messageRing, fun index _ => by
      rw [if_neg (Nat.not_lt_zero _)]
      exact sectors _ (by unfold ringRaw; omega)⟩
  have calls : HistoryCleared callHistoryLayout view.callRing 0 machine rebooted :=
    ⟨mounted.held_calls, remounted.core.callRing, fun index _ => by
      rw [if_neg (Nat.not_lt_zero _)]
      exact sectors _ (by unfold ringRaw; omega)⟩
  exact ⟨rebooted, run, Or.inl (mounted_shows_same remounted mounted
    (messages.untouched messageHistoryFrame).2 (calls.untouched callHistoryFrame).2)⟩

theorem reachable_format_cut_iff (reachable : Reachable machine) (count : Nat)
    (memory : Database) : FormatCutSafe machine count memory ↔ FormatCutFits machine count := by
  obtain ⟨_, view, chain, listing, mounted, tidy, _⟩ := reachable.sound
  by_cases early : count ≤ 1
  · exact ⟨fun _ => Or.inl early, fun _ => format_cut_early mounted tidy early memory⟩
  · obtain ⟨before, rfl⟩ : ∃ before, count = before + 1 := ⟨count - 1, by omega⟩
    exact format_cut_later_iff mounted tidy (by omega) memory

theorem Reachable.not_blank (reachable : Reachable machine) : ¬Blank machine.card := by
  obtain ⟨_, view, chain, listing, mounted, _⟩ := reachable.sound
  unfold Blank
  rw [mounted.core.holds.superheader]
  decide

theorem format_log_length : formatLog.length = 10010 := by
  rw [formatLog, formatBody, bitmapBlocks, ringBlocks, ringBlocks]
  simp

/-- A start-up on a card that was blank before the cut formats it again, or finds the format
complete. -/
theorem blank_format_cut (blank : Blank machine.card) (count : Nat) (memory : Database) :
    FormatCutSafe machine count memory := by
  by_cases all : 10010 ≤ count
  · have whole : machine.formatCut count = machine.format.card := by
      rw [format_cut_eq, List.take_of_length_le (by rw [format_log_length]; exact all),
        machine.format_eq]
    obtain ⟨rebooted, newListing, run, _, remounted, _⟩ :=
      mounted_restart machine.format_mounts blank_tidy memory
    rw [← whole] at run
    exact ⟨rebooted, run, Or.inr (empty_shows_same remounted machine.format_mounts)⟩
  · have still : Blank (machine.formatCut count) := by
      unfold Blank
      cases count with
      | zero =>
          rw [format_cut_eq, List.take_zero, apply_writes_nil]
          exact blank
      | succ count =>
          rw [format_cut_superheader, if_neg (by omega)]
          exact blank
    obtain ⟨again, againEq⟩ : ∃ again, again = Machine.mk memory (machine.formatCut count) :=
      ⟨_, rfl⟩
    refine ⟨again.format, ?_, Or.inr (empty_shows_same again.format_mounts machine.format_mounts)⟩
    have run := @uninitialised_superheader_formats memory _ still
    rw [Machine.restart, againEq, Machine.format_eq]
    exact Machine.run_of run

end FormatCut

/-- A cut in a format over a blank card or a reachable database leaves all or nothing, if and
only if what was cleared and what was not do not both hold something. -/
theorem format_cut_safe_iff (machine : Machine)
    (given : Blank machine.card ∨ Reachable machine) (count : Nat) (memory : Database) :
    FormatCutSafe machine count memory ↔ Blank machine.card ∨ FormatCutFits machine count := by
  rcases given with blank | reachable
  · exact ⟨fun _ => Or.inl blank, fun _ => blank_format_cut blank count memory⟩
  · rw [reachable_format_cut_iff reachable count memory]
    exact ⟨Or.inr, fun either => either.resolve_left reachable.not_blank⟩

theorem format_cut_safe_iff_example :
    FormatCutSafe exampleChatMachine 2 formattedDatabase ↔
      Blank exampleChatMachine.card ∨ FormatCutFits exampleChatMachine 2 :=
  format_cut_safe_iff exampleChatMachine (Or.inr example_chat_reachable) 2 formattedDatabase

def exampleCalledMachine : Machine :=
  ((exampleMachine.format.run (Call.run (.contactAdd (some exampleText) (some exampleText)))).2.run
    (Call.run (.callAdd (some exampleText)))).2

theorem example_called_reachable : Reachable exampleCalledMachine := by
  refine .called (.called (.formatted exampleMachine) _ ?_) _ ?_ <;>
  · rintro ⟨asks, _⟩
    cases asks

theorem example_called_counts : exampleCalledMachine.db.htable.numElems = 1 ∧
    exampleCalledMachine.db.callHistory.occupancy ≠ 0 := by
  obtain ⟨added, log, view, chain, listing, run, _, mounted, _, model⟩ :=
    (contact_add_spec exampleMachine.format_mounts (some exampleText) (some exampleText)).map
      Reply.status
  have people : (modelOf added view chain listing).people.length = 1 := by
    rw [model]
    rfl
  rw [modelOf, List.length_map] at people
  have valid : validPhone (some exampleText) = some exampleText.val := by decide
  obtain ⟨entry, same⟩ := call_add_entry mounted valid
  obtain ⟨started, journal, calls, some_, called, _⟩ := call_history_add_run mounted.core entry
  have first : (exampleMachine.format.run
      (Call.run (.contactAdd (some exampleText) (some exampleText)))).2 =
        ⟨added, applyWrites log exampleMachine.format.card⟩ :=
    congrArg Prod.snd (Machine.run_of run)
  have reached : exampleCalledMachine.db = callHistoryDatabase added started journal := by
    rw [exampleCalledMachine, first]
    change (out (databaseCallAdd (some exampleText) >>= fun ret => pure (Reply.status ret)) added
      (applyWrites log exampleMachine.format.card)).1.2 = _
    rw [out_bind_of (same.trans called)]
    rfl
  rw [reached]
  refine ⟨mounted.count.trans people, ?_⟩
  change min started 5000 ≠ 0
  omega

/-- A cut behind the first sector of the bitmap loses the contact and keeps the call. -/
theorem format_cut_mixes : Reachable exampleCalledMachine ∧
    ¬FormatCutSafe exampleCalledMachine 2 formattedDatabase := by
  refine ⟨example_called_reachable, ?_⟩
  rw [reachable_format_cut_iff example_called_reachable]
  obtain ⟨people, calls⟩ := example_called_counts
  unfold FormatCutFits
  omega

end SdDatabase
