import SdDatabase.Model
import SdDatabase.RingMount

/-!
# Formatting

`database_format` writes the journal header, the bitmap, both histories and last
the superheader. Whatever was on the card and in memory before, it leaves an
empty database.
-/

namespace SdDatabase

open Bytes Device

set_option autoImplicit false

def blankView : View := ⟨fun _ => none, fun _ => none, 0, 0⟩

def formatBitmap : UsageBitmap := (List.range usageBitmapSectorSize).foldl stampBitmap .zero

def formattedDatabase : Database where
  journal := .zero
  htable := hashInit hashTableSize
  contactAllocator := ⟨(List.range hashTableEntries).reverse, hashTableEntries, 0⟩
  messageAllocator := ⟨(List.range totalMessageSectorSize).reverse, totalMessageSectorSize, 0⟩
  messageHistory := ringPosition 0
  callHistory := ringPosition 0
  nameIndex := ⟨[]⟩
  chatOrder := ⟨[]⟩
  usageBitmap := formatBitmap

def blankRingBlock : Sector := sectorCrcStamp (toSector RingBufferSector.zero)

def bitmapBlocks (bitmap : UsageBitmap) : WriteLog Sector :=
  (List.range usageBitmapSectorSize).map fun sector =>
    (usageBitmapStartSector + sector, bitmapSector bitmap sector)

def ringBlocks (rawStart count : Nat) : WriteLog Sector :=
  (List.range count).map fun index => (rawStart + index, blankRingBlock)

def formatBody : WriteLog Sector :=
  (jrnlHeaderSector, emptyHeaderBlock) :: (bitmapBlocks formatBitmap ++
    (ringBlocks 30265 5000 ++ ringBlocks 35265 5000))

def formatLog : WriteLog Sector :=
  formatBody ++ [(superheaderSector, sectorCrcStamp (toSector formattedSuperheader))]

theorem stamp_all_valid (sectors : List Nat) (bitmap : UsageBitmap) (sector : Nat)
    (stamped : sector ∈ sectors ∨ sectorCrcValid (bitmapSector bitmap sector) = true) :
    sectorCrcValid (bitmapSector (sectors.foldl stampBitmap bitmap) sector) = true := by
  induction sectors generalizing bitmap with
  | nil => simpa using stamped
  | cons head tail ih =>
      apply ih
      by_cases same : sector = head
      · right
        rw [same, bitmap_sector_stamp]
        exact stamp_valid _
      · rcases stamped with member | valid
        · exact Or.inl (List.mem_of_ne_of_mem same member)
        · right
          rwa [bitmap_sector_stamp_other _ same]

theorem stamp_all_bit (sectors : List Nat) (bitmap : UsageBitmap) (dataSector : Nat) :
    usageBit (sectors.foldl stampBitmap bitmap) dataSector = usageBit bitmap dataSector := by
  induction sectors generalizing bitmap with
  | nil => rfl
  | cons head tail ih => rw [List.foldl_cons, ih, usage_bit_stamp]

theorem format_bitmap_bit (dataSector : Nat) : usageBit formatBitmap dataSector = false := by
  rw [formatBitmap, stamp_all_bit, usage_bit_eq]
  exact BitVec.getLsbD_zero

theorem format_bitmap_valid {sector : Nat} (bound : sector < usageBitmapSectorSize) :
    sectorCrcValid (bitmapSector formatBitmap sector) = true :=
  stamp_all_valid _ _ _ (Or.inl (List.mem_range.mpr bound))

theorem blank_ring_header : ringHeader blankRingBlock = RingBufferSector.zero.header := by
  rw [ringHeader, blankRingBlock, of_sector_stamp, of_to_sector]

/-- A ring of blank sectors that was never started. -/
theorem blank_ring_holds (capacity : Nat) {sector : Nat → Sector}
    (blank : ∀ index < 5000, sector index = blankRingBlock) : RingHolds capacity 0 sector where
  valid index bound := by
    rw [blank index bound]
    exact stamp_valid _
  blank index bound _ := by
    rw [blank index bound, blank_ring_header]
    rfl
  numbered index _ below := absurd below (Nat.not_lt_zero _)
  past index _ below := absurd below (Nat.not_lt_zero _)
  current some_ := absurd some_ (Nat.not_lt_zero _)

section Card

variable (card : Card Sector)

theorem bitmap_blocks_apply (bitmap : UsageBitmap) (index : Nat) :
    applyWrites (bitmapBlocks bitmap) card index =
      if 4 ≤ index ∧ index < 12 then bitmapSector bitmap (index - 4) else card index :=
  apply_writes_range 4 8 _ card index

theorem ring_blocks_apply (rawStart count index : Nat) :
    applyWrites (ringBlocks rawStart count) card index =
      if rawStart ≤ index ∧ index < rawStart + count then blankRingBlock else card index :=
  apply_writes_range rawStart count _ card index

theorem format_log_apply (index : Nat) :
    applyWrites formatLog card index =
      if index = superheaderSector then sectorCrcStamp (toSector formattedSuperheader)
      else if 30265 ≤ index ∧ index < 40265 then blankRingBlock
      else if 4 ≤ index ∧ index < 12 then bitmapSector formatBitmap (index - 4)
      else if index = jrnlHeaderSector then emptyHeaderBlock
      else card index := by
  rw [formatLog, formatBody, apply_writes_append, apply_writes_cons, apply_writes_nil,
    apply_writes_cons, apply_writes_append, apply_writes_append]
  by_cases super : index = superheaderSector
  · rw [super, Function.update_self, if_pos rfl]
  · rw [Function.update_of_ne super, if_neg super, ring_blocks_apply, ring_blocks_apply,
      bitmap_blocks_apply, Function.update_apply]
    by_cases calls : 35265 ≤ index ∧ index < 35265 + 5000
    · rw [if_pos calls, if_pos (by omega)]
    · rw [if_neg calls]
      by_cases messages : 30265 ≤ index ∧ index < 30265 + 5000
      · rw [if_pos messages, if_pos (by omega)]
      · have outside : ¬(30265 ≤ index ∧ index < 40265) := by omega
        rw [if_neg messages, if_neg outside]

theorem format_idle : JournalIdle (applyWrites formatLog card) := by
  rw [JournalIdle, format_log_apply]
  exact empty_header_idle

theorem format_holds : Holds formatBitmap (applyWrites formatLog card) blankView where
  superheader := by
    rw [format_log_apply]
    exact formatted_superheader_good
  bits := by
    refine ⟨fun sector bound => ?_, fun sector bound => format_bitmap_valid bound,
      fun dataSector _ _ => format_bitmap_bit dataSector⟩
    have range : sector < 8 := bound
    have place : usageBitmapStartSector + sector = 4 + sector := rfl
    rw [place, format_log_apply, if_neg (by simp), if_neg (by omega), if_pos (by omega),
      Nat.add_sub_cancel_left]
  contacts := by
    refine ⟨fun slot given => absurd rfl given, fun physSector _ => ?_, fun physSector _ used => ?_⟩
    · rw [format_bitmap_bit]
      simp [blankView]
    · rw [format_bitmap_bit] at used
      cases used
  messages := by
    refine ⟨fun index given => absurd rfl given, fun index _ => format_bitmap_bit _,
      fun index mSector stored => ?_⟩
    cases stored
  rings := by
    constructor
    · refine blank_ring_holds _ fun index bound => ?_
      rw [format_log_apply, messageHistRaw, if_neg (by simp), if_pos (by omega)]
    · refine blank_ring_holds _ fun index bound => ?_
      rw [format_log_apply, callHistRaw, if_neg (by simp), if_pos (by omega)]

end Card

section Runs

variable (db : Database) (card : Card Sector)

theorem out_writeBitmapSectors (sectors : List Nat) :
    out (writeBitmapSectors sectors) db card =
      ((true, db), sectors.map fun sector =>
        (usageBitmapStartSector + sector, bitmapSector db.usageBitmap sector)) := by
  induction sectors generalizing card with
  | nil => rfl
  | cons sector rest ih =>
      unfold writeBitmapSectors
      rw [out_bind_of (out_get _ _), List.nil_append, out_bind_of (out_writeBlock _ _ _ _)]
      simp only [if_true, ih]
      rfl

theorem out_clearRingBufferFrom (rawStart count index : Nat)
    (region : rawStart + index + count ≤ 65536) :
    out (clearRingBufferFrom rawStart count index) db card =
      ((.strgOk, db), (List.range' index count).map fun place =>
        (rawStart + place, blankRingBlock)) := by
  induction count generalizing index card with
  | zero => rfl
  | succ count ih =>
      unfold clearRingBufferFrom
      have place : u16 (u16 (rawStart + index)) = rawStart + index := by
        rw [u16_of_lt (u16_lt _), u16_of_lt (by omega)]
      rw [out_bind_of (out_writeSector _ _ _ _), place]
      simp only [ne_eq, not_true_eq_false, if_false]
      rw [ih _ _ (by omega)]
      rfl

theorem out_clearRingBuffer (rawStart count : Nat) (region : rawStart + count ≤ 65536) :
    out (clearRingBuffer rawStart count) db card =
      ((.strgOk, db), ringBlocks rawStart count) := by
  rw [clearRingBuffer, out_clearRingBufferFrom db card rawStart count 0 (by omega), ringBlocks,
    List.range_eq_range']

theorem out_historyInit {bitmap : UsageBitmap} {view : View} (holds : Holds bitmap card view) :
    out historyInit db card =
      ((.strgOk,
        { db with
          messageHistory := ringPosition view.messageRing
          callHistory := ringPosition view.callRing }), []) := by
  have messages : ∀ next rb, out (initRingBuffer rb 5000 30265) next card =
      ((some (ringPosition view.messageRing), next), []) := fun next rb =>
    out_initRingBuffer holds.rings.messages.searchable (fun _ _ => rfl) (by omega) (by omega) rb
  have calls : ∀ next rb, out (initRingBuffer rb 5000 35265) next card =
      ((some (ringPosition view.callRing), next), []) := fun next rb =>
    out_initRingBuffer holds.rings.calls.searchable (fun _ _ => rfl) (by omega) (by omega) rb
  have messagesRaw : dataSectorToRaw messageHistoryDataStartSector = 30265 := rfl
  have callsRaw : dataSectorToRaw callHistoryDataStartSector = 35265 := rfl
  have messagesSize : totalMessageHistorySectorSize = 5000 := rfl
  have callsSize : totalCallHistorySectorSize = 5000 := rfl
  unfold historyInit
  rw [messagesRaw, callsRaw, messagesSize, callsSize, out_bind_of (out_get _ _), List.nil_append]
  simp only [apply_writes_nil]
  rw [out_bind_of (messages db db.messageHistory)]
  simp only [apply_writes_nil, List.nil_append]
  rw [out_bind_of (out_modify _ _ _), List.nil_append]
  simp only [apply_writes_nil]
  rw [out_bind_of (out_get _ _), List.nil_append]
  simp only [apply_writes_nil]
  rw [out_bind_of (calls _ db.callHistory)]
  rfl

theorem out_initUsageBitmap :
    out initUsageBitmap db card =
      ((true, { db with usageBitmap := formatBitmap }), bitmapBlocks formatBitmap) := by
  unfold initUsageBitmap
  rw [out_bind_of (out_modify _ _ _), List.nil_append]
  exact out_writeBitmapSectors _ _ _

theorem free_list_init {size : Nat} (some_ : size ≠ 0) :
    freeListInit size = some ⟨(List.range size).reverse, size, 0⟩ := if_neg some_

theorem out_journalHeaderInit :
    out journalHeaderInit db card = ((true, db), [(jrnlHeaderSector, emptyHeaderBlock)]) := rfl

theorem out_superheaderInit :
    out superheaderInit db card =
      ((.strgOk, db),
        [(superheaderSector, sectorCrcStamp (toSector formattedSuperheader))]) := rfl

theorem out_databaseFormat :
    out databaseFormat db card = ((.strgOk, formattedDatabase), formatLog) := by
  have logEq : formatLog = [] ++ ([(jrnlHeaderSector, emptyHeaderBlock)] ++
      (bitmapBlocks formatBitmap ++ (ringBlocks 30265 5000 ++ (ringBlocks 35265 5000 ++
        ([(superheaderSector, sectorCrcStamp (toSector formattedSuperheader))] ++
          ([] ++ [])))))) := by
    simp [formatLog, formatBody]
  have messagesRaw : dataSectorToRaw messageHistoryDataStartSector = 30265 := rfl
  have callsRaw : dataSectorToRaw callHistoryDataStartSector = 35265 := rfl
  have messagesSize : totalMessageHistorySectorSize = 5000 := rfl
  have callsSize : totalCallHistorySectorSize = 5000 := rfl
  have contacts := @free_list_init hashTableEntries (by simp)
  have messages := @free_list_init totalMessageSectorSize (by simp)
  unfold databaseFormat
  rw [logEq, messagesRaw, callsRaw, messagesSize, callsSize, contacts, messages]
  refine out_bind_both (out_modify _ _ _) ?_
  refine out_bind_both (out_journalHeaderInit _ _) ?_
  refine out_bind_both (out_initUsageBitmap _ _) ?_
  refine out_bind_both (out_clearRingBuffer _ _ 30265 5000 (by omega)) ?_
  refine out_bind_both (out_clearRingBuffer _ _ 35265 5000 (by omega)) ?_
  refine out_bind_both (out_superheaderInit _ _) ?_
  refine out_bind_both (out_modify _ _ _) ?_
  have holds := format_holds card
  have whole : formatLog = (jrnlHeaderSector, emptyHeaderBlock) :: (bitmapBlocks formatBitmap ++
      (ringBlocks 30265 5000 ++ ringBlocks 35265 5000) ++
        [(superheaderSector, sectorCrcStamp (toSector formattedSuperheader))]) := by
    rw [formatLog, formatBody, List.cons_append]
  rw [whole, apply_writes_cons, apply_writes_append, apply_writes_append, apply_writes_append,
    apply_writes_cons, apply_writes_nil] at holds
  simp only [apply_writes_cons, apply_writes_nil]
  exact out_historyInit _ _ holds

end Runs

theorem freelist_range (size : Nat) : FreeHold ⟨(List.range size).reverse, size, 0⟩ size
    fun _ => False where
  capacity := rfl
  nodup := List.nodup_reverse.mpr List.nodup_range
  mem index := by simp

theorem blank_chats : ChatsHold blankView fun _ => [] where
  linked _ := rfl
  owned _ _ member := absurd member List.not_mem_nil
  counted _ _ member := absurd member List.not_mem_nil
  separate _ := List.nodup_nil
  contacts _ some_ := absurd rfl some_

theorem blank_tidy : Tidy blankView fun _ => [] where
  nexts _ := trivial
  covered _ _ stored := by cases stored

theorem hash_init_holds {contact : Nat → Option Identity} {latest : Nat → Nat}
    (none_ : ∀ slot, contact slot = none) :
    TableHolds (hashInit hashTableSize) contact latest where
  size := rfl
  inside _ used := absurd rfl used
  entry _ occupied := by cases occupied
  placed slot stored := absurd (none_ slot) stored
  separate _ _ occupied := by cases occupied

theorem format_core (card : Card Sector) :
    Core formattedDatabase (applyWrites formatLog card) blankView fun _ => [] where
  idle := format_idle card
  holds := format_holds card
  distinct _ _ _ _ stored := by cases stored
  chats := blank_chats
  table := hash_init_holds fun _ => rfl
  contactFree := (freelist_range _).congr fun _ => by simp [blankView]
  messageFree := (freelist_range _).congr fun _ => by simp [blankView]
  messageRing := rfl
  callRing := rfl

theorem format_mounted (card : Card Sector) :
    Mounted formattedDatabase (applyWrites formatLog card) blankView (fun _ => []) [] where
  core := format_core card
  names := by
    refine ⟨rfl, List.Pairwise.nil, fun hashSlot identity => ?_⟩
    simp [contactAt, formattedDatabase, hashInit, HashEntry.zero]
  order := by
    refine ⟨List.nodup_nil, fun hashSlot => ?_⟩
    simp [formattedDatabase, hashInit, HashEntry.zero]
  count := rfl

end SdDatabase
