import SdDatabase.BlindLookup

/-!
# The contact scan with failing reads

`hash_reconstruct_contact` reads every contact sector in use, and for every record the
contacts that have its hash and are entered already. It gives up at a sector that it
cannot read; the other reads may fail as they like.
-/

namespace SdDatabase

open Bytes Device BitScan OpenAddressing

set_option autoImplicit false

/-- The reads of the lookup that enters the contact of a slot. -/
def slotReadings (phone : Nat → Option (List Byte)) (slot : Nat) : List Reading :=
  match phone slot with
  | none => []
  | some number => List.replicate (earlierContacts phone (hashPhone number) slot) .spare

def contactSectorReadings (bitmap : UsageBitmap) (card : Card Sector) (physSector : Nat) :
    List Reading :=
  if physSector < totalContactSectorSize ∧ usageBit bitmap physSector = true then
    .fatal :: segment (slotReadings (storedPhone bitmap card)) (physSector * 6)
      (physSector * 6 + 6)
  else []

/-- The reads of `hash_reconstruct_contact`. -/
def contactReadings (bitmap : UsageBitmap) (card : Card Sector) : List Reading :=
  segment (contactSectorReadings bitmap card) 0 totalContactSectorSize

/-- The contacts below `count` are entered, each hash in the order of their slots. -/
structure OrderedEntries (base : Database) (card : Card Sector) (count : Nat) (db : Database) :
    Prop where
  entered : ContactsEntered base card count db
  order : SlotOrder db.htable (storedPhone base.usageBitmap card) count

/-- The rebuild gave up with this answer, on a card as it was. No message sector in use has
been freed. -/
structure GaveUp {A : Type} (answer : A) (base : Database) (card : Card Sector)
    (outcome : Outcome Sector Database A) : Prop where
  answers : outcome.1.1 = answer
  bitmap : outcome.1.2.usageBitmap = base.usageBitmap
  free : ∀ index ∈ outcome.1.2.messageAllocator.freeStack,
    index ∈ base.messageAllocator.freeStack ∨
      usageBit base.usageBitmap (messageDataSector index) = false
  kept : outcome.2.2 = card

section Contacts

variable {base db : Database} {card : Card Sector} {count limit : Nat}

section Sector

theorem free_slots_blind (ordered : OrderedEntries base card count db) (order : count ≤ limit)
    (unused : ∀ slot, count ≤ slot → slot < limit →
      slotTaken base.usageBitmap card slot = false) :
    ∃ next, (∀ faults, exec (freeContacts count limit) db faults card =
        ((PUnit.unit, next), faults, card)) ∧ OrderedEntries base card limit next := by
  have nothing : ∀ slot, count ≤ slot → slot < limit →
      storedContact base.usageBitmap card slot = none :=
    fun slot low high => untaken_slot (unused slot low high)
  refine ⟨_, fun faults => exec_modify _ _ _ _, ?_, ?_⟩
  · exact ordered.entered.advance order nothing (ordered.entered.free.free_range order unused)
  · exact (slot_order_unstored order
      fun slot low high => stored_phone_none.mpr (nothing slot low high)).mpr ordered.order

theorem enter_record_blind (formed : ContactsFormed base.usageBitmap card)
    (ordered : OrderedEntries base card count db) {record : Contact}
    (stored : storedContact base.usageBitmap card count = some record) :
    ∃ slot next, Follows (hashFindEntry (cstr record.phone)) db card
        (slotReadings (storedPhone base.usageBitmap card) count) (some slot) db
        (fun _ => False) (fun _ => False) ∧
      (∀ faults, exec (modifyTable fun table =>
        { table.setEntry slot (occupiedEntry (hashPhone (cstr record.phone)) count) with
          numElems := table.numElems + 1 }) db faults card = ((PUnit.unit, next), faults, card)) ∧
      OrderedEntries base card (count + 1) next := by
  have number : storedPhone base.usageBitmap card count = some (cstr record.phone) := by
    rw [storedPhone, stored, Option.map_some]
  obtain ⟨slot, next, find, added, entered⟩ := @enter_record_run _ _ _ (fun _ => false) _ formed
    ordered.entered (fun _ _ _ => rfl) _ stored
  have few : ∀ sector, phonesBelow count (storedPhone base.usageBitmap card) sector ≠ none →
      sector < hashTableEntries := by
    intro sector given
    obtain ⟨found, known⟩ := Option.ne_none_iff_exists'.mp given
    obtain ⟨other, place, _⟩ := stored_phone_some (phones_below_part known).2
    exact formed.inside sector (by rw [place]; exact Option.some_ne_none _)
  have read : NumbersStored db card (phonesBelow count (storedPhone base.usageBitmap card)) := by
    intro sector found given
    rw [ordered.entered.bitmap]
    exact (phones_below_part given).2
  have absent : ∀ sector, phonesBelow count (storedPhone base.usageBitmap card) sector ≠
      some (cstr record.phone) := by
    intro sector given
    obtain ⟨below, known⟩ := phones_below_part given
    have same := formed.distinct _ _ _ known number
    omega
  obtain ⟨free, inside, empty, reaches, search⟩ := ordered.order.find_absent few read absent
  have follows : Follows (hashFindEntry (cstr record.phone)) db card
      (slotReadings (storedPhone base.usageBitmap card) count) (some free) db
      (fun _ => False) (fun _ => False) := by
    unfold slotReadings
    rw [number]
    exact follows_spares search
  have same : slot = free := by
    rw [lossy_none] at find
    exact Option.some.inj (congrArg Prod.fst (follows.outcome find))
  have isNext : next = { db with htable :=
      { db.htable.setEntry slot (occupiedEntry (hashPhone (cstr record.phone)) count) with
        numElems := db.htable.numElems + 1 } } :=
    (congrArg (fun outcome => outcome.1.2) added).symm
  refine ⟨slot, next, ?_, fun faults => ?_, entered, ?_⟩
  · rw [same]
    exact follows
  · rw [isNext]
    rfl
  · rw [isNext, same]
    exact ordered.order.insert number inside empty reaches _

section Slots

variable {physSector : Nat} {bits : Byte} {stops strays : Outcome Sector Database Bool → Prop}
  (formed : ContactsFormed base.usageBitmap card) (inside : physSector < totalContactSectorSize)
  (used : usageBit base.usageBitmap physSector = true)
  (valid : sectorCrcValid (card (contactRaw physSector)) = true)

include inside used valid

theorem finish_slots_blind
    (left : BitsLeft (ofSector (card (contactRaw physSector))) (physSector * 6) count bits)
    (clear : ∀ position, bits.getLsbD position = false)
    (ordered : OrderedEntries base card count db) (low : physSector * 6 ≤ count)
    (high : count ≤ physSector * 6 + 6) :
    ∃ next, Follows (freeContacts count (u16 (physSector * 6 + contactSectorCapacity)) >>=
        fun _ => pure true) db card
        (segment (slotReadings (storedPhone base.usageBitmap card)) count (physSector * 6 + 6))
        true next stops strays ∧
      OrderedEntries base card (physSector * 6 + 6) next := by
  have narrow : u16 (physSector * 6 + contactSectorCapacity) = physSector * 6 + 6 := by
    simp at inside ⊢
    exact u16_of_lt (by omega)
  have untaken := bits_left_untaken inside used valid left (fun position _ => clear position) low
    (le_refl _)
  obtain ⟨next, run, later⟩ := free_slots_blind ordered high untaken
  refine ⟨next, ?_, later⟩
  have silent : segment (slotReadings (storedPhone base.usageBitmap card)) count
      (physSector * 6 + 6) = [] := by
    apply segment_silent
    intro slot above below
    unfold slotReadings
    rw [stored_phone_none.mpr (untaken_slot (untaken slot above below))]
  rw [narrow, silent]
  exact (follows_pure true next card).silent run

include formed

theorem enter_slots_blind
    (left : BitsLeft (ofSector (card (contactRaw physSector))) (physSector * 6) count bits)
    (fuel : Nat) (ordered : OrderedEntries base card count db) (low : physSector * 6 ≤ count)
    (high : count ≤ physSector * 6 + 6) (enough : physSector * 6 + 6 ≤ count + fuel) :
    ∃ next, Follows (insertContactsLoop (ofSector (card (contactRaw physSector)))
        (physSector * 6) fuel bits count) db card
        (segment (slotReadings (storedPhone base.usageBitmap card)) count (physSector * 6 + 6))
        true next stops strays ∧
      OrderedEntries base card (physSector * 6 + 6) next := by
  induction fuel generalizing bits count db with
  | zero =>
      apply finish_slots_blind inside used valid left _ ordered low high
      intro position
      rw [left, Bool.and_eq_false_iff]
      by_cases ahead : count ≤ physSector * 6 + position
      · exact Or.inr (formed.onlySlots physSector inside used valid position (by omega))
      · exact Or.inl (decide_eq_false ahead)
  | succ fuel ih =>
      unfold insertContactsLoop
      by_cases empty : bits = 0#8
      · rw [if_pos empty]
        exact finish_slots_blind inside used valid left
          (fun position => by rw [empty]; exact BitVec.getLsbD_zero) ordered low high
      · rw [if_neg empty]
        obtain ⟨ahead, set, least, rest⟩ := left.rest empty
        generalize ctz bits = position at ahead set least rest ⊢
        have below : position < 6 := by
          by_contra above
          rw [formed.onlySlots physSector inside used valid position (by omega)] at set
          cases set
        have stored := @stored_contact_position base.usageBitmap card physSector position inside
          below used valid
        rw [set, if_pos rfl] at stored
        have bound : physSector * 6 + position + 1 < 65536 := by
          simp at inside
          omega
        have untaken := bits_left_untaken inside used valid left
          (fun other before => least other (by omega)) low
          (show physSector * 6 + position ≤ physSector * 6 + 6 by omega)
        obtain ⟨middle, freed, orderedMiddle⟩ := free_slots_blind ordered ahead untaken
        obtain ⟨slot, next, find, added, orderedNext⟩ :=
          enter_record_blind formed orderedMiddle stored
        obtain ⟨last, run, done⟩ := ih rest orderedNext (by omega) (by omega) (by omega)
        refine ⟨last, ?_, done⟩
        have readings := @segment_next (slotReadings (storedPhone base.usageBitmap card)) count
          (physSector * 6 + position) (physSector * 6 + 6) ahead (by omega) (by
            intro other above before
            unfold slotReadings
            rw [stored_phone_none.mpr (untaken_slot (untaken other above before))])
        rw [readings]
        simp only [u16_of_lt (show physSector * 6 + position < 65536 by omega), u16_of_lt bound]
        apply Follows.silent freed
        apply find.bind
        · exact run.silent added
        · exact fun outcome impossible => impossible.elim
        · exact fun outcome impossible => impossible.elim

end Slots

end Sector

section Scan

variable {physSector lastFree : Nat}

theorem blind_readContactSector (db : Database) (inside : physSector < totalContactSectorSize)
    (valid : sectorCrcValid (card (contactRaw physSector)) = true) (fails : Nat → Bool) :
    exec (readContactSector physSector) db (.blind fails) card =
      ((if fails 0 then .error .strgFail else .ok (card (contactRaw physSector)), db),
        .blind fun index => fails (index + 1), card) := by
  have bound : physSector < 1667 := by simpa using inside
  have start : physSector + contactDataStartSector + dataRegionStartSector =
      contactRaw physSector := by
    simp [contactRaw]
    omega
  have below : contactRaw physSector < 65536 := by
    unfold contactRaw
    omega
  rw [readContactSector, start, u16_of_lt below, exec_readSector, u16_of_lt below]
  unfold Faults.blind
  dsimp only
  cases fails 0 with
  | true => rfl
  | false =>
      rw [if_neg Bool.false_ne_true, guarded_answer_healthy valid]
      rfl

/-- The sectors before `limit` are passed, and the slots before `lastFree` entered in order. -/
structure OrderedScan (base : Database) (card : Card Sector) (limit lastFree : Nat)
    (db : Database) : Prop where
  scan : ContactScan (fun _ => false) base card limit lastFree db
  order : SlotOrder db.htable (storedPhone base.usageBitmap card) lastFree

theorem sector_readings_unused {bitmap : UsageBitmap}
    (unused : physSector < totalContactSectorSize → usageBit bitmap physSector = false) :
    contactSectorReadings bitmap card physSector = [] := by
  apply if_neg
  rintro ⟨inside, used⟩
  rw [unused inside] at used
  cases used

theorem OrderedScan.end_word {start passed limit : Nat} {bits : BitVec 32}
    (ordered : OrderedScan base card (start + passed) lastFree db) (inside : passed ≤ 32)
    (left : WordLeft base.usageBitmap start passed bits) (short : limit ≤ 32)
    (clear : ∀ bit < limit, bits.getLsbD bit = false)
    (reached : limit < 32 → totalContactSectorSize ≤ start + limit) :
    segment (contactSectorReadings base.usageBitmap card) (start + passed) (start + 32) = [] ∧
      OrderedScan base card (start + 32) lastFree db := by
  refine ⟨segment_silent fun physSector above below => sector_readings_unused ?_,
    ordered.scan.end_word inside left short clear reached, ordered.order⟩
  exact word_end_unused inside left short clear reached physSector above below

variable (formed : ContactsFormed base.usageBitmap card)
  (intact : ∀ physSector < totalContactSectorSize, usageBit base.usageBitmap physSector = true →
    sectorCrcValid (card (contactRaw physSector)) = true)

include formed intact

theorem rebuild_sector_blind (inside : physSector < totalContactSectorSize)
    (used : usageBit base.usageBitmap physSector = true)
    (ordered : OrderedScan base card physSector lastFree db) :
    ∃ next, Follows (reconstructContactSector physSector lastFree) db card
        (contactSectorReadings base.usageBitmap card physSector) (some (physSector * 6 + 6)) next
        (GaveUp none base card) (fun _ => False) ∧
      OrderedScan base card (physSector + 1) (physSector * 6 + 6) next := by
  have capacity : contactSectorCapacity = 6 := by simp
  have low : physSector * 6 < 65536 := by
    simp at inside
    omega
  have order := ordered.scan.order
  have valid := intact physSector inside used
  obtain ⟨middle, freed, entered⟩ := free_slots_blind ⟨ordered.scan.entered, ordered.order⟩
    ordered.scan.order ordered.scan.untaken
  have all : BitsLeft (ofSector (card (contactRaw physSector))) (physSector * 6)
      (physSector * 6)
      (ofSector (card (contactRaw physSector)) : ContactSector).usedBitmap := by
    intro position
    rw [decide_eq_true (by omega), Bool.true_and]
  obtain ⟨next, run, done⟩ := @enter_slots_blind _ _ _ _ _ _ (fun _ => False) (fun _ => False)
    formed inside used valid all 8 entered (le_refl _) (by omega) (by omega)
  refine ⟨next, ?_, ⟨⟨done.entered, by omega, fun slot above below => by omega,
    fun _ _ _ _ => rfl⟩, done.order⟩⟩
  have readings : contactSectorReadings base.usageBitmap card physSector =
      [.fatal] ++ (segment (slotReadings (storedPhone base.usageBitmap card)) (physSector * 6)
        (physSector * 6 + 6) ++ []) := by
    rw [contactSectorReadings, if_pos ⟨inside, used⟩, List.append_nil]
    rfl
  unfold reconstructContactSector
  rw [capacity, u16_of_lt low, u16_of_lt (by omega : lastFree < 65536), readings]
  apply Follows.silent freed
  have read : Follows (readContactSector physSector) middle card [.fatal]
      (.ok (card (contactRaw physSector))) middle
      (fun outcome => outcome.1 = (.error .strgFail, middle) ∧ outcome.2.2 = card)
      (fun _ => False) := by
    apply follows_fatal
    · intro fails first
      rw [blind_readContactSector middle inside valid, first]
      rfl
    · intro fails first
      rw [blind_readContactSector middle inside valid, first]
      exact ⟨rfl, rfl⟩
  have inserted : Follows (insertContactsFromSector (ofSector (card (contactRaw physSector)))
      (physSector * 6)) middle card (segment (slotReadings (storedPhone base.usageBitmap card))
      (physSector * 6) (physSector * 6 + 6)) true next (fun _ => False) (fun _ => False) := run
  apply read.bind
  · apply inserted.bind
    · exact follows_pure _ _ _
    · exact fun outcome impossible => impossible.elim
    · exact fun outcome impossible => impossible.elim
  · rintro outcome ⟨failed, kept⟩
    rw [failed]
    refine ⟨rfl, entered.entered.bitmap, fun index member => Or.inl ?_, kept⟩
    have same : middle.messageAllocator = base.messageAllocator := by
      rw [entered.entered.same]
    rw [← same]
    exact member
  · exact fun outcome impossible => impossible.elim

theorem rebuild_bits_blind {word : Nat} (fuel : Nat) {passed lastFree : Nat} {bits : BitVec 32}
    (left : WordLeft base.usageBitmap (usageBitmapWordToIndex word) passed bits)
    (inside : passed ≤ 32) (enough : 32 ≤ passed + fuel)
    (ordered : OrderedScan base card (usageBitmapWordToIndex word + passed) lastFree db) :
    ∃ after next, Follows (reconstructContactBits word fuel bits lastFree) db card
        (segment (contactSectorReadings base.usageBitmap card)
          (usageBitmapWordToIndex word + passed) (usageBitmapWordToIndex word + 32))
        (some after) next (GaveUp none base card) (fun _ => False) ∧
      OrderedScan base card (usageBitmapWordToIndex word + 32) after next := by
  induction fuel generalizing passed lastFree bits db with
  | zero =>
      rw [show passed = 32 by omega] at ordered ⊢
      have silent : segment (contactSectorReadings base.usageBitmap card)
          (usageBitmapWordToIndex word + 32) (usageBitmapWordToIndex word + 32) = [] :=
        segment_silent fun physSector above below => by omega
      rw [silent]
      exact ⟨lastFree, db, follows_pure _ _ _, ordered⟩
  | succ fuel ih =>
      unfold reconstructContactBits
      by_cases empty : bits = 0#32
      · obtain ⟨silent, done⟩ := ordered.end_word inside left (le_refl 32)
          (fun bit _ => by rw [empty]; exact BitVec.getLsbD_zero) (fun short => by omega)
        rw [if_pos empty, silent]
        exact ⟨lastFree, db, follows_pure _ _ _, done⟩
      · rw [if_neg empty]
        obtain ⟨below, _, least⟩ := ctz_spec empty
        obtain ⟨low, used, clear, rest⟩ := left.rest empty
        generalize ctz bits = bit at below least low used clear rest ⊢
        dsimp only
        by_cases past : contactMemorySectorSize ≤ usageBitmapWordToIndex word + bit
        · obtain ⟨silent, done⟩ := ordered.end_word inside left (Nat.le_of_lt below) least
            fun _ => past
          rw [if_pos past, silent]
          exact ⟨lastFree, db, follows_pure _ _ _, done⟩
        · rw [if_neg past]
          have known : usageBitmapWordToIndex word + bit < totalContactSectorSize := by
            simpa using past
          have narrow : u16 (usageBitmapWordToIndex word + bit) =
              usageBitmapWordToIndex word + bit := by
            apply u16_of_lt (lt_trans known _)
            simp
          have reached : OrderedScan base card (usageBitmapWordToIndex word + bit) lastFree db :=
            ⟨ordered.scan.skip (Nat.add_le_add_left low _)
              fun physSector above before _ => clear physSector above before, ordered.order⟩
          obtain ⟨middle, run, done⟩ := rebuild_sector_blind formed intact known used reached
          rw [Nat.add_assoc] at done
          obtain ⟨after, next, later, ends⟩ := ih rest (by omega) (by omega) done
          refine ⟨after, next, ?_, ends⟩
          have readings := @segment_next (contactSectorReadings base.usageBitmap card)
            (usageBitmapWordToIndex word + passed) (usageBitmapWordToIndex word + bit)
            (usageBitmapWordToIndex word + 32) (by omega) (by omega)
            fun physSector above before => sector_readings_unused fun _ =>
              clear physSector above before
          rw [readings, narrow]
          apply run.bind
          · rw [Nat.add_assoc]
            exact later
          · rintro outcome stopped
            rw [stopped.answers]
            exact ⟨rfl, stopped.bitmap, stopped.free, stopped.kept⟩
          · exact fun outcome impossible => impossible.elim

omit formed intact in
theorem word_to_index_mono (word count : Nat) :
    usageBitmapWordToIndex word ≤ usageBitmapWordToIndex (word + count) := by
  induction count with
  | zero => exact le_refl _
  | succ count ih =>
      have next := word_to_index_next (word + count)
      rw [← Nat.add_assoc, next]
      split <;> omega

theorem rebuild_words_blind (count : Nat) {word lastFree : Nat}
    (ordered : OrderedScan base card (usageBitmapWordToIndex word) lastFree db) :
    ∃ after next, Follows (reconstructContactWords 0 0 count word lastFree) db card
        (segment (contactSectorReadings base.usageBitmap card) (usageBitmapWordToIndex word)
          (usageBitmapWordToIndex (word + count)))
        (some after) next (GaveUp none base card) (fun _ => False) ∧
      OrderedScan base card (usageBitmapWordToIndex (word + count)) after next := by
  induction count generalizing word lastFree db with
  | zero =>
      have silent : segment (contactSectorReadings base.usageBitmap card)
          (usageBitmapWordToIndex word) (usageBitmapWordToIndex word) = [] :=
        segment_silent fun physSector above below => by omega
      rw [Nat.add_zero, silent]
      exact ⟨lastFree, db, follows_pure _ _ _, ordered⟩
  | succ count ih =>
      rw [show word + (count + 1) = word + 1 + count by omega]
      unfold reconstructContactWords
      have next := word_to_index_next word
      cases trailer : usageBitmapIsCrcWord word with
      | true =>
          rw [trailer, if_pos rfl] at next
          rw [← next] at ordered ⊢
          rw [if_pos rfl]
          exact ih ordered
      | false =>
          rw [trailer, if_neg Bool.false_ne_true] at next
          have notFirst : ¬(word = 0 ∧ 0 < 0) := by omega
          have bitmap := ordered.scan.entered.bitmap
          rw [← Nat.add_zero (usageBitmapWordToIndex word)] at ordered
          obtain ⟨after, middle, run, done⟩ := @rebuild_bits_blind _ _ _ formed intact word 32 0
            lastFree _ (word_left_whole base.usageBitmap trailer) (Nat.zero_le 32) (by omega)
            ordered
          rw [← next] at done
          obtain ⟨final, last, later, ends⟩ := ih done
          refine ⟨final, last, ?_, ends⟩
          rw [segment_append (word_to_index_mono word 1) (word_to_index_mono (word + 1) count),
            if_neg Bool.false_ne_true]
          apply Follows.silent (fun _ => exec_get _ _ _)
          dsimp only
          rw [if_neg notFirst, bitmap]
          rw [Nat.add_zero, ← next] at run
          apply run.bind
          · exact later
          · rintro outcome stopped
            rw [stopped.answers]
            exact ⟨rfl, stopped.bitmap, stopped.free, stopped.kept⟩
          · exact fun outcome impossible => impossible.elim

/-- The scan of the contacts gives up at a sector that it cannot read, and no other failing read
changes what it does. -/
theorem hash_reconstruct_contact_blind (fresh : OrderedEntries base card 0 base) :
    ∃ next, Follows hashReconstructContact base card (contactReadings base.usageBitmap card)
        true next (GaveUp false base card) (fun _ => False) ∧
      OrderedEntries base card hashTableEntries next := by
  have start : OrderedScan base card (usageBitmapWordToIndex 0) 0 base :=
    ⟨{ entered := fresh.entered
       order := Nat.zero_le _
       untaken := fun slot _ below => by simp at below
       present := fun physSector below => by simp at below }, fresh.order⟩
  have firstWord : usageBitmapFindIndex contactDataStartSector = 0 := rfl
  have firstBit : usageBitmapFindBit contactDataStartSector = 0 := rfl
  have lastWord : usageBitmapFindIndex (contactDataStartSector + contactMemorySectorSize) = 52 :=
    rfl
  have limit : u16 (usageBitmapStorageSize * bitsPerElement) = 32768 := rfl
  have first : usageBitmapWordToIndex 0 = 0 := rfl
  have words : usageBitmapWordToIndex (0 + 53) = 1696 := rfl
  obtain ⟨after, middle, run, ordered⟩ := rebuild_words_blind formed intact 53 start
  rw [words] at run ordered
  rw [first] at run
  have order := ordered.scan.order
  have untaken : ∀ slot, after ≤ slot → slot < 32768 →
      slotTaken base.usageBitmap card slot = false := by
    intro slot above _
    by_cases passed : slot < 1696 * 6
    · exact ordered.scan.untaken slot above passed
    · have outside : ¬slot / 6 < totalContactSectorSize := by
        simp
        omega
      rw [slotTaken, stored_contact_outside outside, slotCorrupt, decide_eq_false outside]
      rfl
  obtain ⟨last, freed, done⟩ := @free_slots_blind _ _ _ _ 32768
    ⟨ordered.scan.entered, ordered.order⟩ (by omega) untaken
  have trimmed : SlotOrder last.htable (storedPhone base.usageBitmap card) hashTableEntries := by
    refine (slot_order_unstored (by simp : hashTableEntries ≤ 32768) ?_).mp done.order
    intro slot above _
    rw [stored_phone_none]
    by_contra given
    exact absurd (formed.inside slot given) (not_lt.mpr above)
  refine ⟨last, ?_, done.entered.trim formed (by simp), trimmed⟩
  have behind : segment (contactSectorReadings base.usageBitmap card) totalContactSectorSize 1696 =
      [] := by
    apply segment_silent
    intro physSector above _
    exact sector_readings_unused fun inside => absurd inside (not_lt.mpr above)
  rw [segment_append (Nat.zero_le totalContactSectorSize) (by simp), behind, List.append_nil] at run
  unfold hashReconstructContact
  rw [firstWord, firstBit, lastWord, limit, contactReadings, ← List.append_nil (segment _ _ _)]
  apply run.bind
  · dsimp only
    rw [u16_of_lt (by omega : after < 65536)]
    exact (follows_pure true last card).silent freed
  · rintro outcome stopped
    rw [stopped.answers]
    exact ⟨rfl, stopped.bitmap, stopped.free, stopped.kept⟩
  · exact fun outcome impossible => impossible.elim

end Scan

end Contacts

end SdDatabase
