import SdDatabase.Crash

/-!
# Contacts on the card

Reading, writing and removing a contact on a card that holds a view: each is
one transaction, and leads to the view with the one slot changed.
-/

namespace SdDatabase

open Bytes Device BitScan

set_option autoImplicit false

def View.setContact (view : View) (slot : Nat) (contact : Option Identity) : View :=
  { view with contact := Function.update view.contact slot contact }

theorem set_contact_same {view : View} {slot : Nat} {contact : Option Identity}
    (same : view.contact slot = contact) :
    (view.setContact slot contact).contact = view.contact := by
  rw [View.setContact, ← same]
  exact Function.update_eq_self _ _

@[simp] theorem set_contact_self (view : View) (slot : Nat) (contact : Option Identity) :
    (view.setContact slot contact).contact slot = contact :=
  Function.update_self _ _ _

theorem set_contact_other (view : View) {slot other : Nat} (contact : Option Identity)
    (different : other ≠ slot) : (view.setContact slot contact).contact other = view.contact other :=
  Function.update_of_ne different _ _

theorem slot_used_eq (cSector : ContactSector) {position : Nat} (bound : position < 8) :
    slotUsed cSector position = cSector.usedBitmap.getLsbD position :=
  bit_set_iff _ bound

section Slots

variable {cSector : ContactSector} {contact : Nat → Option Identity}

theorem SlotsHold.write (slots : SlotsHold cSector contact) {position : Nat} (inside : position < 6)
    (identity : Identity) :
    SlotsHold
      { cSector with
        usedBitmap := cSector.usedBitmap ||| (1#8 <<< position)
        contacts := arraySet cSector.contacts position identity.record }
      (Function.update contact position (some identity)) where
  onlySlots other above := by
    by_cases wide : other < 8
    · have bit := @masked_bit _ cSector.usedBitmap true other position wide
      rw [if_pos rfl, if_neg (by omega)] at bit
      rw [bit]
      exact slots.onlySlots other above
    · exact BitVec.getLsbD_of_ge _ _ (by omega)
  slots other bound := by
    have bit := @masked_bit _ cSector.usedBitmap true other position (by omega)
    rw [if_pos rfl] at bit
    rw [bit]
    by_cases same : other = position
    · rw [if_pos same, same, Function.update_self]
      rfl
    · rw [if_neg same, Function.update_of_ne same]
      exact slots.slots other bound
  records other bound stored found := by
    by_cases same : other = position
    · subst same
      rw [Function.update_self, Option.some.injEq] at found
      simp only [arrayGet, dif_pos bound, arraySet, if_pos, found]
    · rw [Function.update_of_ne same] at found
      have kept := slots.records other bound stored found
      simpa only [arrayGet, dif_pos bound, arraySet, if_neg same] using kept

theorem SlotsHold.clear (slots : SlotsHold cSector contact) (position : Nat) :
    SlotsHold
      { cSector with usedBitmap := cSector.usedBitmap &&& ~~~(1#8 <<< position) }
      (Function.update contact position none) where
  onlySlots other above := by
    rw [BitVec.getLsbD_and, slots.onlySlots other above]
    rfl
  slots other bound := by
    have bit := @masked_bit _ cSector.usedBitmap false other position (by omega)
    rw [if_neg (by decide)] at bit
    rw [bit]
    by_cases same : other = position
    · rw [if_pos same, same, Function.update_self]
      rfl
    · rw [if_neg same, Function.update_of_ne same]
      exact slots.slots other bound
  records other bound stored found := by
    by_cases same : other = position
    · rw [same, Function.update_self] at found
      cases found
    · rw [Function.update_of_ne same] at found
      exact slots.records other bound stored found

theorem SlotsHold.empty_iff (slots : SlotsHold cSector contact) :
    cSector.usedBitmap = 0#8 ↔ ∀ position < 6, contact position = none := by
  constructor
  · intro zero position bound
    have bit := slots.slots position bound
    rw [zero, BitVec.getLsbD_zero] at bit
    exact Option.isNone_iff_eq_none.mp (by simpa using bit.symm)
  · intro none_
    apply BitVec.eq_of_getLsbD_eq
    intro position _
    rw [BitVec.getLsbD_zero]
    by_cases inside : position < 6
    · rw [slots.slots position inside, none_ position inside]
      rfl
    · exact slots.onlySlots position (by omega)

theorem slots_hold_zero (contact : Nat → Option Identity)
    (none_ : ∀ position < 6, contact position = none) : SlotsHold .zero contact where
  onlySlots _ _ := BitVec.getLsbD_zero
  slots position bound := by
    rw [none_ position bound]
    exact BitVec.getLsbD_zero
  records position bound identity found := by
    rw [none_ position bound] at found
    cases found

end Slots

theorem sector_of_update (contact : Nat → Option Identity) (slot : Nat) (value : Option Identity) :
    (fun position => Function.update contact slot value (slot / 6 * 6 + position)) =
      Function.update (fun position => contact (slot / 6 * 6 + position)) (slot % 6) value := by
  funext position
  by_cases same : position = slot % 6
  · subst same
    have whole : slot / 6 * 6 + slot % 6 = slot := by omega
    rw [Function.update_self, whole, Function.update_self]
  · rw [Function.update_of_ne same, Function.update_of_ne (by omega)]

theorem sector_of_update_other (contact : Nat → Option Identity) {slot physSector : Nat}
    (value : Option Identity) (other : physSector ≠ slot / 6) :
    (∀ position < 6, Function.update contact slot value (physSector * 6 + position) =
      contact (physSector * 6 + position)) := by
  intro position bound
  apply Function.update_of_ne
  omega

theorem SlotsHold.congr {cSector : ContactSector} {contact other : Nat → Option Identity}
    (slots : SlotsHold cSector contact)
    (same : ∀ position < 6, other position = contact position) : SlotsHold cSector other where
  onlySlots := slots.onlySlots
  slots position bound := by
    rw [same position bound]
    exact slots.slots position bound
  records position bound identity found := by
    rw [same position bound] at found
    exact slots.records position bound identity found

theorem ContactsHold.change {bitmap next : UsageBitmap} {card other : Card Sector}
    {contact : Nat → Option Identity} (contacts : ContactsHold bitmap card contact) {slot : Nat}
    (slotBound : slot < hashTableEntries) (value : Option Identity)
    (sameBits : ∀ physSector < totalContactSectorSize, physSector ≠ slot / 6 →
      usageBit next physSector = usageBit bitmap physSector)
    (sameCard : ∀ physSector < totalContactSectorSize, physSector ≠ slot / 6 →
      other (contactRaw physSector) = card (contactRaw physSector))
    (used : usageBit next (slot / 6) = true ↔
      ∃ position < 6, Function.update contact slot value (slot / 6 * 6 + position) ≠ none)
    (stored : usageBit next (slot / 6) = true →
      ContactSectorHolds (other (contactRaw (slot / 6))) fun position =>
        Function.update contact slot value (slot / 6 * 6 + position)) :
    ContactsHold next other (Function.update contact slot value) where
  bound other given := by
    by_cases same : other = slot
    · rw [same]
      exact slotBound
    · rw [Function.update_of_ne same] at given
      exact contacts.bound other given
  used physSector inside := by
    by_cases changed : physSector = slot / 6
    · rw [changed]
      exact used
    · rw [sameBits physSector inside changed, contacts.used physSector inside]
      have kept := sector_of_update_other contact value changed
      constructor
      · rintro ⟨position, bound, given⟩
        exact ⟨position, bound, by rw [kept position bound]; exact given⟩
      · rintro ⟨position, bound, given⟩
        rw [kept position bound] at given
        exact ⟨position, bound, given⟩
  sectors physSector inside isUsed := by
    by_cases changed : physSector = slot / 6
    · rw [changed] at isUsed ⊢
      exact stored isUsed
    · rw [sameBits physSector inside changed] at isUsed
      rw [sameCard physSector inside changed]
      have holds := contacts.sectors physSector inside isUsed
      exact ⟨holds.valid, holds.slots.congr (sector_of_update_other contact value changed)⟩

section Runs

variable {db : Database} {card : Card Sector} {view : View}

theorem contact_raw_sector {physSector : Nat} (inside : physSector < totalContactSectorSize) :
    u16 (physSector + contactDataStartSector + dataRegionStartSector) = contactRaw physSector := by
  simp [contactRaw] at inside ⊢
  rw [u16_of_lt (by omega)]
  omega

theorem contact_raw_narrow {physSector : Nat} (inside : physSector < totalContactSectorSize) :
    u16 (contactRaw physSector) = contactRaw physSector := by
  apply u16_of_lt
  simp [contactRaw] at inside ⊢
  omega

theorem out_readContactSector (db : Database) (card : Card Sector) {physSector : Nat}
    (inside : physSector < totalContactSectorSize) :
    out (readContactSector physSector) db card =
      ((if sectorCrcValid (card (contactRaw physSector)) then .ok (card (contactRaw physSector))
        else .error .strgCorrupt, db), []) := by
  rw [readContactSector, contact_raw_sector inside, out_readSector, contact_raw_narrow inside]

theorem slot_sector_bound {slot : Nat} (bound : slot < hashTableEntries) :
    slot / 6 < totalContactSectorSize := by
  simp at bound ⊢
  omega

theorem slot_narrow {slot : Nat} (bound : slot < hashTableEntries) :
    u16 (slot / contactSectorCapacity) = slot / 6 := by
  simp at bound ⊢
  exact u16_of_lt (by omega)

theorem ContactsHold.slot_used {bitmap : UsageBitmap} {contact : Nat → Option Identity}
    (contacts : ContactsHold bitmap card contact) {slot : Nat} (bound : slot < hashTableEntries)
    (given : contact slot ≠ none) : usageBit bitmap (slot / 6) = true := by
  refine (contacts.used _ (slot_sector_bound bound)).mpr ⟨slot % 6, by omega, ?_⟩
  rwa [show slot / 6 * 6 + slot % 6 = slot by omega]

theorem out_readContact (contacts : ContactsHold db.usageBitmap card view.contact) {slot : Nat}
    (bound : slot < hashTableEntries) :
    out (readContact slot) db card =
      ((match view.contact slot with
        | some identity => .ok identity.record
        | none => .error .strgEmpty, db), []) := by
  have narrow := slot_narrow bound
  have inside := slot_sector_bound bound
  have capacity : contactSectorCapacity = 6 := by simp
  have position : slot / 6 * 6 + slot % 6 = slot := by omega
  have below : slot % 6 < 6 := Nat.mod_lt _ (by decide)
  unfold readContact
  rw [out_bind, out_checkUsageBit, narrow, capacity]
  by_cases used : usageBit db.usageBitmap (slot / 6) = true
  · have stored := contacts.sectors _ inside used
    have slotBit := stored.slots.slots (slot % 6) below
    have record := stored.slots.records (slot % 6) below
    rw [position] at slotBit record
    rw [← slot_used_eq _ (by omega)] at slotBit
    simp only [used, Bool.not_true, Bool.false_eq_true, if_false, apply_writes_nil]
    rw [out_bind, out_readContactSector db card inside, stored.valid]
    simp only [if_true, slotBit]
    cases found : view.contact slot with
    | none => rfl
    | some identity =>
        simp only [Option.isSome_some, Bool.not_true, Bool.false_eq_true, if_false,
          record identity found]
        rfl
  · have none_ : view.contact slot = none := by
      by_contra given
      exact used (contacts.slot_used bound given)
    simp only [used, none_]
    rfl

/-- The sector a contact is put into holds the slots of the view, and saving it
saves what the card has there when it is in use. -/
theorem out_contactSectorForWrite (contacts : ContactsHold db.usageBitmap card view.contact)
    {slot : Nat} (bound : slot < hashTableEntries) :
    ∃ content, out (contactSectorForWrite slot) db card = ((.ok content, db), []) ∧
      SlotsHold (ofSector content) (fun position => view.contact (slot / 6 * 6 + position)) ∧
      (usageBit db.usageBitmap (slot / 6) = true →
        content = card (contactRaw (slot / 6)) ∧ sectorCrcValid content = true) := by
  have inside := slot_sector_bound bound
  have capacity : contactSectorCapacity = 6 := by simp
  unfold contactSectorForWrite
  rw [out_bind, out_checkUsageBit, slot_narrow bound, capacity]
  by_cases used : usageBit db.usageBitmap (slot / 6) = true
  · have stored := contacts.sectors _ inside used
    refine ⟨card (contactRaw (slot / 6)), ?_, stored.slots, fun _ => ⟨rfl, stored.valid⟩⟩
    simp only [used, if_true, apply_writes_nil]
    rw [out_readContactSector db card inside, stored.valid]
    rfl
  · refine ⟨toSector ContactSector.zero, ?_, ?_, fun isUsed => absurd isUsed used⟩
    · simp only [used]
      rfl
    · rw [of_to_sector]
      apply slots_hold_zero
      intro position below
      by_contra given
      exact used ((contacts.used _ inside).mpr ⟨position, below, given⟩)

theorem out_writeContactSector (db : Database) (card : Card Sector) {physSector : Nat}
    (inside : physSector < totalContactSectorSize) (cSector : ContactSector) :
    out (writeContactSector physSector cSector) db card =
      ((.strgOk, db), [(contactRaw physSector, sectorCrcStamp (toSector cSector))]) := by
  rw [writeContactSector, contact_raw_sector inside, out_writeSector, contact_raw_narrow inside]

theorem Holds.undo_contact {bitmap : UsageBitmap} (holds : Holds bitmap card view)
    {physSector : Nat} (inside : physSector < totalContactSectorSize) {saved : Sector}
    (kept : usageBit bitmap physSector = true →
      saved = card (contactRaw physSector) ∧ sectorCrcValid saved = true) :
    Holds bitmap (rolledBack .contact physSector saved bitmap card) view := by
  have low : physSector < totalDataSectorSize := by
    simp at inside ⊢
    omega
  have raw : physSector + dataRegionStartSector = contactRaw physSector := Nat.add_comm _ _
  by_cases used : usageBit bitmap physSector = true
  · exact holds.rolled_back_stored (fun _ => low) (fun _ => by rw [raw]; exact (kept used).1)
      fun _ => (kept used).2
  · have others : ∀ target, target ≠ contactRaw physSector →
        rolledBack .contact physSector saved bitmap card target = card target :=
      fun target other => rolled_back_other holds.bits (fun _ => low)
        (Or.inl (by rw [raw]; exact other))
    simp only [contactRaw] at others
    simp at inside
    exact
      { superheader := by
          rw [others _ (by simp; omega)]
          exact holds.superheader
        bits := holds.bits.congr fun index _ high => others index (by omega)
        contacts := holds.contacts.congr (fun _ _ => rfl) fun other _ isUsed =>
          others _ (by
            intro same
            have sector : other = physSector := by
              simp only [contactRaw] at same
              omega
            rw [sector] at isUsed
            exact used isUsed)
        messages := holds.messages.congr (fun _ _ => rfl) fun index _ =>
          others _ (by simp only [messageRaw]; omega)
        rings := holds.rings.congr (fun index low' _ => others index (by omega)) rfl rfl }

def ContactSector.put (cSector : ContactSector) (position : Nat) (record : Contact) :
    ContactSector :=
  { cSector with
    usedBitmap := cSector.usedBitmap ||| (1#8 <<< position)
    contacts := arraySet cSector.contacts position record }

def ContactSector.drop (cSector : ContactSector) (position : Nat) : ContactSector :=
  { cSector with usedBitmap := cSector.usedBitmap &&& ~~~(1#8 <<< position) }

def contactWork (bitmap : UsageBitmap) (slot : Nat) (cSector : ContactSector) : WriteLog Sector :=
  bitWork bitmap (slot / 6) true ++ [(contactRaw (slot / 6), sectorCrcStamp (toSector cSector))]

theorem Holds.contact_change {bitmap next : UsageBitmap} (holds : Holds bitmap card view)
    {slot : Nat} (bound : slot < hashTableEntries) (value : Option Identity) {other : Card Sector}
    (bits : BitmapHolds next other)
    (sameBits : ∀ dataSector, dataSector ≠ slot / 6 →
      usageBit next dataSector = usageBit bitmap dataSector)
    (sameCard : ∀ target, target < 4 ∨ 12 ≤ target → target ≠ contactRaw (slot / 6) →
      other target = card target)
    (used : usageBit next (slot / 6) = true ↔
      ∃ position < 6, Function.update view.contact slot value (slot / 6 * 6 + position) ≠ none)
    (stored : usageBit next (slot / 6) = true →
      ContactSectorHolds (other (contactRaw (slot / 6))) fun position =>
        Function.update view.contact slot value (slot / 6 * 6 + position)) :
    Holds next other (view.setContact slot value) where
  superheader := by
    rw [sameCard _ (Or.inl (by simp)) (by simp only [contactRaw]; simp; omega)]
    exact holds.superheader
  bits := bits
  contacts := holds.contacts.change bound value (fun physSector _ changed => sameBits _ changed)
    (fun physSector _ changed => sameCard _ (Or.inr (by simp only [contactRaw]; omega))
      (by simp only [contactRaw]; omega)) used stored
  messages := by
    have inside := slot_sector_bound bound
    simp only [totalContactSectorSize] at inside
    simp at inside
    refine holds.messages.congr (fun index _ => sameBits _ ?_) fun index _ => sameCard _ ?_ ?_
    · simp
      omega
    · exact Or.inr (by simp only [messageRaw]; omega)
    · simp only [messageRaw, contactRaw]
      omega
  rings := by
    have inside := slot_sector_bound bound
    simp at inside
    exact holds.rings.congr (fun index low _ => sameCard index (Or.inr (by omega))
      (by simp only [contactRaw]; omega)) rfl rfl

theorem contact_low {slot : Nat} (bound : slot < hashTableEntries) :
    slot / 6 < totalDataSectorSize := by
  simp at bound ⊢
  omega

theorem contact_stamped {bitmap : UsageBitmap} (bits : BitmapHolds bitmap card) {slot : Nat}
    (bound : slot < hashTableEntries) :
    stampBitmap bitmap (usageBitmapFindSector (slot / 6)) = bitmap :=
  stamp_bitmap_of_valid (bits.stamped _ (by simp at bound ⊢; omega))

theorem out_writeContact (holds : Holds db.usageBitmap card view) {slot : Nat}
    (bound : slot < hashTableEntries) (record : Contact) {content : Sector}
    (read : out (contactSectorForWrite slot) db card = ((.ok content, db), [])) :
    out (writeContact slot record) db card =
      ((.strgOk,
        { db with
          journal := (journalDataInit .contact (slot / 6)).committed
          usageBitmap := setUsageBit db.usageBitmap (slot / 6) true }),
        transactionLog .contact (slot / 6) content db.usageBitmap
          (contactWork db.usageBitmap slot
            ((ofSector content : ContactSector).put (slot % 6) record)) 2) := by
  have inside := slot_sector_bound bound
  have capacity : contactSectorCapacity = 6 := by simp
  have dataSector : contactDataSector slot = slot / 6 := by simp
  have narrow : u16 (slot / 6) = slot / 6 := u16_of_lt (by simp at inside; omega)
  have stamped := contact_stamped holds.bits bound
  unfold writeContact
  rw [out_bind_of read]
  dsimp only
  rw [dataSector, out_bind_of (out_journalAdd _ _ .contact content (by simp at inside; omega))]
  simp only [JrnlType.savesBitmap, if_true, stamped, Bool.not_true, Bool.false_eq_true, if_false]
  rw [capacity, out_bind, out_updateUsageBit, narrow]
  simp only [reduceCtorEq, if_false]
  rw [out_bind, out_writeContactSector _ _ inside]
  simp only [reduceCtorEq, if_false]
  rw [out_bind, out_journalFree]
  simp only [reduceCtorEq, if_false]
  rw [out_bind, out_journalFree]
  rfl

theorem write_contact_holds (holds : Holds db.usageBitmap card view) {slot : Nat}
    (bound : slot < hashTableEntries) (identity : Identity) {cSector : ContactSector}
    (slots : SlotsHold cSector fun position => view.contact (slot / 6 * 6 + position)) :
    Holds (setUsageBit db.usageBitmap (slot / 6) true)
      (applyWrites (contactWork db.usageBitmap slot (cSector.put (slot % 6) identity.record)) card)
      (view.setContact slot (some identity)) := by
  have low := contact_low bound
  have below : slot % 6 < 6 := Nat.mod_lt _ (by decide)
  have written : applyWrites (contactWork db.usageBitmap slot
      (cSector.put (slot % 6) identity.record)) card =
      Function.update (applyWrites (bitWork db.usageBitmap (slot / 6) true) card)
        (contactRaw (slot / 6))
        (sectorCrcStamp (toSector (cSector.put (slot % 6) identity.record))) := by
    rw [contactWork, apply_writes_append]
    rfl
  have bits := holds.bits.set true low
  rw [written]
  refine holds.contact_change bound _ (bits.congr ?_) ?_ ?_ ?_ ?_
  · intro index _ high
    exact Function.update_of_ne (by simp only [contactRaw]; omega) _ _
  · intro dataSector other
    rw [usage_bit_set, if_neg other]
  · intro target range other
    rw [Function.update_of_ne other, bit_work_other true low range]
  · simp only [usage_bit_set, if_true, true_iff]
    refine ⟨slot % 6, below, ?_⟩
    rw [show slot / 6 * 6 + slot % 6 = slot by omega, Function.update_self]
    exact Option.some_ne_none _
  · intro _
    rw [Function.update_self]
    refine ⟨stamp_valid _, ?_⟩
    rw [of_sector_stamp, of_to_sector, sector_of_update]
    exact slots.write below identity

theorem write_contact_leads (idle : JournalIdle card) (holds : Holds db.usageBitmap card view)
    {slot : Nat} (bound : slot < hashTableEntries) (identity : Identity) {content : Sector}
    (slots : SlotsHold (ofSector content) fun position => view.contact (slot / 6 * 6 + position))
    (kept : usageBit db.usageBitmap (slot / 6) = true →
      content = card (contactRaw (slot / 6)) ∧ sectorCrcValid content = true) :
    Leads card
      (transactionLog .contact (slot / 6) content db.usageBitmap
        (contactWork db.usageBitmap slot
          ((ofSector content : ContactSector).put (slot % 6) identity.record)) 2)
      (setUsageBit db.usageBitmap (slot / 6) true) (view.setContact slot (some identity))
      fun _ seen => seen = view ∨ seen = view.setContact slot (some identity) := by
  have inside := slot_sector_bound bound
  refine (transaction_leads idle holds ?_ ?_ (by decide) (holds.undo_contact inside kept)
    (write_contact_holds holds bound identity slots)).mono fun _ _ => at_commit_seen
  · simp at inside ⊢
    omega
  · intro entry member
    rcases List.mem_append.mp member with bit | data
    · right
      rw [List.eq_of_mem_singleton bit]
      exact ⟨rfl, rfl⟩
    · left
      rw [List.eq_of_mem_singleton data]
      exact ⟨by decide, Nat.add_comm _ _⟩

theorem write_contact_run (idle : JournalIdle card) (holds : Holds db.usageBitmap card view)
    {slot : Nat} (bound : slot < hashTableEntries) (identity : Identity) :
    ∃ journal bitmap log,
      out (writeContact slot identity.record) db card =
        ((.strgOk, { db with journal := journal, usageBitmap := bitmap }), log) ∧
      Leads card log bitmap (view.setContact slot (some identity))
        fun _ seen => seen = view ∨ seen = view.setContact slot (some identity) := by
  obtain ⟨content, read, slots, kept⟩ := out_contactSectorForWrite holds.contacts bound
  exact ⟨_, _, _, out_writeContact holds bound identity.record read,
    write_contact_leads idle holds bound identity slots kept⟩

def removeContactWork (bitmap : UsageBitmap) (slot : Nat) (cSector : ContactSector) :
    WriteLog Sector :=
  if cSector.usedBitmap = 0#8 then bitWork bitmap (slot / 6) false
  else [(contactRaw (slot / 6), sectorCrcStamp (toSector cSector))]

def removeContactBitmap (bitmap : UsageBitmap) (slot : Nat) (cSector : ContactSector) :
    UsageBitmap :=
  if cSector.usedBitmap = 0#8 then setUsageBit bitmap (slot / 6) false else bitmap

theorem out_removeContactSlot (db : Database) (card : Card Sector) {slot : Nat}
    (bound : slot < hashTableEntries) (cSector : ContactSector) :
    out (removeContactSlot slot cSector) db card =
      ((.strgOk, { db with usageBitmap := removeContactBitmap db.usageBitmap slot cSector }),
        removeContactWork db.usageBitmap slot cSector) := by
  have inside := slot_sector_bound bound
  have capacity : contactSectorCapacity = 6 := by simp
  have narrow : u16 (slot / 6) = slot / 6 := u16_of_lt (by simp at inside; omega)
  unfold removeContactSlot removeContactWork removeContactBitmap
  rw [capacity]
  split
  · rw [out_updateUsageBit, narrow]
    rfl
  · rw [out_writeContactSector _ _ inside]

theorem out_removeContact (holds : Holds db.usageBitmap card view) {slot : Nat}
    (bound : slot < hashTableEntries) {identity : Identity}
    (found : view.contact slot = some identity) :
    out (removeContact slot) db card =
      ((some identity.record,
        { db with
          journal := (journalDataInit .contact (slot / 6)).committed
          usageBitmap := removeContactBitmap db.usageBitmap slot
            ((ofSector (card (contactRaw (slot / 6))) : ContactSector).drop (slot % 6))
          contactAllocator := freeListFree db.contactAllocator slot }),
        transactionLog .contact (slot / 6) (card (contactRaw (slot / 6))) db.usageBitmap
          (removeContactWork db.usageBitmap slot
            ((ofSector (card (contactRaw (slot / 6))) : ContactSector).drop (slot % 6))) 1) := by
  have inside := slot_sector_bound bound
  have capacity : contactSectorCapacity = 6 := by simp
  have dataSector : contactDataSector slot = slot / 6 := by simp
  have narrow : u16 (slot / 6) = slot / 6 := u16_of_lt (by simp at inside; omega)
  have below : slot % 6 < 6 := Nat.mod_lt _ (by decide)
  have stamped := contact_stamped holds.bits bound
  have used := holds.contacts.slot_used bound (by rw [found]; exact Option.some_ne_none _)
  have stored := holds.contacts.sectors _ inside used
  have whole : slot / 6 * 6 + slot % 6 = slot := by omega
  have slotBit : slotUsed (ofSector (card (contactRaw (slot / 6)))) (slot % 6) = true := by
    rw [slot_used_eq _ (by omega), stored.slots.slots _ below, whole, found]
    rfl
  have record := stored.slots.records _ below identity (by rw [whole]; exact found)
  unfold removeContact
  rw [capacity, out_bind, out_checkUsageBit, narrow]
  simp only [used, Bool.not_true, Bool.false_eq_true, if_false, apply_writes_nil]
  rw [out_bind, out_readContactSector db card inside, stored.valid]
  simp only [if_true]
  rw [dataSector, out_bind_of (out_journalAdd _ _ .contact _ (by simp at inside; omega))]
  simp only [JrnlType.savesBitmap, if_true, stamped, Bool.not_true, Bool.false_eq_true, if_false,
    slotBit]
  rw [out_bind, out_removeContactSlot _ _ bound]
  simp only [reduceCtorEq, if_false]
  rw [out_bind, out_journalFree]
  simp only [reduceCtorEq, if_false, record]
  rfl

theorem remove_contact_holds (holds : Holds db.usageBitmap card view) {slot : Nat}
    (bound : slot < hashTableEntries) (used : usageBit db.usageBitmap (slot / 6) = true) :
    Holds
      (removeContactBitmap db.usageBitmap slot
        ((ofSector (card (contactRaw (slot / 6))) : ContactSector).drop (slot % 6)))
      (applyWrites (removeContactWork db.usageBitmap slot
        ((ofSector (card (contactRaw (slot / 6))) : ContactSector).drop (slot % 6))) card)
      (view.setContact slot none) := by
  have low := contact_low bound
  have inside := slot_sector_bound bound
  have stored := holds.contacts.sectors _ inside used
  have slots : SlotsHold ((ofSector (card (contactRaw (slot / 6))) : ContactSector).drop (slot % 6))
      (fun position => Function.update view.contact slot none (slot / 6 * 6 + position)) := by
    rw [sector_of_update]
    exact stored.slots.clear (slot % 6)
  have empty := slots.empty_iff
  unfold removeContactBitmap removeContactWork
  by_cases last : ((ofSector (card (contactRaw (slot / 6))) : ContactSector).drop
      (slot % 6)).usedBitmap = 0#8
  · rw [if_pos last, if_pos last]
    refine holds.contact_change bound _ (holds.bits.set false low) ?_ ?_ ?_ ?_
    · intro dataSector other
      rw [usage_bit_set, if_neg other]
    · intro target range _
      exact bit_work_other false low range
    · simp only [usage_bit_set, if_true, Bool.false_eq_true, false_iff, not_exists, not_and,
        not_not]
      exact empty.mp last
    · intro impossible
      rw [usage_bit_set, if_pos rfl] at impossible
      cases impossible
  · rw [if_neg last, if_neg last]
    refine holds.contact_change bound _ (holds.bits.congr ?_) (fun _ _ => rfl) ?_ ?_ ?_
    · intro index _ high
      exact Function.update_of_ne (by simp only [contactRaw]; omega) _ _
    · intro target _ other
      exact Function.update_of_ne other _ _
    · simp only [used, true_iff]
      by_contra none_
      push Not at none_
      exact last (empty.mpr none_)
    · intro _
      simp only [apply_writes_cons, apply_writes_nil, Function.update_self]
      refine ⟨stamp_valid _, ?_⟩
      rw [of_sector_stamp, of_to_sector]
      exact slots

theorem remove_contact_run (idle : JournalIdle card) (holds : Holds db.usageBitmap card view)
    {slot : Nat} {identity : Identity} (found : view.contact slot = some identity) :
    ∃ journal bitmap log,
      out (removeContact slot) db card =
        ((some identity.record,
          { db with
            journal := journal
            usageBitmap := bitmap
            contactAllocator := freeListFree db.contactAllocator slot }), log) ∧
      Leads card log bitmap (view.setContact slot none)
        fun _ seen => seen = view ∨ seen = view.setContact slot none := by
  have given : view.contact slot ≠ none := by
    rw [found]
    exact Option.some_ne_none _
  have bound := holds.contacts.bound slot given
  have inside := slot_sector_bound bound
  have used := holds.contacts.slot_used bound given
  have stored := holds.contacts.sectors _ inside used
  refine ⟨_, _, _, out_removeContact holds bound found, ?_⟩
  refine (transaction_leads idle holds ?_ ?_ Nat.zero_lt_one
    (holds.undo_contact inside fun _ => ⟨rfl, stored.valid⟩)
    (remove_contact_holds holds bound used)).mono fun _ _ => at_commit_seen
  · simp at inside ⊢
    omega
  · intro entry member
    unfold removeContactWork at member
    split at member
    · right
      rw [List.eq_of_mem_singleton member]
      exact ⟨rfl, rfl⟩
    · left
      rw [List.eq_of_mem_singleton member]
      exact ⟨by decide, Nat.add_comm _ _⟩

end Runs

end SdDatabase
