import SdDatabase.ContactStore
import SdDatabase.PhoneTable

/-!
# The contacts that a card stores

What the contact sectors of any card say, whoever has written them: a slot
stores a record when its sector is in use and intact and its bit is set there.
-/

namespace SdDatabase

open Bytes Device BitScan

set_option autoImplicit false

def storedContact (bitmap : UsageBitmap) (card : Card Sector) (slot : Nat) : Option Contact :=
  let content := card (contactRaw (slot / 6))
  let cSector : ContactSector := ofSector content
  if slot / 6 < totalContactSectorSize ∧ usageBit bitmap (slot / 6) = true ∧
      sectorCrcValid content = true ∧ slotUsed cSector (slot % 6) = true then
    some (arrayGet cSector.contacts (slot % 6) .zero)
  else none

def storedPhone (bitmap : UsageBitmap) (card : Card Sector) (slot : Nat) : Option (List Byte) :=
  (storedContact bitmap card slot).map fun record => cstr record.phone

/-- The slot is in a sector that is in use and not intact. -/
def slotCorrupt (bitmap : UsageBitmap) (card : Card Sector) (slot : Nat) : Bool :=
  decide (slot / 6 < totalContactSectorSize) && usageBit bitmap (slot / 6) &&
    !sectorCrcValid (card (contactRaw (slot / 6)))

section Stored

variable {bitmap : UsageBitmap} {card : Card Sector}

theorem stored_contact_some {slot : Nat} {record : Contact}
    (stored : storedContact bitmap card slot = some record) :
    slot / 6 < totalContactSectorSize ∧ usageBit bitmap (slot / 6) = true ∧
      sectorCrcValid (card (contactRaw (slot / 6))) = true ∧
      slotUsed (ofSector (card (contactRaw (slot / 6)))) (slot % 6) = true ∧
      arrayGet (ofSector (card (contactRaw (slot / 6))) : ContactSector).contacts (slot % 6) .zero
        = record := by
  unfold storedContact at stored
  dsimp only at stored
  split at stored
  next given => exact ⟨given.1, given.2.1, given.2.2.1, given.2.2.2, Option.some.inj stored⟩
  next => cases stored

theorem stored_contact_position {physSector position : Nat}
    (inside : physSector < totalContactSectorSize) (below : position < 6)
    (used : usageBit bitmap physSector = true)
    (valid : sectorCrcValid (card (contactRaw physSector)) = true) :
    storedContact bitmap card (physSector * 6 + position) =
      (if (ofSector (card (contactRaw physSector)) : ContactSector).usedBitmap.getLsbD position then
        some (arrayGet (ofSector (card (contactRaw physSector)) : ContactSector).contacts position
          .zero)
      else none) := by
  have sector : (physSector * 6 + position) / 6 = physSector := by omega
  have place : (physSector * 6 + position) % 6 = position := by omega
  rw [storedContact, sector, place, slot_used_eq _ (by omega)]
  simp only [inside, used, valid, true_and]

theorem stored_contact_unused {slot : Nat} (unused : usageBit bitmap (slot / 6) = false) :
    storedContact bitmap card slot = none := by
  unfold storedContact
  rw [unused]
  simp

theorem stored_contact_outside {slot : Nat} (outside : ¬slot / 6 < totalContactSectorSize) :
    storedContact bitmap card slot = none := by
  unfold storedContact
  dsimp only
  exact if_neg fun given => outside given.1

theorem stored_phone_some {slot : Nat} {number : List Byte}
    (stored : storedPhone bitmap card slot = some number) :
    ∃ record, storedContact bitmap card slot = some record ∧ cstr record.phone = number :=
  Option.map_eq_some_iff.mp stored

theorem stored_phone_none {slot : Nat} :
    storedPhone bitmap card slot = none ↔ storedContact bitmap card slot = none :=
  Option.map_eq_none_iff

theorem stored_contact_record {contact : Nat → Option Identity}
    (contacts : ContactsHold bitmap card contact) (slot : Nat) :
    storedContact bitmap card slot = (contact slot).map Identity.record := by
  have place : slot / 6 * 6 + slot % 6 = slot := by omega
  have below : slot % 6 < 6 := Nat.mod_lt _ (by decide)
  by_cases inside : slot / 6 < totalContactSectorSize
  · cases used : usageBit bitmap (slot / 6) with
    | false =>
        have nothing : contact slot = none := by
          by_contra given
          have bit := (contacts.used _ inside).mpr ⟨slot % 6, below, by rwa [place]⟩
          rw [used] at bit
          cases bit
        rw [stored_contact_unused used, nothing]
        rfl
    | true =>
        have stored := contacts.sectors _ inside used
        have bit := stored.slots.slots (slot % 6) below
        have record := stored.slots.records (slot % 6) below
        have content := @stored_contact_position bitmap card (slot / 6) (slot % 6) inside below used
          stored.valid
        rw [place] at bit record content
        rw [content, bit]
        cases given : contact slot with
        | none => rfl
        | some identity =>
            rw [record identity given]
            rfl
  · rw [stored_contact_outside inside]
    cases given : contact slot with
    | none => rfl
    | some identity =>
        exact absurd (slot_sector_bound
          (contacts.bound slot (by rw [given]; exact Option.some_ne_none _))) inside

end Stored

section Reads

variable {lost : Nat → Bool}

theorem lossy_readSector (db : Database) (card : Card Sector) (index : Nat) :
    lossy lost (readSector index) db card =
      ((if lost (u16 index) then .error .strgFail
        else if sectorCrcValid (card (u16 index)) then .ok (card (u16 index))
        else .error .strgCorrupt, db), []) := by
  have raw : lossy lost (readSectorRaw index) db card =
      ((if lost (u16 index) then .error .strgFail else .ok (card (u16 index)), db), []) := by
    refine (lossy_bind_read (lossy_readBlock (u16 index) db card)).trans ?_
    cases lost (u16 index) <;> rfl
  rw [readSector, lossy_bind_read raw]
  by_cases failed : lost (u16 index) = true
  · rw [if_pos failed, if_pos failed]
    rfl
  · rw [if_neg failed, if_neg failed]
    dsimp only
    split <;> rfl

theorem lossy_readContactSector (db : Database) (card : Card Sector) {physSector : Nat}
    (inside : physSector < totalContactSectorSize) :
    lossy lost (readContactSector physSector) db card =
      ((if lost (contactRaw physSector) then .error .strgFail
        else if sectorCrcValid (card (contactRaw physSector)) then
          .ok (card (contactRaw physSector))
        else .error .strgCorrupt, db), []) := by
  rw [readContactSector, contact_raw_sector inside, lossy_readSector, contact_raw_narrow inside]

theorem lossy_readContact {db : Database} {card : Card Sector} {slot : Nat} {record : Contact}
    (stored : storedContact db.usageBitmap card slot = some record)
    (present : lost (contactRaw (slot / 6)) = false) :
    lossy lost (readContact slot) db card = ((.ok record, db), []) := by
  obtain ⟨inside, used, valid, bit, content⟩ := stored_contact_some stored
  have capacity : contactSectorCapacity = 6 := by simp
  have narrow : u16 (slot / 6) = slot / 6 := by
    apply u16_of_lt
    simp at inside
    omega
  have check : lossy lost (checkUsageBit (slot / 6)) db card = ((true, db), []) := by
    have run : lossy lost (checkUsageBit (slot / 6)) db card =
        ((usageBit db.usageBitmap (u16 (slot / 6)), db), []) := rfl
    rw [run, narrow, used]
  have read := @lossy_readContactSector lost db card (slot / 6) inside
  rw [present, valid, if_neg Bool.false_ne_true, if_pos rfl] at read
  unfold readContact
  rw [capacity, lossy_bind_read check, Bool.not_true, if_neg Bool.false_ne_true,
    lossy_bind_read read]
  dsimp only
  rw [bit, content]
  rfl

theorem out_readContact_stored {db : Database} {card : Card Sector} {slot : Nat}
    {record : Contact}
    (stored : storedContact db.usageBitmap card slot = some record) :
    out (readContact slot) db card = ((.ok record, db), []) := by
  rw [← lossy_none]
  exact lossy_readContact stored rfl

theorem stored_phones_read {db : Database} {card : Card Sector}
    {phone : Nat → Option (List Byte)}
    (known : ∀ sector number, phone sector = some number →
      storedPhone db.usageBitmap card sector = some number ∧
        lost (contactRaw (sector / 6)) = false) : PhonesRead lost db card phone := by
  intro sector number given
  obtain ⟨stored, present⟩ := known sector number given
  obtain ⟨record, place, same⟩ := stored_phone_some stored
  exact ⟨record, lossy_readContact place present, same⟩

end Reads

def ContactSector.stored (cSector : ContactSector) (position : Nat) : Option Contact :=
  if cSector.usedBitmap.getLsbD position then some (arrayGet cSector.contacts position .zero)
  else none

def SectorsIntact (bitmap : UsageBitmap) (card : Card Sector) : Prop :=
  ∀ physSector < totalContactSectorSize, usageBit bitmap physSector = true →
    sectorCrcValid (card (contactRaw physSector)) = true

section Changes

theorem stored_put (cSector : ContactSector) {position other : Nat} (inside : position < 6)
    (below : other < 6) (record : Contact) :
    (cSector.put position record).stored other =
      Function.update cSector.stored position (some record) other := by
  have bit := @masked_bit _ cSector.usedBitmap true other position (by omega)
  rw [if_pos rfl] at bit
  unfold ContactSector.stored ContactSector.put
  dsimp only
  rw [bit]
  by_cases same : other = position
  · rw [same, if_pos rfl, if_pos rfl, Function.update_self, array_get_set_self _ inside]
  · rw [if_neg same, Function.update_of_ne same, array_get_set_other _ same]

theorem stored_drop (cSector : ContactSector) {position other : Nat} (below : other < 6) :
    (cSector.drop position).stored other =
      Function.update cSector.stored position none other := by
  have bit := @masked_bit _ cSector.usedBitmap false other position (by omega)
  rw [if_neg (by decide)] at bit
  unfold ContactSector.stored ContactSector.drop
  dsimp only
  rw [bit]
  by_cases same : other = position
  · rw [same, if_pos rfl, if_neg Bool.false_ne_true, Function.update_self]
  · rw [if_neg same, Function.update_of_ne same]

variable {bitmap next : UsageBitmap} {card other : Card Sector} {slot : Nat}

theorem stored_contact_sector {physSector position : Nat}
    (inside : physSector < totalContactSectorSize) (below : position < 6)
    (used : usageBit bitmap physSector = true)
    (valid : sectorCrcValid (card (contactRaw physSector)) = true) :
    storedContact bitmap card (physSector * 6 + position) =
      (ofSector (card (contactRaw physSector)) : ContactSector).stored position :=
  stored_contact_position inside below used valid

theorem stored_contact_change {value : Option Contact}
    (bits : ∀ physSector, physSector ≠ slot / 6 →
      usageBit next physSector = usageBit bitmap physSector)
    (sectors : ∀ physSector, physSector ≠ slot / 6 →
      other (contactRaw physSector) = card (contactRaw physSector))
    (here : ∀ position < 6, storedContact next other (slot / 6 * 6 + position) =
      Function.update (storedContact bitmap card) slot value (slot / 6 * 6 + position)) :
    storedContact next other = Function.update (storedContact bitmap card) slot value := by
  funext place
  by_cases same : place / 6 = slot / 6
  · have position : slot / 6 * 6 + place % 6 = place := by omega
    have changed := here (place % 6) (Nat.mod_lt _ (by decide))
    rw [position] at changed
    exact changed
  · rw [Function.update_of_ne fun at_ => same (by rw [at_])]
    unfold storedContact
    rw [bits _ same, sectors _ same]

theorem stored_contact_written {value : Option Contact} {before cSector : ContactSector}
    (inside : slot / 6 < totalContactSectorSize)
    (bits : ∀ physSector, physSector ≠ slot / 6 →
      usageBit next physSector = usageBit bitmap physSector)
    (sectors : ∀ physSector, physSector ≠ slot / 6 →
      other (contactRaw physSector) = card (contactRaw physSector))
    (stores : ∀ position < 6, storedContact bitmap card (slot / 6 * 6 + position) =
      before.stored position)
    (changed : ∀ position < 6, cSector.stored position =
      Function.update before.stored (slot % 6) value position)
    (used : usageBit next (slot / 6) = true)
    (content : other (contactRaw (slot / 6)) = sectorCrcStamp (toSector cSector)) :
    storedContact next other = Function.update (storedContact bitmap card) slot value := by
  apply stored_contact_change bits sectors
  intro position below
  rw [stored_contact_sector inside below used (by rw [content]; exact stamp_valid _), content,
    of_sector_stamp, of_to_sector, changed position below]
  by_cases same : position = slot % 6
  · rw [same, Function.update_self, show slot / 6 * 6 + slot % 6 = slot by omega,
      Function.update_self]
  · rw [Function.update_of_ne same, Function.update_of_ne (by omega), stores position below]

theorem out_contactSectorForWrite_stored {db : Database}
    (intact : SectorsIntact db.usageBitmap card) (inside : slot / 6 < totalContactSectorSize) :
    ∃ content, out (contactSectorForWrite slot) db card = ((.ok content, db), []) ∧
      ∀ position < 6, storedContact db.usageBitmap card (slot / 6 * 6 + position) =
        (ofSector content : ContactSector).stored position := by
  have capacity : contactSectorCapacity = 6 := by simp
  have narrow : u16 (slot / 6) = slot / 6 := u16_of_lt (by simp at inside; omega)
  unfold contactSectorForWrite
  rw [out_bind, out_checkUsageBit, capacity, narrow]
  cases used : usageBit db.usageBitmap (slot / 6) with
  | true =>
      have valid := intact _ inside used
      refine ⟨card (contactRaw (slot / 6)), ?_, fun position below =>
        stored_contact_sector inside below used valid⟩
      have read := out_readContactSector db card inside
      rw [if_pos valid] at read
      simp only [if_true, apply_writes_nil]
      rw [read]
      rfl
  | false =>
      refine ⟨toSector ContactSector.zero, rfl, fun position below => ?_⟩
      have sector : (slot / 6 * 6 + position) / 6 = slot / 6 := by omega
      rw [stored_contact_unused (by rw [sector, used]), of_to_sector]
      simp [ContactSector.stored, ContactSector.zero]

theorem transaction_contacts {index : Nat} {saved : Sector} {work : WriteLog Sector}
    {commits : Nat} {target : Nat} (data : 12 ≤ target) :
    applyWrites (transactionLog .contact index saved bitmap work commits) card target =
      applyWrites work card target := by
  unfold transactionLog
  rw [apply_writes_append, apply_writes_append]
  rw [apply_writes_other (commitLog .contact index commits)]
  · apply apply_writes_congr
    right
    apply apply_writes_other
    intro entry member same
    have range := journal_add_log_targets _ _ _ _ entry member
    omega
  · intro entry member same
    rw [List.eq_of_mem_replicate member] at same
    simp at same
    omega

end Changes

/-- The outcome of a call that changed one slot: only the bitmap and the journal, and
the records of the card in that slot. -/
structure SlotChanged (bitmap next : UsageBitmap) (card other : Card Sector) (slot : Nat)
    (value : Option Contact) : Prop where
  stored : storedContact next other = Function.update (storedContact bitmap card) slot value
  intact : SectorsIntact next other

section Runs

variable {db : Database} {card : Card Sector} {slot : Nat}

theorem SlotChanged.phones {bitmap next : UsageBitmap} {other : Card Sector}
    {value : Option Contact} (changed : SlotChanged bitmap next card other slot value) :
    storedPhone next other = Function.update (storedPhone bitmap card) slot
      (value.map fun record => cstr record.phone) := by
  funext place
  unfold storedPhone
  rw [changed.stored]
  by_cases same : place = slot
  · rw [same, Function.update_self, Function.update_self]
  · rw [Function.update_of_ne same, Function.update_of_ne same]

theorem contact_sector_narrow (inside : slot / 6 < totalContactSectorSize) :
    u16 (slot / 6) = slot / 6 := by
  apply u16_of_lt
  simp at inside
  omega

theorem bit_work_contacts (bitmap : UsageBitmap) (used : Bool) {physSector : Nat}
    (inside : slot / 6 < totalContactSectorSize) :
    applyWrites (bitWork bitmap (slot / 6) used) card (contactRaw physSector) =
      card (contactRaw physSector) := by
  apply bit_work_other used
  · simp at inside ⊢
    omega
  · unfold contactRaw
    omega

/-- The sector of the slot was written with its new records; the others are untouched. -/
theorem slot_written {bitmap next : UsageBitmap} {other : Card Sector} {value : Option Contact}
    {before changed : ContactSector} (intact : SectorsIntact bitmap card)
    (inside : slot / 6 < totalContactSectorSize)
    (bits : ∀ physSector, physSector ≠ slot / 6 →
      usageBit next physSector = usageBit bitmap physSector)
    (used : usageBit next (slot / 6) = true)
    (written : ∀ physSector, other (contactRaw physSector) =
      if physSector = slot / 6 then sectorCrcStamp (toSector changed)
      else card (contactRaw physSector))
    (stores : ∀ position < 6, storedContact bitmap card (slot / 6 * 6 + position) =
      before.stored position)
    (replaced : ∀ position < 6, changed.stored position =
      Function.update before.stored (slot % 6) value position) :
    SlotChanged bitmap next card other slot value := by
  constructor
  · exact stored_contact_written inside bits
      (fun physSector differs => by rw [written, if_neg differs]) stores replaced used
      (by rw [written, if_pos rfl])
  · intro physSector below inUse
    rw [written]
    by_cases same : physSector = slot / 6
    · rw [if_pos same]
      exact stamp_valid _
    · rw [if_neg same]
      rw [bits physSector same] at inUse
      exact intact physSector below inUse

/-- The last contact of the sector was removed: the bit of the sector is cleared and no contact
sector is written. -/
theorem slot_given_up {bitmap next : UsageBitmap} {other : Card Sector}
    {before changed : ContactSector} (intact : SectorsIntact bitmap card)
    (bits : ∀ physSector, physSector ≠ slot / 6 →
      usageBit next physSector = usageBit bitmap physSector)
    (unused : usageBit next (slot / 6) = false)
    (written : ∀ physSector, other (contactRaw physSector) = card (contactRaw physSector))
    (stores : ∀ position < 6, storedContact bitmap card (slot / 6 * 6 + position) =
      before.stored position)
    (dropped : ∀ position < 6, changed.stored position =
      Function.update before.stored (slot % 6) none position)
    (last : changed.usedBitmap = 0#8) : SlotChanged bitmap next card other slot none := by
  constructor
  · apply stored_contact_change bits fun physSector _ => written physSector
    intro position below
    have sector : (slot / 6 * 6 + position) / 6 = slot / 6 := by omega
    rw [stored_contact_unused (by rw [sector, unused])]
    have nothing := dropped position below
    rw [ContactSector.stored, last, BitVec.getLsbD_zero, if_neg Bool.false_ne_true] at nothing
    by_cases same : position = slot % 6
    · rw [same, show slot / 6 * 6 + slot % 6 = slot by omega, Function.update_self]
    · rw [Function.update_of_ne same] at nothing
      rw [Function.update_of_ne (by omega), stores position below, ← nothing]
  · intro physSector below inUse
    rw [written]
    by_cases same : physSector = slot / 6
    · rw [same, unused] at inUse
      cases inUse
    · rw [bits physSector same] at inUse
      exact intact physSector below inUse

theorem write_contact_stored (intact : SectorsIntact db.usageBitmap card)
    (inside : slot / 6 < totalContactSectorSize) (record : Contact) :
    ∃ journal bitmap log,
      out (writeContact slot record) db card =
        ((.strgOk, { db with journal := journal, usageBitmap := bitmap }), log) ∧
      SlotChanged db.usageBitmap bitmap card (applyWrites log card) slot (some record) := by
  obtain ⟨content, read, stores⟩ := out_contactSectorForWrite_stored intact inside
  have capacity : contactSectorCapacity = 6 := by simp
  have dataSector : contactDataSector slot = slot / 6 := by simp
  have narrow := contact_sector_narrow inside
  let stamped := stampBitmap db.usageBitmap (usageBitmapFindSector (slot / 6))
  let changed := (ofSector content : ContactSector).put (slot % 6) record
  have run : out (writeContact slot record) db card =
      ((.strgOk,
        { db with
          journal := (journalDataInit .contact (slot / 6)).committed
          usageBitmap := setUsageBit stamped (slot / 6) true }),
        transactionLog .contact (slot / 6) content db.usageBitmap
          (contactWork stamped slot changed) 2) := by
    unfold writeContact
    rw [out_bind_of read]
    dsimp only
    rw [dataSector, out_bind_of (out_journalAdd _ _ .contact content (by simp at inside; omega))]
    simp only [JrnlType.savesBitmap, if_true, Bool.not_true, Bool.false_eq_true, if_false]
    rw [capacity, out_bind, out_updateUsageBit, narrow]
    simp only [reduceCtorEq, if_false]
    rw [out_bind, out_writeContactSector _ _ inside]
    simp only [reduceCtorEq, if_false]
    rw [out_bind, out_journalFree]
    simp only [reduceCtorEq, if_false]
    rw [out_bind, out_journalFree]
    rfl
  have bits : ∀ dataSector, usageBit (setUsageBit stamped (slot / 6) true) dataSector =
      if dataSector = slot / 6 then true else usageBit db.usageBitmap dataSector := by
    intro dataSector
    rw [usage_bit_set, usage_bit_stamp]
  have written : ∀ physSector, applyWrites (transactionLog .contact (slot / 6) content
      db.usageBitmap (contactWork stamped slot changed) 2) card (contactRaw physSector) =
      if physSector = slot / 6 then sectorCrcStamp (toSector changed)
      else card (contactRaw physSector) := by
    intro physSector
    rw [transaction_contacts (by unfold contactRaw; omega), contactWork, apply_writes_append,
      apply_writes_cons, apply_writes_nil]
    by_cases same : physSector = slot / 6
    · rw [same, Function.update_self, if_pos rfl]
    · rw [Function.update_of_ne (by unfold contactRaw; omega), if_neg same,
        bit_work_contacts _ _ inside]
  exact ⟨_, _, _, run, slot_written intact inside
    (fun physSector differs => by rw [bits, if_neg differs]) (by rw [bits, if_pos rfl]) written
    stores fun position below => stored_put _ (Nat.mod_lt _ (by decide)) below record⟩

theorem out_removeContact_stored (bound : slot < hashTableEntries) {record : Contact}
    (found : storedContact db.usageBitmap card slot = some record) {stamped : UsageBitmap}
    (stamps : stamped = stampBitmap db.usageBitmap (usageBitmapFindSector (slot / 6)))
    {changed : ContactSector}
    (drops : changed = (ofSector (card (contactRaw (slot / 6))) : ContactSector).drop (slot % 6)) :
    out (removeContact slot) db card =
      ((some record,
        { db with
          journal := (journalDataInit .contact (slot / 6)).committed
          usageBitmap := removeContactBitmap stamped slot changed
          contactAllocator := freeListFree db.contactAllocator slot }),
        transactionLog .contact (slot / 6) (card (contactRaw (slot / 6))) db.usageBitmap
          (removeContactWork stamped slot changed) 1) := by
  obtain ⟨inside, used, valid, slotBit, content⟩ := stored_contact_some found
  have capacity : contactSectorCapacity = 6 := by simp
  have dataSector : contactDataSector slot = slot / 6 := by simp
  have narrow := contact_sector_narrow inside
  subst stamps drops
  unfold removeContact
  rw [capacity, out_bind, out_checkUsageBit, narrow]
  simp only [used, Bool.not_true, Bool.false_eq_true, if_false, apply_writes_nil]
  rw [out_bind, out_readContactSector db card inside, valid]
  simp only [if_true]
  rw [dataSector, out_bind_of (out_journalAdd _ _ .contact _ (by simp at inside; omega))]
  simp only [JrnlType.savesBitmap, if_true, Bool.not_true, Bool.false_eq_true, if_false,
    slotBit]
  rw [out_bind, out_removeContactSlot _ _ bound]
  simp only [reduceCtorEq, if_false]
  rw [out_bind, out_journalFree]
  simp only [reduceCtorEq, if_false, content]
  rfl

theorem remove_contact_stored (intact : SectorsIntact db.usageBitmap card)
    (bound : slot < hashTableEntries) {record : Contact}
    (found : storedContact db.usageBitmap card slot = some record) :
    ∃ journal bitmap log,
      out (removeContact slot) db card =
        ((some record,
          { db with
            journal := journal
            usageBitmap := bitmap
            contactAllocator := freeListFree db.contactAllocator slot }), log) ∧
      SlotChanged db.usageBitmap bitmap card (applyWrites log card) slot none := by
  obtain ⟨inside, used, valid, _, _⟩ := stored_contact_some found
  let stamped := stampBitmap db.usageBitmap (usageBitmapFindSector (slot / 6))
  let before : ContactSector := ofSector (card (contactRaw (slot / 6)))
  let changed := before.drop (slot % 6)
  have stores : ∀ position < 6, storedContact db.usageBitmap card (slot / 6 * 6 + position) =
      before.stored position :=
    fun position below => stored_contact_sector inside below used valid
  have dropped : ∀ position < 6, changed.stored position =
      Function.update before.stored (slot % 6) none position :=
    fun position below => stored_drop _ below
  refine ⟨_, _, _, out_removeContact_stored bound found (@rfl _ stamped) (@rfl _ changed), ?_⟩
  unfold removeContactBitmap removeContactWork
  by_cases last : changed.usedBitmap = 0#8
  · rw [if_pos last, if_pos last]
    have bits : ∀ dataSector, usageBit (setUsageBit stamped (slot / 6) false) dataSector =
        if dataSector = slot / 6 then false else usageBit db.usageBitmap dataSector := by
      intro dataSector
      rw [usage_bit_set, usage_bit_stamp]
    refine slot_given_up intact (fun physSector differs => by rw [bits, if_neg differs])
      (by rw [bits, if_pos rfl]) (fun physSector => ?_) stores dropped last
    rw [transaction_contacts (by unfold contactRaw; omega), bit_work_contacts _ _ inside]
  · rw [if_neg last, if_neg last]
    refine slot_written intact inside (fun physSector _ => usage_bit_stamp _ _ _)
      (by rw [usage_bit_stamp, used]) (fun physSector => ?_) stores dropped
    rw [transaction_contacts (by unfold contactRaw; omega), apply_writes_cons, apply_writes_nil]
    by_cases same : physSector = slot / 6
    · rw [same, Function.update_self, if_pos rfl]
    · rw [Function.update_of_ne (by unfold contactRaw; omega), if_neg same]

end Runs

end SdDatabase
