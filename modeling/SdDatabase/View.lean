import SdDatabase.Contact
import SdDatabase.Message
import SdDatabase.Superheader
import SdDatabase.Transaction

/-!
# What a card holds

The logical content of a card: which contact is in which slot and which message
sector is in use with what in it. The bitmap and the sectors of a card hold a
view when they agree with it; sectors not in use and the journal do not matter.
-/

namespace SdDatabase

open Bytes Device

set_option autoImplicit false

/-- A name and a phone number that the interface accepts. -/
@[ext]
structure Identity where
  name : List Byte
  phone : List Byte
  nameShort : name.length ≤ 64
  nameText : ∀ character ∈ name, character ≠ 0#8
  phoneShort : phone.length ≤ 14
  phoneText : ∀ character ∈ phone, character ≠ 0#8
  phoneGiven : phone ≠ []

def Identity.record (identity : Identity) : Contact :=
  createContact identity.name identity.phone

/-- `messageRing` and `callRing` count how often a sector of the history was started. -/
structure View where
  contact : Nat → Option Identity
  sector : Nat → Option MessageSector
  messageRing : Nat
  callRing : Nat

theorem padded_take {count : Nat} {text : List Byte} (short : text.length ≤ count) :
    (List.ofFn (padded count text)).take text.length = text := by
  apply List.ext_getElem
  · simp [short]
  · intro index first second
    simp [padded, second]

theorem cstr_padded {count : Nat} {text : List Byte} (short : text.length ≤ count)
    (noNul : ∀ character ∈ text, character ≠ 0#8) : cstr (padded count text) = text := by
  have split : List.ofFn (padded count text) =
      text ++ List.replicate (count - text.length) 0#8 := by
    apply List.ext_getElem
    · simp
      omega
    · intro index first second
      by_cases inside : index < text.length
      · simp [padded, inside]
      · simp [padded, inside, List.getElem_append]
  rw [cstr, split]
  have stop : (List.replicate (count - text.length) 0#8).takeWhile (· ≠ 0#8) = [] := by
    cases count - text.length <;> simp [List.replicate_succ]
  rw [List.takeWhile_append_of_pos (by simpa using noNul), stop, List.append_nil]

section Identity

variable (identity : Identity)

theorem record_eq : identity.record =
    { nameLen := BitVec.ofNat 8 identity.name.length
      name := padded 64 identity.name
      phoneLen := BitVec.ofNat 8 identity.phone.length
      phone := padded 15 identity.phone } := by
  have nameShort := identity.nameShort
  have phoneShort := identity.phoneShort
  rw [Identity.record, createContact, if_neg]
  simp
  omega

@[simp] theorem record_nameLen : identity.record.nameLen.toNat = identity.name.length := by
  have nameShort := identity.nameShort
  rw [record_eq]
  simp
  omega

@[simp] theorem record_phoneLen : identity.record.phoneLen.toNat = identity.phone.length := by
  have phoneShort := identity.phoneShort
  rw [record_eq]
  simp
  omega

theorem record_name_take : (List.ofFn identity.record.name).take identity.name.length =
    identity.name := by
  rw [record_eq]
  exact padded_take identity.nameShort

theorem record_phone_take : (List.ofFn identity.record.phone).take identity.phone.length =
    identity.phone := by
  have phoneShort := identity.phoneShort
  rw [record_eq]
  exact padded_take (by omega)

@[simp] theorem record_phone_cstr : cstr identity.record.phone = identity.phone := by
  have phoneShort := identity.phoneShort
  rw [record_eq]
  exact cstr_padded (by omega) identity.phoneText

end Identity

def contactRaw (physSector : Nat) : Nat := 12 + physSector

def messageRaw (index : Nat) : Nat := 1679 + index

def messageHistRaw (index : Nat) : Nat := 30265 + index

def callHistRaw (index : Nat) : Nat := 35265 + index

theorem message_raw_eq (index : Nat) :
    messageRaw index = dataSectorToRaw (messageDataSector index) := by
  simp [messageRaw]
  omega

structure BitmapHolds (bitmap : UsageBitmap) (card : Card Sector) : Prop where
  mirror : BitmapMirrored bitmap card
  stamped : ∀ sector < usageBitmapSectorSize, sectorCrcValid (bitmapSector bitmap sector) = true
  beyond : ∀ dataSector, totalDataSectorSize ≤ dataSector →
    dataSector < usageBitmapSectorSize * usageBitsPerSector → usageBit bitmap dataSector = false

/-- A contact sector stores the contacts `contact 0, ..., contact 5`. -/
structure SlotsHold (cSector : ContactSector) (contact : Nat → Option Identity) : Prop where
  onlySlots : ∀ position, 6 ≤ position → cSector.usedBitmap.getLsbD position = false
  slots : ∀ position < 6, cSector.usedBitmap.getLsbD position = (contact position).isSome
  records : ∀ position < 6, ∀ identity, contact position = some identity →
    arrayGet cSector.contacts position .zero = identity.record

structure ContactSectorHolds (sector : Sector) (contact : Nat → Option Identity) : Prop where
  valid : sectorCrcValid sector = true
  slots : SlotsHold (ofSector sector) contact

structure ContactsHold (bitmap : UsageBitmap) (card : Card Sector)
    (contact : Nat → Option Identity) : Prop where
  bound : ∀ slot, contact slot ≠ none → slot < hashTableEntries
  used : ∀ physSector < totalContactSectorSize, usageBit bitmap physSector = true ↔
    ∃ position < 6, contact (physSector * 6 + position) ≠ none
  sectors : ∀ physSector < totalContactSectorSize, usageBit bitmap physSector = true →
    ContactSectorHolds (card (contactRaw physSector)) fun position =>
      contact (physSector * 6 + position)

structure MessagesHold (bitmap : UsageBitmap) (card : Card Sector)
    (sector : Nat → Option MessageSector) : Prop where
  bound : ∀ index, sector index ≠ none → index < totalMessageSectorSize
  used : ∀ index < totalMessageSectorSize,
    usageBit bitmap (messageDataSector index) = (sector index).isSome
  sectors : ∀ index mSector, sector index = some mSector →
    sectorCrcValid (card (messageRaw index)) = true ∧ ofSector (card (messageRaw index)) = mSector

def ringHeader (sector : Sector) : RingBufferHeader := (ofSector sector : RingBufferSector).header

/-- How many sectors of the ring had been started when a position was last started. -/
def ringRound (started index : Nat) : Nat := index + 5000 * ((started - 1 - index) / 5000)

/-- Entries may be added to a ring sector with this header. A full one is found
here only when the power was cut before the next sector was started. -/
def Appendable (capacity : Nat) (header : RingBufferHeader) : Prop :=
  header.state = rbFull ∨ (header.state = rbOccupied ∧ header.head.toNat < capacity)

/-- A ring of which `started` sectors were started one after the other. -/
structure RingHolds (capacity started : Nat) (sector : Nat → Sector) : Prop where
  valid : ∀ index < 5000, sectorCrcValid (sector index) = true
  blank : ∀ index < 5000, started ≤ index → (ringHeader (sector index)).state = rbEmpty
  numbered : ∀ index < 5000, index < started →
    (ringHeader (sector index)).seq = BitVec.ofNat 32 (ringRound started index)
  past : ∀ index < 5000, index < started → index ≠ (started - 1) % 5000 →
    (ringHeader (sector index)).state = rbFull
  current : 0 < started → Appendable capacity (ringHeader (sector ((started - 1) % 5000)))

structure RingsHold (card : Card Sector) (view : View) : Prop where
  messages : RingHolds messageHistorySectorCapacity view.messageRing
    fun index => card (messageHistRaw index)
  calls : RingHolds callHistorySectorCapacity view.callRing fun index => card (callHistRaw index)

structure Holds (bitmap : UsageBitmap) (card : Card Sector) (view : View) : Prop where
  superheader : getSuperheaderStatus (card superheaderSector) = .good
  bits : BitmapHolds bitmap card
  contacts : ContactsHold bitmap card view.contact
  messages : MessagesHold bitmap card view.sector
  rings : RingsHold card view

section Frame

variable {bitmap next : UsageBitmap} {card other : Card Sector} {view : View}

theorem BitmapHolds.congr (bits : BitmapHolds bitmap card)
    (same : ∀ index, 4 ≤ index → index < 12 → other index = card index) :
    BitmapHolds bitmap other where
  mirror sector bound := by
    simp only [usageBitmapSectorSize] at bound
    rw [same _ (by simp) (by simp at bound ⊢; omega)]
    exact bits.mirror sector bound
  stamped := bits.stamped
  beyond := bits.beyond

theorem ContactsHold.congr {contact : Nat → Option Identity}
    (contacts : ContactsHold bitmap card contact)
    (sameBits : ∀ physSector < totalContactSectorSize,
      usageBit next physSector = usageBit bitmap physSector)
    (sameCard : ∀ physSector < totalContactSectorSize, usageBit bitmap physSector = true →
      other (contactRaw physSector) = card (contactRaw physSector)) :
    ContactsHold next other contact where
  bound := contacts.bound
  used physSector inside := by
    rw [sameBits physSector inside]
    exact contacts.used physSector inside
  sectors physSector inside used := by
    rw [sameBits physSector inside] at used
    rw [sameCard physSector inside used]
    exact contacts.sectors physSector inside used

theorem MessagesHold.congr {sector : Nat → Option MessageSector}
    (messages : MessagesHold bitmap card sector)
    (sameBits : ∀ index < totalMessageSectorSize,
      usageBit next (messageDataSector index) = usageBit bitmap (messageDataSector index))
    (sameCard : ∀ index, sector index ≠ none →
      other (messageRaw index) = card (messageRaw index)) :
    MessagesHold next other sector where
  bound := messages.bound
  used index inside := by
    rw [sameBits index inside]
    exact messages.used index inside
  sectors index mSector stored := by
    rw [sameCard index (by rw [stored]; exact Option.some_ne_none _)]
    exact messages.sectors index mSector stored

theorem RingHolds.congr {capacity started : Nat} {sector replaced : Nat → Sector}
    (ring : RingHolds capacity started sector)
    (same : ∀ index < 5000, replaced index = sector index) : RingHolds capacity started replaced where
  valid index bound := by
    rw [same index bound]
    exact ring.valid index bound
  blank index bound := by
    rw [same index bound]
    exact ring.blank index bound
  numbered index bound := by
    rw [same index bound]
    exact ring.numbered index bound
  past index bound := by
    rw [same index bound]
    exact ring.past index bound
  current some_ := by
    rw [same _ (Nat.mod_lt _ (by decide))]
    exact ring.current some_

theorem RingsHold.congr {later : View} (rings : RingsHold card view)
    (same : ∀ index, 30265 ≤ index → index < 40265 → other index = card index)
    (messages : later.messageRing = view.messageRing) (calls : later.callRing = view.callRing) :
    RingsHold other later where
  messages := by
    rw [messages]
    exact rings.messages.congr fun index bound => same _ (by simp [messageHistRaw])
      (by simp only [messageHistRaw]; omega)
  calls := by
    rw [calls]
    exact rings.calls.congr fun index bound => same _ (by simp only [callHistRaw]; omega)
      (by simp only [callHistRaw]; omega)

theorem Holds.same_data (holds : Holds bitmap card view) (same : SameData other card) :
    Holds bitmap other view where
  superheader := by
    rw [same superheaderSector (Or.inl rfl)]
    exact holds.superheader
  bits := holds.bits.congr fun index low _ => same index (Or.inr low)
  contacts := holds.contacts.congr (fun _ _ => rfl)
    fun physSector _ _ => same _ (Or.inr (by simp only [contactRaw]; omega))
  messages := holds.messages.congr (fun _ _ => rfl)
    fun index _ => same _ (Or.inr (by simp only [messageRaw]; omega))
  rings := holds.rings.congr (fun index low _ => same index (Or.inr (by omega))) rfl rfl

end Frame

end SdDatabase
