import SdDatabase.Sector
import Mathlib.Data.Fintype.Basic

/-!
# Records stored on the card

The packed C structs of `contact.h`, `message.h`, `ring_buffer.h`,
`message_history.h`, `call_history.h`, `journal.h` and `superheader.h`, each
with the codec that fixes its bytes. The checksum trailer of the sector structs
is not a field: `write_sector` overwrites it and only `sector_crc_valid` reads
it.
-/

namespace SdDatabase

open Bytes

set_option autoImplicit false

/-- A C array member, zero filled. -/
def zeros (count : Nat) : Fin count → Byte := fun _ => 0#8

/-- `memcpy` of a string into the start of a zero-filled array. -/
def padded (count : Nat) (text : List Byte) : Fin count → Byte := fun index => text.getD index 0#8

/-- Element of a C array, or the given value past its end. -/
def arrayGet {A : Type} {count : Nat} (values : Fin count → A) (index : Nat) (past : A) : A :=
  if bound : index < count then values ⟨index, bound⟩ else past

def arraySet {A : Type} {count : Nat} (values : Fin count → A) (index : Nat) (value : A) :
    Fin count → A :=
  fun other => if other.val = index then value else values other

theorem array_get_set_self {A : Type} {count : Nat} (values : Fin count → A) {index : Nat}
    (bound : index < count) (value past : A) :
    arrayGet (arraySet values index value) index past = value := by
  simp [arrayGet, arraySet, bound]

theorem array_get_set_other {A : Type} {count : Nat} (values : Fin count → A) {index other : Nat}
    (different : other ≠ index) (value past : A) :
    arrayGet (arraySet values index value) other past = arrayGet values other past := by
  by_cases bound : other < count
  · rw [arrayGet, dif_pos bound, arrayGet, dif_pos bound, arraySet, if_neg different]
  · rw [arrayGet, dif_neg bound, arrayGet, dif_neg bound]

/-- The C string held by a character array: everything before its first NUL. -/
def cstr {count : Nat} (text : Fin count → Byte) : List Byte :=
  (List.ofFn text).takeWhile (· ≠ 0#8)

/-- A record type that fills the payload of a sector. -/
class SectorRecord (A : Type) where
  codec : Codec A
  width : codec.width = sectorPayloadBytes

section SectorRecord

variable {A : Type} [SectorRecord A]

/-- The record's bytes as a sector buffer, trailer not yet stamped. -/
def toSector (record : A) : Sector :=
  Sector.ofPayload (SectorRecord.codec.encode record)
    ((SectorRecord.codec.encode_length record).trans SectorRecord.width)

def ofSector (sector : Sector) : A := SectorRecord.codec.decode sector.payload

@[simp] theorem of_to_sector (record : A) : ofSector (toSector record) = record := by
  have length := (SectorRecord.codec.encode_length record).trans SectorRecord.width
  have whole : (toSector record).payload = SectorRecord.codec.encode record ++ [] := by
    rw [List.append_nil, Sector.payload, toSector, Sector.ofPayload, List.take_left' length]
  rw [ofSector, whole, SectorRecord.codec.decode_encode]

@[simp] theorem of_sector_stamp (sector : Sector) :
    (ofSector (sectorCrcStamp sector) : A) = ofSector sector := by
  rw [ofSector, payload_stamp, ofSector]

end SectorRecord

structure Contact where
  nameLen : Byte
  name : Fin 64 → Byte
  phoneLen : Byte
  phone : Fin 15 → Byte
  deriving DecidableEq

def Contact.zero : Contact := ⟨0#8, zeros 64, 0#8, zeros 15⟩

def contactCodec : Codec Contact :=
  xmap (pair byte (pair (array 64 byte) (pair byte (array 15 byte))))
    (fun fields => ⟨fields.1, fields.2.1, fields.2.2.1, fields.2.2.2⟩)
    (fun contact => (contact.nameLen, contact.name, contact.phoneLen, contact.phone))
    (fun _ => rfl)

structure ContactSector where
  type : Byte
  usedBitmap : Byte
  contacts : Fin 6 → Contact
  padding : Fin 20 → Byte
  deriving DecidableEq

def ContactSector.zero : ContactSector := ⟨0#8, 0#8, fun _ => .zero, zeros 20⟩

instance : SectorRecord ContactSector where
  codec := xmap (pair byte (pair byte (pair (array 6 contactCodec) (array 20 byte))))
    (fun fields => ⟨fields.1, fields.2.1, fields.2.2.1, fields.2.2.2⟩)
    (fun sector => (sector.type, sector.usedBitmap, sector.contacts, sector.padding))
    (fun _ => rfl)
  width := rfl

structure Message where
  timestampHi : BitVec 16
  timestampLo : BitVec 16
  direction : Byte
  str : Fin 160 → Byte
  padding : Byte
  deriving DecidableEq

def Message.zero : Message := ⟨0#16, 0#16, 0#8, zeros 160, 0#8⟩

def messageCodec : Codec Message :=
  xmap (pair word16 (pair word16 (pair byte (pair (array 160 byte) byte))))
    (fun fields =>
      ⟨fields.1, fields.2.1, fields.2.2.1, fields.2.2.2.1, fields.2.2.2.2⟩)
    (fun message =>
      (message.timestampHi, message.timestampLo, message.direction, message.str, message.padding))
    (fun _ => rfl)

structure MessageSectorHeader where
  next : BitVec 16
  prev : BitVec 16
  msgCount : BitVec 16
  contactIndex : BitVec 16
  deriving DecidableEq

structure MessageSector where
  header : MessageSectorHeader
  messages : Fin 3 → Message
  padding : Fin 2 → Byte
  deriving DecidableEq

def messageSectorHeaderCodec : Codec MessageSectorHeader :=
  xmap (pair word16 (pair word16 (pair word16 word16)))
    (fun fields => ⟨fields.1, fields.2.1, fields.2.2.1, fields.2.2.2⟩)
    (fun header => (header.next, header.prev, header.msgCount, header.contactIndex))
    (fun _ => rfl)

instance : SectorRecord MessageSector where
  codec := xmap (pair messageSectorHeaderCodec (pair (array 3 messageCodec) (array 2 byte)))
    (fun fields => ⟨fields.1, fields.2.1, fields.2.2⟩)
    (fun sector => (sector.header, sector.messages, sector.padding))
    (fun _ => rfl)
  width := rfl

def rbEmpty : Byte := 0#8
def rbOccupied : Byte := 1#8
def rbFull : Byte := 2#8

structure RingBufferHeader where
  seq : BitVec 32
  head : Byte
  state : Byte
  padding : Fin 2 → Byte
  deriving DecidableEq

def ringBufferHeaderCodec : Codec RingBufferHeader :=
  xmap (pair word32 (pair byte (pair byte (array 2 byte))))
    (fun fields => ⟨fields.1, fields.2.1, fields.2.2.1, fields.2.2.2⟩)
    (fun header => (header.seq, header.head, header.state, header.padding))
    (fun _ => rfl)

/-- A ring buffer sector of `capacity` entries and `spare` padding bytes. -/
structure RingSector (E : Type) (capacity spare : Nat) where
  header : RingBufferHeader
  entries : Fin capacity → E
  padding : Fin spare → Byte

def ringSectorCodec {E : Type} (capacity spare : Nat) (entry : Codec E) :
    Codec (RingSector E capacity spare) :=
  xmap (pair ringBufferHeaderCodec (pair (array capacity entry) (array spare byte)))
    (fun fields => ⟨fields.1, fields.2.1, fields.2.2⟩)
    (fun sector => (sector.header, sector.entries, sector.padding))
    (fun _ => rfl)

/-- The view of `ring_buffer.c`, which knows only the header. -/
abbrev RingBufferSector := RingSector Byte 500 0

instance : SectorRecord RingBufferSector where
  codec := ringSectorCodec 500 0 byte
  width := rfl

def RingBufferSector.zero : RingBufferSector :=
  ⟨⟨0#32, 0#8, 0#8, zeros 2⟩, zeros 500, zeros 0⟩

structure MessageHistoryEntry where
  msgInd : BitVec 16
  message : Message
  deriving DecidableEq

def messageHistoryEntryCodec : Codec MessageHistoryEntry :=
  xmap (pair word16 messageCodec) (fun fields => ⟨fields.1, fields.2⟩)
    (fun entry => (entry.msgInd, entry.message)) (fun _ => rfl)

abbrev MessageHistorySector := RingSector MessageHistoryEntry 2 164

instance : SectorRecord MessageHistorySector where
  codec := ringSectorCodec 2 164 messageHistoryEntryCodec
  width := rfl

structure CallHistoryEntry where
  contactIndex : BitVec 16
  contact : Contact
  padding : Byte
  deriving DecidableEq

def callHistoryEntryCodec : Codec CallHistoryEntry :=
  xmap (pair word16 (pair contactCodec byte)) (fun fields => ⟨fields.1, fields.2.1, fields.2.2⟩)
    (fun entry => (entry.contactIndex, entry.contact, entry.padding)) (fun _ => rfl)

abbrev CallHistorySector := RingSector CallHistoryEntry 5 80

instance : SectorRecord CallHistorySector where
  codec := ringSectorCodec 5 80 callHistoryEntryCodec
  width := rfl

def jrnlMagic : BitVec 32 := 0x4A524E5C#32
def jrnlHeaderMagicEmpty : BitVec 32 := 0x00000000#32
def jrnlHeaderMagicFull : BitVec 32 := 0xFFFFFFFF#32

def jrnlEmpty : Byte := 0#8
def jrnlActive : Byte := 1#8
def jrnlCommitted : Byte := 2#8

inductive JrnlType where
  | contact
  | message
  | callHist
  | msgHist
  | remove
  deriving DecidableEq

def JrnlType.code : JrnlType → Byte
  | .contact => 0#8
  | .message => 1#8
  | .callHist => 2#8
  | .msgHist => 3#8
  | .remove => 4#8

structure JournalHeader where
  magic : BitVec 32
  state : Byte
  type : Byte
  sector : BitVec 16
  padding : Fin 500 → Byte
  deriving DecidableEq

def JournalHeader.zero : JournalHeader := ⟨0#32, 0#8, 0#8, 0#16, zeros 500⟩

instance : SectorRecord JournalHeader where
  codec := xmap (pair word32 (pair byte (pair byte (pair word16 (array 500 byte)))))
    (fun fields =>
      ⟨fields.1, fields.2.1, fields.2.2.1, fields.2.2.2.1, fields.2.2.2.2⟩)
    (fun header =>
      (header.magic, header.state, header.type, header.sector, header.padding))
    (fun _ => rfl)
  width := rfl

def suprHeadMagic : BitVec 32 := 0x53444D42#32
def suprHeadBlankEmpty : BitVec 32 := 0x00000000#32
def suprHeadBlankFull : BitVec 32 := 0xFFFFFFFF#32
def dbCurrentVersion : BitVec 32 := 1#32

structure SuperHeader where
  magic : BitVec 32
  version : BitVec 32
  dbStart : BitVec 32
  dbEnd : BitVec 32
  padding : Fin 492 → Byte
  deriving DecidableEq

instance : SectorRecord SuperHeader where
  codec := xmap (pair word32 (pair word32 (pair word32 (pair word32 (array 492 byte)))))
    (fun fields =>
      ⟨fields.1, fields.2.1, fields.2.2.1, fields.2.2.2.1, fields.2.2.2.2⟩)
    (fun header =>
      (header.magic, header.version, header.dbStart, header.dbEnd, header.padding))
    (fun _ => rfl)
  width := rfl

end SdDatabase
