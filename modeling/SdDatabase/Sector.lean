import SdDatabase.Layout
import SdDatabase.Lib.Codec
import SdDatabase.Lib.Device

/-!
# Sectors and their checksum trailers

`crc.c` and `storage.c`: a sector is 512 bytes, the last four of which hold the
CRC-32 of the others. Stamping makes a sector valid and keeps its payload.
-/

namespace SdDatabase

open Bytes

set_option autoImplicit false

def crcShift (crc : BitVec 32) : BitVec 32 :=
  if crc.getLsbD 0 then (crc >>> 1) ^^^ 0xEDB88320#32 else crc >>> 1

def crcByte (crc : BitVec 32) (data : Byte) : BitVec 32 :=
  Nat.repeat crcShift 8 (crc ^^^ data.setWidth 32)

def crc32Calculate (data : List Byte) : BitVec 32 :=
  data.foldl crcByte 0xFFFFFFFF#32 ^^^ 0xFFFFFFFF#32

structure Sector where
  bytes : List Byte
  size : bytes.length = sectorSize
  deriving DecidableEq

attribute [ext] Sector

namespace Sector

def payload (sector : Sector) : List Byte := sector.bytes.take sectorPayloadBytes

def trailer (sector : Sector) : List Byte := sector.bytes.drop sectorPayloadBytes

theorem payload_length (sector : Sector) : sector.payload.length = sectorPayloadBytes := by
  simp [payload, sector.size]

/-- A sector buffer with the given payload and an empty trailer. -/
def ofPayload (payload : List Byte) (length : payload.length = sectorPayloadBytes) : Sector where
  bytes := payload ++ List.replicate sectorCrcBytes 0#8
  size := by simp [length]

end Sector

def sectorCrcStamp (sector : Sector) : Sector where
  bytes := sector.payload ++ toLittleEndian sectorCrcBytes (crc32Calculate sector.payload).toNat
  size := by
    have length := sector.payload_length
    simp only [List.length_append, to_little_endian_length, length]
    rfl

def sectorCrcValid (sector : Sector) : Bool :=
  fromLittleEndian sector.trailer == (crc32Calculate sector.payload).toNat

@[simp] theorem payload_stamp (sector : Sector) :
    (sectorCrcStamp sector).payload = sector.payload := by
  have length := sector.payload_length
  rw [Sector.payload, sectorCrcStamp, List.take_left' length]

@[simp] theorem stamp_valid (sector : Sector) : sectorCrcValid (sectorCrcStamp sector) = true := by
  have length := sector.payload_length
  have bound := (crc32Calculate sector.payload).isLt
  simp only [sectorCrcValid, payload_stamp, beq_iff_eq]
  rw [Sector.trailer, sectorCrcStamp, List.drop_left' length, from_to_little_endian]
  exact Nat.mod_eq_of_lt (by simpa using bound)

/-- The sector with a checksum that is off by one. -/
def spoiled (sector : Sector) : Sector where
  bytes := sector.payload ++
    toLittleEndian sectorCrcBytes ((crc32Calculate sector.payload).toNat + 1)
  size := by
    have length := sector.payload_length
    simp only [List.length_append, to_little_endian_length, length]
    rfl

theorem payload_spoiled (sector : Sector) : (spoiled sector).payload = sector.payload := by
  have length := sector.payload_length
  rw [Sector.payload, spoiled, List.take_left' length]

theorem spoiled_invalid (sector : Sector) : sectorCrcValid (spoiled sector) = false := by
  have length := sector.payload_length
  have bound := (crc32Calculate sector.payload).isLt
  rw [sectorCrcValid, payload_spoiled, beq_eq_false_iff_ne]
  rw [Sector.trailer, spoiled, List.drop_left' length, from_to_little_endian]
  simp only [sectorCrcBytes]
  omega

theorem stamp_of_valid {sector : Sector} (valid : sectorCrcValid sector = true) :
    sectorCrcStamp sector = sector := by
  have trailerLength : sector.trailer.length = 4 := by
    simp [Sector.trailer, sector.size]
  have stored : fromLittleEndian sector.trailer = (crc32Calculate sector.payload).toNat := by
    simpa [sectorCrcValid] using valid
  have bytes : toLittleEndian 4 (fromLittleEndian sector.trailer) = sector.trailer := by
    have := to_from_little_endian sector.trailer
    rwa [trailerLength] at this
  have whole : sector.payload ++ sector.trailer = sector.bytes :=
    List.take_append_drop sectorPayloadBytes sector.bytes
  apply Sector.ext
  calc
    (sectorCrcStamp sector).bytes =
        sector.payload ++ toLittleEndian 4 (crc32Calculate sector.payload).toNat := rfl
    _ = sector.payload ++ sector.trailer := by rw [← stored, bytes]
    _ = sector.bytes := whole

end SdDatabase
