import SdDatabase.Sector
import SdDatabase.Lib.Crc

/-!
# Damaged sectors

A stamped sector that is changed inside four consecutive bytes, the trailer
included, has a wrong checksum.
-/

namespace SdDatabase

open Bytes

set_option autoImplicit false

/-- The sectors are alike outside the four bytes from `start` on. -/
def AlteredWithin (start : Nat) (sector altered : Sector) : Prop :=
  ∀ index, index < start ∨ start + 4 ≤ index → altered.bytes[index]? = sector.bytes[index]?

def Sector.replaceFront (sector : Sector) (front : List Byte) (short : front.length ≤ sectorSize) :
    Sector where
  bytes := front ++ sector.bytes.drop front.length
  size := by
    rw [List.length_append, List.length_drop, sector.size]
    omega

section Checksum

variable {sector altered : Sector} {start : Nat}

theorem valid_sector_remainder (valid : sectorCrcValid sector = true) :
    Crc.remainder 0xEDB88320#32 0xFFFFFFFF#32 sector.bytes =
      Crc.shifts 0xEDB88320#32 32 0xFFFFFFFF#32 := by
  have stamped := congrArg Sector.bytes (stamp_of_valid valid)
  rw [← stamped]
  exact @Crc.remainder_sealed 32 0xEDB88320#32 4 rfl 0xFFFFFFFF#32 0xFFFFFFFF#32 sector.payload

theorem window_split (bytes : List Byte) (start : Nat) :
    bytes = bytes.take start ++ (bytes.drop start).take 4 ++ bytes.drop (start + 4) := by
  rw [List.append_assoc, ← List.drop_drop, List.take_append_drop, List.take_append_drop]

theorem AlteredWithin.before (within : AlteredWithin start sector altered) :
    altered.bytes.take start = sector.bytes.take start := by
  apply List.ext_getElem?
  intro index
  rw [List.getElem?_take, List.getElem?_take]
  by_cases inside : index < start
  · rw [if_pos inside, if_pos inside, within index (Or.inl inside)]
  · rw [if_neg inside, if_neg inside]

theorem AlteredWithin.after (within : AlteredWithin start sector altered) :
    altered.bytes.drop (start + 4) = sector.bytes.drop (start + 4) := by
  apply List.ext_getElem?
  intro index
  rw [List.getElem?_drop, List.getElem?_drop]
  exact within _ (Or.inr (Nat.le_add_right _ _))

theorem AlteredWithin.invalid (within : AlteredWithin start sector altered)
    (changed : altered ≠ sector) (valid : sectorCrcValid sector = true) :
    sectorCrcValid altered = false := by
  by_contra passes
  rw [Bool.not_eq_false] at passes
  have length : ((altered.bytes.drop start).take 4).length =
      ((sector.bytes.drop start).take 4).length := by
    simp only [List.length_take, List.length_drop, altered.size, sector.size]
  have short : 8 * ((altered.bytes.drop start).take 4).length ≤ 32 := by
    rw [List.length_take]
    omega
  have same : Crc.remainder 0xEDB88320#32 0xFFFFFFFF#32 altered.bytes =
      Crc.remainder 0xEDB88320#32 0xFFFFFFFF#32 sector.bytes := by
    rw [valid_sector_remainder passes, valid_sector_remainder valid]
  rw [window_split altered.bytes start, window_split sector.bytes start, within.before,
    within.after] at same
  have window := Crc.burst_detected (by decide) length short same
  apply changed
  apply Sector.ext
  rw [window_split altered.bytes start, window_split sector.bytes start, within.before,
    within.after, window]

theorem replace_front_within {front : List Byte} (short : front.length ≤ 4) :
    AlteredWithin 0 sector (sector.replaceFront front (short.trans (by decide))) := by
  intro index outside
  have behind : front.length ≤ index := by omega
  rw [Sector.replaceFront, List.getElem?_append_right behind, List.getElem?_drop]
  congr 1
  omega

theorem burst_in_stamped_sector_detected {sector altered : Sector} {start : Nat}
    (within : AlteredWithin start (sectorCrcStamp sector) altered)
    (changed : altered ≠ sectorCrcStamp sector) : sectorCrcValid altered = false :=
  within.invalid changed (stamp_valid sector)

end Checksum

def emptySector : Sector where
  bytes := List.replicate sectorSize 0#8
  size := List.length_replicate

theorem stamp_payload_byte (sector : Sector) {index : Nat} (inside : index < sectorPayloadBytes) :
    (sectorCrcStamp sector).bytes[index]? = sector.bytes[index]? := by
  have bytes := congrArg (fun payload => payload[index]?) (payload_stamp sector)
  change (List.take _ _)[index]? = (List.take _ _)[index]? at bytes
  rwa [List.getElem?_take, List.getElem?_take, if_pos inside, if_pos inside] at bytes

theorem burst_in_empty_sector_detected :
    sectorCrcValid ((sectorCrcStamp emptySector).replaceFront [1#8] (by decide)) = false := by
  apply burst_in_stamped_sector_detected (replace_front_within (by decide))
  intro same
  have first := stamp_payload_byte emptySector (show 0 < sectorPayloadBytes by decide)
  rw [← same] at first
  revert first
  decide

end SdDatabase
