import SdDatabase.State

/-!
# Superheader

`superheader.c`: the first sector of the card tells whether it holds a database.
-/

namespace SdDatabase

open Bytes Device

set_option autoImplicit false

inductive SuprHeadStatus where
  | good
  | uninitialised
  | corrupted
  | outdated
  | fail
  deriving DecidableEq

def getSuperheaderStatus (sector : Sector) : SuprHeadStatus :=
  let header : SuperHeader := ofSector sector
  if !sectorCrcValid sector then
    if header.magic = suprHeadBlankEmpty ∨ header.magic = suprHeadBlankFull then .uninitialised
    else .corrupted
  else if header.magic ≠ suprHeadMagic then .uninitialised
  else if header.version ≠ dbCurrentVersion then .outdated
  else .good

def formattedSuperheader : SuperHeader where
  magic := suprHeadMagic
  version := dbCurrentVersion
  dbStart := BitVec.ofNat 32 dataRegionStartSector
  dbEnd := BitVec.ofNat 32
    (dataRegionStartSector + callHistoryDataStartSector + totalCallHistorySectorSize)
  padding := zeros 492

def superheaderInit : DbM StrgRet :=
  writeSector superheaderSector (toSector formattedSuperheader)

def superheaderCheck : DbM SuprHeadStatus := do
  match ← readSectorRaw superheaderSector with
  | .error _ => return .fail
  | .ok sector => return getSuperheaderStatus sector

theorem formatted_superheader_good :
    getSuperheaderStatus (sectorCrcStamp (toSector formattedSuperheader)) = .good := by
  simp [getSuperheaderStatus, formattedSuperheader]

end SdDatabase
