import SdDatabase.Format
import SdDatabase.SectorDamage

/-!
# Damaged superheaders

A right sector that is changed inside four consecutive bytes has a wrong checksum.
The status of such a superheader rests on its magic alone, so the start-up leaves
the card as it is unless the damage makes the magic look blank.
-/

namespace SdDatabase

open Bytes Device

set_option autoImplicit false

section Damage

variable {written altered : Sector}

def MagicBlank (sector : Sector) : Prop :=
  (ofSector sector : SuperHeader).magic = suprHeadBlankEmpty ∨
    (ofSector sector : SuperHeader).magic = suprHeadBlankFull

instance (sector : Sector) : Decidable (MagicBlank sector) :=
  inferInstanceAs (Decidable (_ ∨ _))

theorem superheader_magic (sector : Sector) :
    (ofSector sector : SuperHeader).magic =
      BitVec.ofNat 32 (fromLittleEndian (sector.bytes.take 4)) := by
  have front : sector.payload.take 4 = sector.bytes.take 4 := by
    rw [Sector.payload, List.take_take]
    rfl
  rw [← front]
  rfl

theorem invalid_superheader_status (invalid : sectorCrcValid altered = false) :
    getSuperheaderStatus altered = if MagicBlank altered then .uninitialised else .corrupted := by
  unfold getSuperheaderStatus
  rw [invalid]
  rfl

theorem superheader_produced {db : Database} {card : Card Sector}
    (produced : (out superheaderInit db card).2 = [(superheaderSector, written)]) :
    written = sectorCrcStamp (toSector formattedSuperheader) := by
  rw [out_superheaderInit] at produced
  exact (congrArg Prod.snd (List.head_eq_of_cons_eq produced)).symm

theorem superheader_check_run (db : Database) (card : Card Sector) :
    out superheaderCheck db card =
      ((getSuperheaderStatus (card superheaderSector), db), []) := rfl

theorem corrupted_superheader_kept {db : Database} {card : Card Sector}
    (status : getSuperheaderStatus (card superheaderSector) = .corrupted) :
    out databaseInit db card = ((.strgCorrupt, db.clear), []) := by
  have check := superheader_check_run db.clear card
  rw [status] at check
  unfold databaseInit
  rw [out_bind_of (out_modify _ _ _), apply_writes_nil, out_bind_of check]
  rfl

theorem uninitialised_superheader_formats {db : Database} {card : Card Sector}
    (status : getSuperheaderStatus (card superheaderSector) = .uninitialised) :
    out databaseInit db card = ((.strgOk, formattedDatabase), formatLog) := by
  have check := superheader_check_run db.clear card
  rw [status] at check
  have run : out databaseInit db card =
      ((.strgOk, formattedDatabase), [] ++ ([] ++ formatLog)) := by
    unfold databaseInit
    refine out_bind_both (out_modify _ _ _) ?_
    refine out_bind_both check ?_
    exact out_databaseFormat _ _
  rw [List.nil_append, List.nil_append] at run
  exact run

/-- What the start-up owes to a damaged superheader. -/
def DamageReported (altered : Sector) : Prop :=
  getSuperheaderStatus altered ≠ .uninitialised ∧ getSuperheaderStatus altered ≠ .good ∧
    ∀ (db : Database) (card : Card Sector), card superheaderSector = altered →
      ∃ ret next, ret ≠ .strgOk ∧ out databaseInit db card = ((ret, next), [])

/-- A damaged superheader is reported, and nothing is written, exactly if the damage does not
make its magic look blank. -/
theorem superheader_damage_reported {db : Database} {card : Card Sector} {start : Nat}
    (produced : (out superheaderInit db card).2 = [(superheaderSector, written)])
    (within : AlteredWithin start written altered) (changed : altered ≠ written) :
    DamageReported altered ↔ ¬ MagicBlank altered := by
  have valid : sectorCrcValid written = true := by
    rw [superheader_produced produced]
    exact stamp_valid _
  have status := invalid_superheader_status (within.invalid changed valid)
  constructor
  · intro reported blank
    rw [if_pos blank] at status
    exact reported.1 status
  · intro shown
    rw [if_neg shown] at status
    refine ⟨?_, ?_, fun other damaged place => ?_⟩
    · rw [status]
      decide
    · rw [status]
      decide
    · rw [← place] at status
      exact ⟨.strgCorrupt, other.clear, by decide, corrupted_superheader_kept status⟩

/-- The superheader of a formatted card as it is written. -/
def superheaderBlock : Sector := sectorCrcStamp (toSector formattedSuperheader)

/-- Its lowest magic byte is cleared. -/
def dentedSuperheader : Sector := superheaderBlock.replaceFront [0#8] (by decide)

/-- The four bytes of its magic are cleared. -/
def blankedSuperheader : Sector :=
  superheaderBlock.replaceFront (List.replicate 4 0#8) (by decide)

theorem superheader_block_magic :
    (ofSector superheaderBlock : SuperHeader).magic = suprHeadMagic := by
  simp [superheaderBlock, formattedSuperheader]

theorem replaced_magic {sector : Sector} {front : List Byte} (short : front.length ≤ 4) :
    (ofSector (sector.replaceFront front (short.trans (by decide))) : SuperHeader).magic =
      BitVec.ofNat 32 (fromLittleEndian (front ++ (sector.bytes.drop front.length).take
        (4 - front.length))) := by
  rw [superheader_magic, Sector.replaceFront, List.take_append, List.take_of_length_le short]

theorem blanked_superheader_blank : MagicBlank blankedSuperheader := by
  left
  rw [blankedSuperheader, replaced_magic (by decide)]
  rfl

theorem superheader_block_front :
    superheaderBlock.bytes.take 4 = toLittleEndian 4 suprHeadMagic.toNat := by
  have length : (superheaderBlock.bytes.take 4).length = 4 := by
    rw [List.length_take, superheaderBlock.size]
    rfl
  have whole := to_from_little_endian (superheaderBlock.bytes.take 4)
  rw [length] at whole
  have narrow := from_to_little_endian 4 (fromLittleEndian (superheaderBlock.bytes.take 4))
  rw [whole] at narrow
  rw [← superheader_block_magic, superheader_magic, BitVec.toNat_ofNat]
  calc
    superheaderBlock.bytes.take 4 =
        toLittleEndian 4 (fromLittleEndian (superheaderBlock.bytes.take 4)) := whole.symm
    _ = toLittleEndian 4 (fromLittleEndian (superheaderBlock.bytes.take 4) % 2 ^ 32) :=
      congrArg _ narrow

theorem dented_superheader_magic :
    (ofSector dentedSuperheader : SuperHeader).magic = 0x53444D00#32 := by
  have rest : (superheaderBlock.bytes.drop 1).take 3 = [0x4D#8, 0x44#8, 0x53#8] := by
    rw [List.take_drop, superheader_block_front]
    rfl
  rw [dentedSuperheader, replaced_magic (by decide), List.length_singleton, rest]
  rfl

theorem superheader_damage_reported_dented :
    DamageReported dentedSuperheader ∧ ¬ MagicBlank dentedSuperheader := by
  have shown : ¬ MagicBlank dentedSuperheader := by
    rw [MagicBlank, dented_superheader_magic]
    decide
  have changed : dentedSuperheader ≠ superheaderBlock := by
    intro same
    have magic := dented_superheader_magic
    rw [same, superheader_block_magic] at magic
    revert magic
    decide
  have produced : (out superheaderInit formattedDatabase fun _ => nullContent).2 =
      [(superheaderSector, superheaderBlock)] :=
    congrArg Prod.snd (out_superheaderInit formattedDatabase _)
  exact ⟨(superheader_damage_reported produced (replace_front_within (by decide)) changed).mpr
    shown, shown⟩

/-- Four cleared bytes make the start-up format a card that holds a database. -/
theorem superheader_damage_formats :
    (∀ (db : Database) (card : Card Sector),
      (out superheaderInit db card).2 = [(superheaderSector, superheaderBlock)]) ∧
    AlteredWithin 0 superheaderBlock blankedSuperheader ∧
    blankedSuperheader ≠ superheaderBlock ∧
    getSuperheaderStatus blankedSuperheader = .uninitialised ∧
    (∀ (db : Database) (card : Card Sector), card superheaderSector = blankedSuperheader →
      out databaseInit db card = ((.strgOk, formattedDatabase), formatLog)) ∧
    ¬ DamageReported blankedSuperheader := by
  have within : AlteredWithin 0 superheaderBlock blankedSuperheader :=
    replace_front_within (by decide)
  have changed : blankedSuperheader ≠ superheaderBlock := by
    intro same
    have blank := blanked_superheader_blank
    rw [same, MagicBlank, superheader_block_magic] at blank
    revert blank
    decide
  have status := invalid_superheader_status (within.invalid changed (stamp_valid _))
  rw [if_pos blanked_superheader_blank] at status
  refine ⟨fun _ _ => rfl, within, changed, status, fun db card place => ?_, ?_⟩
  · rw [← place] at status
    exact uninitialised_superheader_formats status
  · exact fun reported => reported.1 status

end Damage

end SdDatabase
