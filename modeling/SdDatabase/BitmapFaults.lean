import SdDatabase.Remount
import SdDatabase.Run

/-!
# The usage bitmap under failing writes

Every update of a usage bit writes one bitmap sector. If that write fails, the
bit goes back and the sector in memory is stamped again, which gives exactly the
bitmap from before. So the bitmap in memory is the one on the card at any time.
-/

namespace SdDatabase

open Bytes Device BitScan

set_option autoImplicit false

/-- A program run to its end on a card on which writes fail as the pattern says. -/
def Machine.attempt {A : Type} (program : DbM A) (writes : Nat → Bool) (machine : Machine) :
    A × Machine :=
  let outcome := exec program machine.db (.failing writes) machine.card
  (outcome.1.1, ⟨outcome.1.2, outcome.2.2⟩)

theorem assign_present {bitmap : UsageBitmap} {dataSector : Nat} {used : Bool}
    (present : usageBit bitmap dataSector = used) :
    assignUsageBit bitmap dataSector used = bitmap := by
  apply UsageBitmap.ext
  funext word
  by_cases here : word = usageBitmapFindIndex dataSector
  · simp only [here, assignUsageBit, UsageBitmap.setWord, Function.update_self]
    apply BitVec.eq_of_getLsbD_eq
    intro bit bound
    rw [masked_bit _ _ bound]
    by_cases same : bit = usageBitmapFindBit dataSector
    · rw [if_pos same, same, ← present, usage_bit_eq]
    · rw [if_neg same]
  · exact assign_word_of_index here

theorem assign_assign (bitmap : UsageBitmap) (dataSector : Nat) (first second : Bool) :
    assignUsageBit (assignUsageBit bitmap dataSector first) dataSector second =
      assignUsageBit bitmap dataSector second := by
  apply UsageBitmap.ext
  funext word
  by_cases here : word = usageBitmapFindIndex dataSector
  · simp only [here, assignUsageBit, UsageBitmap.setWord, Function.update_self]
    apply BitVec.eq_of_getLsbD_eq
    intro bit bound
    rw [masked_bit _ _ bound, masked_bit _ _ bound, masked_bit _ _ bound]
    by_cases same : bit = usageBitmapFindBit dataSector
    · rw [if_pos same, if_pos same]
    · rw [if_neg same, if_neg same, if_neg same]
  · rw [assign_word_of_index here, assign_word_of_index here, assign_word_of_index here]

theorem set_present {bitmap : UsageBitmap} {dataSector : Nat} {used : Bool}
    (present : usageBit bitmap dataSector = used)
    (valid : sectorCrcValid (bitmapSector bitmap (usageBitmapFindSector dataSector)) = true) :
    setUsageBit bitmap dataSector used = bitmap := by
  rw [setUsageBit, assign_present present, stamp_bitmap_of_valid valid]

theorem set_undone {bitmap : UsageBitmap} {dataSector : Nat} {used : Bool}
    (valid : sectorCrcValid (bitmapSector bitmap (usageBitmapFindSector dataSector)) = true)
    (changed : usageBit bitmap dataSector = !used) :
    setUsageBit (setUsageBit bitmap dataSector used) dataSector (!used) = bitmap := by
  have stamped : setUsageBit (setUsageBit bitmap dataSector used) dataSector (!used) =
      setUsageBit (assignUsageBit bitmap dataSector used) dataSector (!used) :=
    set_usage_bit_stamped _ _ _
  rw [stamped, setUsageBit, assign_assign, ← setUsageBit]
  exact set_present changed valid

def cardWord (card : Card Sector) (word : Nat) : BitVec 32 :=
  word32.decode ((card (usageBitmapStartSector + word / elementsPerSector)).bytes.drop
    (word % elementsPerSector * bytesPerElement))

/-- The bitmap in memory is the one on the card, and its sectors are stamped. -/
structure BitmapCoherent (machine : Machine) : Prop where
  words : ∀ word < usageBitmapStorageSize,
    cardWord machine.card word = machine.db.usageBitmap.word word
  stamped : ∀ sector < usageBitmapSectorSize,
    sectorCrcValid (machine.card (usageBitmapStartSector + sector)) = true

/-- One call of `update_usage_bit` and the answers to its writes. -/
structure BitmapUpdate where
  index : Nat
  used : Bool
  writes : Nat → Bool

def Machine.update (machine : Machine) (call : BitmapUpdate) : StrgRet × Machine :=
  machine.attempt (updateUsageBit call.index call.used) call.writes

def Machine.updates (machine : Machine) (calls : List BitmapUpdate) : Machine :=
  calls.foldl (fun reached call => (reached.update call).2) machine

/-- Mirrored with stamped sectors, the form in which the proofs carry coherence. -/
structure Mirrors (bitmap : UsageBitmap) (card : Card Sector) : Prop where
  mirrored : BitmapMirrored bitmap card
  stamped : ∀ sector < usageBitmapSectorSize, sectorCrcValid (bitmapSector bitmap sector) = true

section Mirrors

variable {bitmap : UsageBitmap} {card : Card Sector} {machine : Machine}

theorem Mirrors.coherent (mirrors : Mirrors machine.db.usageBitmap machine.card) :
    BitmapCoherent machine where
  words word bound := by
    have sector : word / 128 < usageBitmapSectorSize := by
      simp at bound ⊢
      omega
    have element : word % 128 < 128 := Nat.mod_lt _ (by decide)
    have stored := mirrors.mirrored (word / 128) sector
    have decoded := bitmap_word_decode machine.db.usageBitmap (word / 128) element
    have place : word / 128 * 128 + word % 128 = word := by omega
    rw [place, ← stored] at decoded
    exact decoded
  stamped sector bound := by
    rw [mirrors.mirrored sector bound]
    exact mirrors.stamped sector bound

theorem Mirrors.set (mirrors : Mirrors bitmap card) {dataSector : Nat} (used : Bool) :
    Mirrors (setUsageBit bitmap dataSector used)
      (Function.update card (usageBitmapStartSector + usageBitmapFindSector dataSector)
        (bitmapSector (setUsageBit bitmap dataSector used) (usageBitmapFindSector dataSector))) where
  mirrored sector bound := by
    by_cases changed : sector = usageBitmapFindSector dataSector
    · rw [changed, Function.update_self]
    · rw [Function.update_of_ne (by omega), set_bitmap_other _ _ _ changed]
      exact mirrors.mirrored sector bound
  stamped sector bound := by
    by_cases changed : sector = usageBitmapFindSector dataSector
    · rw [changed]
      exact set_sector_valid _ _ _
    · rw [set_bitmap_other _ _ _ changed]
      exact mirrors.stamped sector bound

theorem update_cases (mirrors : Mirrors machine.db.usageBitmap machine.card) (call : BitmapUpdate)
    (inside : call.index < usageBitmapSectorSize * usageBitsPerSector) :
    (machine.update call = (.strgOk,
      ⟨{ machine.db with usageBitmap := setUsageBit machine.db.usageBitmap call.index call.used },
        Function.update machine.card
          (usageBitmapStartSector + usageBitmapFindSector call.index)
          (bitmapSector (setUsageBit machine.db.usageBitmap call.index call.used)
            (usageBitmapFindSector call.index))⟩)) ∨
      machine.update call = (.strgFail, machine) := by
  have narrow : u16 call.index = call.index := by
    apply u16_of_lt
    simp at inside
    omega
  have sector : usageBitmapFindSector call.index < usageBitmapSectorSize := by
    simp at inside ⊢
    omega
  have valid := mirrors.stamped _ sector
  unfold Machine.update Machine.attempt
  rw [exec_updateUsageBit, narrow, show (Faults.failing call.writes : Faults Sector).writes =
    call.writes from rfl]
  cases accepted : call.writes 0 with
  | true =>
      left
      rfl
  | false =>
      right
      cases differs : (usageBit machine.db.usageBitmap call.index != call.used) with
      | true =>
          have changed : usageBit machine.db.usageBitmap call.index = !call.used := by
            rw [bne_iff_ne] at differs
            exact Bool.eq_not_of_ne differs
          have undone := set_undone valid changed
          calc
            _ = (StrgRet.strgFail, { machine with db := { machine.db with
                  usageBitmap := setUsageBit (setUsageBit machine.db.usageBitmap call.index
                    call.used) call.index (!call.used) } }) := rfl
            _ = (StrgRet.strgFail, machine) := by rw [undone]
      | false =>
          have present : usageBit machine.db.usageBitmap call.index = call.used := by
            simpa using differs
          calc
            _ = (StrgRet.strgFail, { machine with db := { machine.db with
                  usageBitmap := setUsageBit machine.db.usageBitmap call.index call.used } }) := rfl
            _ = (StrgRet.strgFail, machine) := by rw [set_present present valid]

theorem update_mirrors (mirrors : Mirrors machine.db.usageBitmap machine.card)
    (call : BitmapUpdate) (inside : call.index < usageBitmapSectorSize * usageBitsPerSector) :
    Mirrors (machine.update call).2.db.usageBitmap (machine.update call).2.card := by
  rcases update_cases mirrors call inside with changed | refused
  · rw [changed]
    exact mirrors.set call.used
  · rw [refused]
    exact mirrors

theorem updates_mirror (mirrors : Mirrors machine.db.usageBitmap machine.card)
    {calls : List BitmapUpdate}
    (inside : ∀ call ∈ calls, call.index < usageBitmapSectorSize * usageBitsPerSector) :
    Mirrors (machine.updates calls).db.usageBitmap (machine.updates calls).card := by
  induction calls generalizing machine with
  | nil => exact mirrors
  | cons call rest ih =>
      apply ih (update_mirrors mirrors call (inside call List.mem_cons_self))
      intro later member
      exact inside later (List.mem_cons_of_mem _ member)

theorem attempt_readBitmapSectors (sectors : List Nat) (db : Database) (card : Card Sector)
    (writes : Nat → Bool) :
    exec (readBitmapSectors sectors) db (.failing writes) card =
      ((true, { db with usageBitmap := loadedBitmap card sectors db.usageBitmap }),
        .failing writes, card) := by
  induction sectors generalizing db with
  | nil => rfl
  | cons sector rest ih =>
      unfold readBitmapSectors
      rw [exec_bind_of (exec_readBlock _ _ _ _)]
      refine (exec_bind_of (exec_modify _ _ _ _)).trans ?_
      exact ih _

/-- The bitmap on the card, read over the one in memory. -/
def Machine.loaded (machine : Machine) : UsageBitmap :=
  loadedBitmap machine.card (List.range usageBitmapSectorSize) machine.db.usageBitmap

theorem attempt_readUsageBitmap (machine : Machine) (writes : Nat → Bool) :
    machine.attempt readUsageBitmap writes =
      ((List.range usageBitmapSectorSize).all fun sector =>
        sectorCrcValid (bitmapSector machine.loaded sector),
        { machine with db := { machine.db with usageBitmap := machine.loaded } }) := by
  unfold Machine.attempt readUsageBitmap
  rw [exec_bind_of (attempt_readBitmapSectors _ _ _ _), if_pos rfl,
    exec_bind_of (exec_get _ _ _), exec_pure]
  unfold Machine.loaded
  dsimp only

theorem load_present (bitmap : UsageBitmap) (sector : Nat) :
    loadBitmap bitmap sector (bitmapSector bitmap sector) = bitmap := by
  apply UsageBitmap.ext
  funext word
  unfold loadBitmap
  dsimp only
  split
  · rename_i inside
    have element : word % 128 < 128 := Nat.mod_lt _ (by decide)
    have decoded := bitmap_word_decode bitmap sector element
    have place : sector * 128 + word % 128 = word := by
      have quotient : word / 128 = sector := inside
      omega
    rw [place] at decoded
    exact decoded
  · rfl

theorem loaded_present {sectors : List Nat}
    (mirrored : ∀ sector ∈ sectors,
      card (usageBitmapStartSector + sector) = bitmapSector bitmap sector) :
    loadedBitmap card sectors bitmap = bitmap := by
  induction sectors with
  | nil => rfl
  | cons sector rest ih =>
      have first := mirrored sector List.mem_cons_self
      have others := ih fun later member => mirrored later (List.mem_cons_of_mem _ member)
      rw [loadedBitmap, List.foldl_cons, first, load_present]
      exact others

theorem Mirrors.read (mirrors : Mirrors machine.db.usageBitmap machine.card)
    (writes : Nat → Bool) : machine.attempt readUsageBitmap writes = (true, machine) := by
  have same : machine.loaded = machine.db.usageBitmap :=
    loaded_present fun sector member => mirrors.mirrored sector (List.mem_range.mp member)
  have valid : ((List.range usageBitmapSectorSize).all fun sector =>
      sectorCrcValid (bitmapSector machine.db.usageBitmap sector)) = true := by
    rw [List.all_eq_true]
    intro sector member
    exact mirrors.stamped sector (List.mem_range.mp member)
  rw [attempt_readUsageBitmap, same, valid]

theorem read_mirrors {started : Machine} {writes : Nat → Bool}
    (accepted : machine.attempt readUsageBitmap writes = (true, started)) :
    Mirrors started.db.usageBitmap started.card := by
  rw [attempt_readUsageBitmap, Prod.mk.injEq, List.all_eq_true] at accepted
  have valid := accepted.1
  rw [← accepted.2]
  constructor
  · intro sector bound
    exact (loaded_sector _ _ _ (Or.inl (List.mem_range.mpr bound))).symm
  · intro sector bound
    exact valid sector (List.mem_range.mpr bound)

theorem attempt_writeBitmapSectors (sectors : List Nat) (db : Database) (card : Card Sector)
    (writes : Nat → Bool)
    (accepted : (exec (writeBitmapSectors sectors) db (.failing writes) card).1.1 = true) :
    (exec (writeBitmapSectors sectors) db (.failing writes) card).1.2 = db ∧
      (exec (writeBitmapSectors sectors) db (.failing writes) card).2.2 =
        applyWrites (sectors.map fun sector =>
          (usageBitmapStartSector + sector, bitmapSector db.usageBitmap sector)) card := by
  induction sectors generalizing card writes with
  | nil => exact ⟨rfl, rfl⟩
  | cons sector rest ih =>
      have run : exec (writeBitmapSectors (sector :: rest)) db (.failing writes) card =
          exec (if writes 0 then writeBitmapSectors rest else pure false) db
            (.failing fun index => writes (index + 1))
            (if writes 0 then Function.update card (usageBitmapStartSector + sector)
              (bitmapSector db.usageBitmap sector) else card) := by
        rw [writeBitmapSectors, exec_bind_of (exec_get _ _ _),
          exec_bind_of (exec_writeBlock _ _ _ _ _)]
        rfl
      rw [run] at accepted ⊢
      cases answer : writes 0 with
      | true =>
          simp only [answer, if_true] at accepted ⊢
          exact ih _ _ accepted
      | false =>
          simp only [answer, Bool.false_eq_true, if_false] at accepted
          cases accepted

theorem init_mirrors {started : Machine} {writes : Nat → Bool}
    (accepted : machine.attempt initUsageBitmap writes = (true, started)) :
    Mirrors started.db.usageBitmap started.card := by
  have run : exec initUsageBitmap machine.db (.failing writes) machine.card =
      exec (writeBitmapSectors (List.range usageBitmapSectorSize))
        { machine.db with usageBitmap := formatBitmap } (.failing writes) machine.card := by
    unfold initUsageBitmap
    rw [exec_bind_of (exec_modify _ _ _ _)]
    rfl
  rw [Machine.attempt, run, Prod.mk.injEq] at accepted
  have written := attempt_writeBitmapSectors _ _ _ _ accepted.1
  rw [← accepted.2]
  dsimp only
  rw [written.1, written.2]
  constructor
  · intro sector bound
    have range : 4 ≤ usageBitmapStartSector + sector ∧ usageBitmapStartSector + sector < 12 := by
      simp at bound ⊢
      omega
    have block := bitmap_blocks_apply machine.card formatBitmap (usageBitmapStartSector + sector)
    rw [if_pos range, show usageBitmapStartSector + sector - 4 = sector from
      Nat.add_sub_cancel_left 4 sector] at block
    exact block
  · intro sector bound
    exact format_bitmap_valid bound

end Mirrors

/-- What one call of `update_usage_bit` did. -/
structure BitmapUpdate.Law (call : BitmapUpdate) (before : Machine) (result : StrgRet)
    (after : Machine) : Prop where
  coherent : BitmapCoherent after
  success : result = .strgOk → usageBit after.db.usageBitmap call.index = call.used
  failure : result ≠ .strgOk →
    usageBit after.db.usageBitmap call.index = usageBit before.db.usageBitmap call.index
  others : ∀ other ≠ call.index,
    usageBit after.db.usageBitmap other = usageBit before.db.usageBitmap other
  reread : ∀ writes, after.attempt readUsageBitmap writes = (true, after)

/-- Every usage bit has a place of its own in the array, outside the checksum words. -/
structure UsagePlaces : Prop where
  inside : ∀ index < usageBitmapSectorSize * usageBitsPerSector,
    usageBitmapFindIndex index < usageBitmapStorageSize
  covered : ∀ index, usageBitmapIsCrcWord (usageBitmapFindIndex index) = false
  apart : ∀ first second, usageBitmapFindIndex first = usageBitmapFindIndex second →
    usageBitmapFindBit first = usageBitmapFindBit second → first = second

theorem usage_places : UsagePlaces where
  inside index bound := by
    simp at bound ⊢
    omega
  covered := usage_index_covered
  apart _ _ := usage_position_injective

theorem update_law {machine : Machine}
    (mirrors : Mirrors machine.db.usageBitmap machine.card) (call : BitmapUpdate)
    (inside : call.index < usageBitmapSectorSize * usageBitsPerSector) :
    call.Law machine (machine.update call).1 (machine.update call).2 := by
  have kept := update_mirrors mirrors call inside
  rcases update_cases mirrors call inside with changed | refused
  · have bits : ∀ other, usageBit (machine.update call).2.db.usageBitmap other =
        if other = call.index then call.used else usageBit machine.db.usageBitmap other := by
      intro other
      rw [changed]
      exact usage_bit_set _ _ _ _
    have accepted : (machine.update call).1 = .strgOk := by rw [changed]
    refine ⟨kept.coherent, fun _ => ?_, fun failed => absurd accepted failed,
      fun other different => ?_, kept.read⟩
    · rw [bits, if_pos rfl]
    · rw [bits, if_neg different]
  · have failed : (machine.update call).1 = .strgFail := by rw [refused]
    have same : (machine.update call).2 = machine := by rw [refused]
    refine ⟨kept.coherent, fun succeeded => ?_, fun _ => ?_, fun _ _ => ?_, kept.read⟩
    · rw [failed] at succeeded
      cases succeeded
    · rw [same]
    · rw [same]

/-- Opened by `init_usage_bitmap` or `read_usage_bitmap`. -/
def Machine.OpenedBitmap (machine started : Machine) : Prop :=
  ∃ writes, machine.attempt initUsageBitmap writes = (true, started) ∨
    machine.attempt readUsageBitmap writes = (true, started)

/-- The bitmap in memory is the one on the card after any calls, whatever writes fail. -/
theorem usage_bitmap_coherent {machine started : Machine}
    (opened : machine.OpenedBitmap started) (calls : List BitmapUpdate) (call : BitmapUpdate)
    (inside : ∀ update ∈ call :: calls,
      update.index < usageBitmapSectorSize * usageBitsPerSector) :
    UsagePlaces ∧ BitmapCoherent started ∧
      call.Law (started.updates calls) ((started.updates calls).update call).1
        (started.updates (calls ++ [call])) := by
  have mirrors : Mirrors started.db.usageBitmap started.card := by
    rcases opened with ⟨writes, formatted | loaded⟩
    · exact init_mirrors formatted
    · exact read_mirrors loaded
  have reached := updates_mirror mirrors fun update member =>
    inside update (List.mem_cons_of_mem _ member)
  have law := update_law reached call (inside call List.mem_cons_self)
  have last : started.updates (calls ++ [call]) = ((started.updates calls).update call).2 := by
    rw [Machine.updates, List.foldl_append]
    rfl
  rw [last]
  exact ⟨usage_places, mirrors.coherent, law⟩

/-- A bit set by a write that fails, and then by one that does not. -/
theorem usage_bitmap_coherent_example :
    UsagePlaces ∧ BitmapCoherent (exampleMachine.attempt initUsageBitmap fun _ => true).2 ∧
      BitmapUpdate.Law ⟨4063, true, fun _ => true⟩
        ((exampleMachine.attempt initUsageBitmap fun _ => true).2.updates
          [⟨4063, true, fun _ => false⟩])
        (((exampleMachine.attempt initUsageBitmap fun _ => true).2.updates
          [⟨4063, true, fun _ => false⟩]).update ⟨4063, true, fun _ => true⟩).1
        ((exampleMachine.attempt initUsageBitmap fun _ => true).2.updates
          ([⟨4063, true, fun _ => false⟩] ++ [⟨4063, true, fun _ => true⟩])) := by
  have accepted : (exampleMachine.attempt initUsageBitmap fun _ => true).1 = true := by
    have healthy := exec_healthy initUsageBitmap exampleMachine.db exampleMachine.card
    have result := congrArg (fun outcome => outcome.1.1) healthy
    rw [out_initUsageBitmap] at result
    exact result
  apply usage_bitmap_coherent ⟨fun _ => true, Or.inl (Prod.ext accepted rfl)⟩
  simp

end SdDatabase
