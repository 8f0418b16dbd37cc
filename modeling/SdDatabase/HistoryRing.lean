import SdDatabase.Lib.SectorRing
import SdDatabase.RingMount

/-!
# Reading a history

The sectors of a history, followed backwards from the current one, hold the
entries of a ring of sectors with the newest entry first. A range read from the
newest entry on is the start of that list, for any number of sectors.
-/

namespace SdDatabase

open Bytes Device

set_option autoImplicit false

section Reading

variable {E : Type} (layout : HistoryLayout E)

/-- The entries in the slots below `count`, newest first. -/
def entriesBelow (content : Sector) (count : Nat) : List E :=
  ((List.range count).map fun slot =>
    arrayGet (ofSector content : RingSector E layout.capacity layout.spare).entries slot
      layout.blank).reverse

def historyEntries (content : Sector) : List E :=
  entriesBelow layout content ((ringHeader content).head.toNat + 1)

/-- The sectors of a range, backwards from `index`. -/
def ringVisits (occupancy : Nat) : Nat → Nat → List Nat
  | 0, _ => []
  | left + 1, index => index :: ringVisits occupancy left (ringIteratorPrev occupancy index)

theorem entries_below_succ (content : Sector) (count : Nat) :
    entriesBelow layout content (count + 1) =
      arrayGet (ofSector content : RingSector E layout.capacity layout.spare).entries count
        layout.blank :: entriesBelow layout content count := by
  rw [entriesBelow, List.range_succ, List.map_append, List.reverse_append]
  rfl

@[simp] theorem entries_below_length (content : Sector) (count : Nat) :
    (entriesBelow layout content count).length = count := by
  rw [entriesBelow, List.length_reverse, List.length_map, List.length_range]

@[simp] theorem history_entries_length (content : Sector) :
    (historyEntries layout content).length = (ringHeader content).head.toNat + 1 :=
  entries_below_length layout content _

theorem copy_entries_eq (content : Sector) (n count : Nat) (read : List E)
    (short : read.length ≤ n) :
    copyEntries layout n (ofSector content) count read =
      (read ++ entriesBelow layout content count).take n := by
  induction count generalizing read with
  | zero =>
      rw [copyEntries, entriesBelow, List.range_zero, List.map_nil, List.reverse_nil,
        List.append_nil, List.take_of_length_le short]
  | succ count ih =>
      rw [copyEntries, entries_below_succ]
      by_cases more : read.length < n
      · rw [if_pos more, ih _ (by rw [List.length_append]; exact more), List.append_assoc]
        rfl
      · have complete : read.length = n := by omega
        rw [if_neg more, ← complete, List.take_left]

omit layout in
theorem take_append_of_take (first second : List E) (n : Nat) :
    (first.take n ++ second).take n = (first ++ second).take n := by
  have rest : n - min n first.length = n - first.length := by omega
  rw [List.take_append, List.take_append, List.take_take, List.length_take, Nat.min_self, rest]

variable {layout} {db : Database} {card : Card Sector} {n : Nat}

/-- Every sector read has a valid checksum and was started. -/
def SectorReadable (layout : HistoryLayout E) (card : Card Sector) (index : Nat) : Prop :=
  ringRaw layout index < 65536 ∧ sectorCrcValid (card (ringRaw layout index)) = true ∧
    (ringHeader (card (ringRaw layout index))).state ≠ rbEmpty

variable (frame : layout.Frame)

include frame

theorem out_readHistory {index : Nat} (readable : SectorReadable layout card index) (pos : Nat)
    {read : List E} (short : read.length ≤ n) :
    out (readHistory layout index pos n read) db card =
      (((.strgOk, (read ++ entriesBelow layout (card (ringRaw layout index)) (pos + 1)).take n),
        db), []) := by
  rcases readable with ⟨region, valid, started⟩
  unfold readHistory
  rw [out_bind_of (out_readHistorySector region valid db)]
  dsimp only
  rw [frame.header, if_neg started, copy_entries_eq layout _ n _ _ short]
  rfl

theorem out_readOlderHistory (occupancy left index : Nat) (read : List E)
    (short : read.length ≤ n)
    (readable : ∀ visited ∈ ringVisits occupancy left index, SectorReadable layout card visited) :
    out (readOlderHistory layout occupancy n left index read) db card =
      (((.strgOk, (read ++ (ringVisits occupancy left index).flatMap fun visited =>
        entriesBelow layout (card (ringRaw layout visited)) layout.capacity).take n), db), []) := by
  induction left generalizing index read with
  | zero =>
      rw [readOlderHistory, ringVisits, List.flatMap_nil, List.append_nil,
        List.take_of_length_le short]
      rfl
  | succ left ih =>
      have capacity := frame.capacity.1
      have first := readable index (by rw [ringVisits]; exact List.mem_cons_self)
      unfold readOlderHistory
      by_cases complete : n ≤ read.length
      · have same : read.length = n := by omega
        rw [if_pos complete, ← same, List.take_left]
        rfl
      · rw [if_neg complete, out_bind_of (out_readHistory frame first _ short)]
        dsimp only
        rw [apply_writes_nil, List.nil_append, Nat.sub_add_cancel capacity,
          ih _ _ (List.length_take_le _ _) fun visited member =>
            readable visited (by rw [ringVisits]; exact List.mem_cons_of_mem _ member)]
        rw [ringVisits, List.flatMap_cons, ← List.append_assoc, take_append_of_take]

section Range

variable {rb : RingBuffer} (known : layout.ring db = rb)
  (current : SectorReadable layout card rb.currentIndex) {start startHead : Nat} {skipped : Int}
  (begins : historyStart layout.capacity (ringHeader (card (ringRaw layout rb.currentIndex))) start =
    (skipped, startHead))

include known current begins

theorem out_historyGetRange (small : startHead < 256) (within : skipped < rb.occupancy)
    {index left : Nat} (first : startRbIndex rb skipped = index) (inside : index < rb.occupancy)
    (remaining : (cInt (rb.occupancy - skipped)).toNat - 1 = left)
    (readable : ∀ visited ∈ ringVisits rb.occupancy (left + 1) index,
      SectorReadable layout card visited) (n : Nat) :
    out (historyGetRange layout start n) db card =
      (((.strgOk, (entriesBelow layout (card (ringRaw layout index)) (startHead + 1) ++
        (ringVisits rb.occupancy left (ringIteratorPrev rb.occupancy index)).flatMap fun visited =>
          entriesBelow layout (card (ringRaw layout visited)) layout.capacity).take n), db), []) := by
  have firstReadable := readable index List.mem_cons_self
  unfold historyGetRange
  rw [out_bind_of (out_get _ _), known]
  simp only [apply_writes_nil, List.nil_append]
  rw [out_bind_of (out_readHistorySector current.1 current.2.1 db)]
  dsimp only
  rw [frame.header, if_neg current.2.2, begins]
  simp only [first, remaining, Nat.mod_eq_of_lt small, apply_writes_nil, List.nil_append]
  rw [if_neg (by omega), if_neg (by omega),
    out_bind_of (out_readHistory frame firstReadable _ (Nat.zero_le n))]
  simp only [apply_writes_nil, List.nil_append]
  rw [out_readOlderHistory frame _ _ _ _ (List.length_take_le _ _)
    fun visited member => readable visited (List.mem_cons_of_mem _ member), take_append_of_take]

theorem out_historyGetRange_past
    (past : rb.occupancy ≤ skipped ∨ rb.occupancy - 1 < startRbIndex rb skipped) (n : Nat) :
    out (historyGetRange layout start n) db card = (((.strgFail, []), db), []) := by
  unfold historyGetRange
  rw [out_bind_of (out_get _ _), known]
  simp only [apply_writes_nil, List.nil_append]
  rw [out_bind_of (out_readHistorySector current.1 current.2.1 db)]
  dsimp only
  rw [frame.header, if_neg current.2.2, begins]
  dsimp only
  by_cases beyond : rb.occupancy ≤ skipped
  · rw [if_pos beyond]
    rfl
  · rw [if_neg beyond, if_pos (past.resolve_left beyond)]
    rfl

end Range

omit frame in
/-- On a current sector that was never started there is nothing to read. -/
theorem out_historyGetRange_empty {rb : RingBuffer} (known : layout.ring db = rb)
    (region : ringRaw layout rb.currentIndex < 65536)
    (valid : sectorCrcValid (card (ringRaw layout rb.currentIndex)) = true)
    (header : (ofSector (card (ringRaw layout rb.currentIndex)) :
      RingSector E layout.capacity layout.spare).header.state = rbEmpty) (start n : Nat) :
    out (historyGetRange layout start n) db card = (((.strgOk, []), db), []) := by
  unfold historyGetRange
  rw [out_bind_of (out_get _ _), known]
  simp only [apply_writes_nil, List.nil_append]
  rw [out_bind_of (out_readHistorySector region valid db)]
  dsimp only
  rw [if_pos header]
  rfl

end Reading

end SdDatabase
