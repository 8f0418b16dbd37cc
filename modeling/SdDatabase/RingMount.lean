import SdDatabase.HistoryStore

/-!
# Finding the position of a ring

The binary search of `ring_buffer.c` over a ring that holds: a sector before the
current one, and it alone, has the sequence number that its place in the ring
foretells, so the search stops at the current sector.
-/

namespace SdDatabase

open Bytes Device

set_option autoImplicit false

/-- What the search for the current sector relies on. -/
structure RingSearchable (size started : Nat) (sector : Nat → Sector) : Prop where
  valid : ∀ index < size, sectorCrcValid (sector index) = true
  empty_iff : ∀ index < size, (ringHeader (sector index)).state = rbEmpty ↔ started ≤ index
  right : 0 < started → ∀ mid < size,
    binarySearchTargetRight (ringHeader (sector mid)) (ringHeader (sector 0)).seq mid =
      decide (mid ≤ (started - 1) % size)
  number : 0 < started →
    (ringHeader (sector ((started - 1) % size))).seq = BitVec.ofNat 32 (started - 1)

section RingMount

variable {capacity started rawStart : Nat} {sector : Nat → Sector} {db : Database}
  {card : Card Sector}

theorem RingHolds.not_empty (ring : RingHolds capacity started sector) {index : Nat}
    (bound : index < 5000) (below : index < started) :
    (ringHeader (sector index)).state ≠ rbEmpty := by
  by_cases current : index = (started - 1) % 5000
  · rcases ring.current (by omega) with full | ⟨occupied, _⟩
    · rw [current, full]
      decide
    · rw [current, occupied]
      decide
  · rw [ring.past index bound below current]
    decide

theorem RingHolds.empty_iff (ring : RingHolds capacity started sector) {index : Nat}
    (bound : index < 5000) : (ringHeader (sector index)).state = rbEmpty ↔ started ≤ index := by
  constructor
  · intro empty
    by_contra below
    exact ring.not_empty bound (by omega) empty
  · exact ring.blank index bound

/-- The sequence number counts on from the first sector up to the current one. -/
theorem RingHolds.target_right (ring : RingHolds capacity started sector) (some_ : 0 < started)
    {mid : Nat} (bound : mid < 5000) :
    binarySearchTargetRight (ringHeader (sector mid)) (ringHeader (sector 0)).seq mid =
      decide (mid ≤ (started - 1) % 5000) := by
  have first := ring.numbered 0 (by omega) some_
  unfold binarySearchTargetRight
  by_cases below : mid < started
  · have state := ring.not_empty bound below
    have number := ring.numbered mid bound below
    have place : (BitVec.ofNat 32 (ringRound started mid) -
        BitVec.ofNat 32 (ringRound started 0)).toNat = mid ↔ mid ≤ (started - 1) % 5000 := by
      rw [BitVec.toNat_sub, BitVec.toNat_ofNat, BitVec.toNat_ofNat]
      unfold ringRound
      omega
    rw [first, number, decide_eq_true state, Bool.true_and, beq_eq_decide, decide_eq_decide]
    exact place
  · have state := ring.blank mid bound (by omega)
    have behind : ¬mid ≤ (started - 1) % 5000 := by
      have := Nat.mod_le (started - 1) 5000
      omega
    rw [state, decide_eq_false behind]
    rfl

theorem RingHolds.searchable (ring : RingHolds capacity started sector) :
    RingSearchable 5000 started sector where
  valid := ring.valid
  empty_iff _ := ring.empty_iff
  right some_ _ := ring.target_right some_
  number some_ := by
    have bound : (started - 1) % 5000 < 5000 := Nat.mod_lt _ (by decide)
    have number := ring.numbered _ bound (by have := Nat.mod_le (started - 1) 5000; omega)
    rwa [ring_round_current some_] at number

section Reads

variable {size : Nat} (ring : RingSearchable size started sector)
  (stored : ∀ index < size, card (rawStart + index) = sector index)
  (region : rawStart + size ≤ 65536)

include ring stored region

theorem out_seqAndStateAt {index : Nat} (bound : index < size) :
    out (seqAndStateAt rawStart index) db card =
      ((.ok (ringHeader (sector index)), db), []) := by
  have place : u16 (u16 (u16 index + rawStart)) = rawStart + index := by
    rw [u16_of_lt (show index < 65536 by omega), u16_of_lt (show index + rawStart < 65536 by omega),
      u16_of_lt (by omega), Nat.add_comm]
  have valid := ring.valid index bound
  have read : out (readRingBufferSector rawStart (u16 index)) db card =
      ((.ok (ofSector (sector index)), db), []) := by
    unfold readRingBufferSector
    have content := out_readSector db card (u16 (u16 index + rawStart))
    rw [place, stored index bound, if_pos valid] at content
    rw [out_bind_of content]
    rfl
  unfold seqAndStateAt
  rw [out_bind_of read]
  rfl

theorem out_searchHeadLoop (some_ : 0 < started) (fuel lo hi : Nat) (enough : hi - lo ≤ fuel + 1)
    (low : lo ≤ (started - 1) % size) (high : (started - 1) % size < hi) (inside : hi ≤ size) :
    out (searchHeadLoop rawStart (ringHeader (sector 0)).seq fuel lo hi) db card =
      ((some ((started - 1) % size), db), []) := by
  induction fuel generalizing lo hi with
  | zero =>
      have found : lo = (started - 1) % size := by omega
      rw [found]
      rfl
  | succ fuel ih =>
      unfold searchHeadLoop
      by_cases wide : 1 < hi - lo
      · have bound : lo + (hi - lo) / 2 < size := by omega
        rw [if_pos wide, out_bind_of (out_seqAndStateAt ring stored region bound)]
        simp only [apply_writes_nil, ring.right some_ _ bound, List.nil_append]
        by_cases before : lo + (hi - lo) / 2 ≤ (started - 1) % size
        · simp only [decide_eq_true before, if_true]
          rw [ih _ _ (by omega) before high inside]
        · simp only [decide_eq_false before]
          rw [if_neg Bool.false_ne_true, ih _ _ (by omega) low (by omega) (by omega)]
      · have found : lo = (started - 1) % size := by omega
        rw [if_neg wide, found]
        rfl

variable (room : 0 < size)

include room

theorem out_binarySearchHead :
    out (binarySearchHead rawStart size) db card =
      ((if started = 0 then .error .strgEmpty
        else .ok ((started - 1) % size, BitVec.ofNat 32 (started - 1)), db), []) := by
  have first := @out_seqAndStateAt _ _ _ db _ _ ring stored region 0 room
  unfold binarySearchHead
  rw [out_bind_of first]
  by_cases none_ : started = 0
  · have state := (ring.empty_iff 0 room).mpr (by omega)
    simp only [state, if_true, none_]
    rfl
  · have some_ : 0 < started := by omega
    have bound : (started - 1) % size < size := Nat.mod_lt _ room
    have state := mt (ring.empty_iff 0 room).mp (by omega)
    have search := @out_searchHeadLoop _ _ _ db _ _ ring stored region some_ size 0 size (by omega)
      (by omega) bound (le_refl _)
    have head := @out_seqAndStateAt _ _ _ db _ _ ring stored region _ bound
    simp only [state, if_false, none_, apply_writes_nil]
    rw [out_bind_of search]
    simp only [apply_writes_nil]
    rw [out_bind_of head]
    simp only [ring.number some_]
    rfl

/-- The position is found again, whatever the ring in memory was before. -/
theorem out_initRingBuffer (rb : RingBuffer) :
    out (initRingBuffer rb size rawStart) db card = ((some (ringAt size started), db), []) := by
  have search := @out_binarySearchHead _ _ _ db _ _ ring stored region room
  unfold initRingBuffer
  rw [if_neg (by omega)]
  unfold reconstructRingBuffer
  rw [out_bind_of search]
  by_cases none_ : started = 0
  · simp only [none_, if_true, ringAt, Nat.zero_sub, Nat.zero_mod, Nat.zero_min]
    rfl
  · have bound : (started - 1) % size < size := Nat.mod_lt _ room
    have below := Nat.mod_le (started - 1) size
    simp only [none_, if_false, apply_writes_nil]
    by_cases last : (started - 1) % size = size - 1
    · have full : min started size = size := by omega
      simp only [last, if_true, ringAt, full]
      rfl
    · have next := @out_seqAndStateAt _ _ _ db _ _ ring stored region
        ((started - 1) % size + 1) (by omega)
      have empty := ring.empty_iff ((started - 1) % size + 1) (by omega)
      simp only [last, if_false]
      have wrapped : out (isRingBufferWrapped rawStart ((started - 1) % size)) db card =
          ((if started ≤ (started - 1) % size + 1 then .strgEmpty else .strgOk, db), []) := by
        unfold isRingBufferWrapped
        rw [out_bind_of next]
        simp only [empty]
        split <;> rfl
      rw [out_bind_of wrapped]
      by_cases open_ : started ≤ (started - 1) % size + 1
      · have occupancy : min started size = (started - 1) % size + 1 := by omega
        simp only [open_, if_true, ringAt, occupancy]
        rfl
      · have wide : size ≤ started := by
          by_contra short
          exact open_ (by rw [Nat.mod_eq_of_lt (by omega)]; omega)
        have occupancy : min started size = size := by omega
        simp only [open_, if_false, ringAt, occupancy]
        rfl

end Reads

end RingMount

end SdDatabase
