import SdDatabase.HistoryRing

/-!
# What the sectors of a history hold

Of the sectors started so far the last `size` are on the card, each at its place
in the ring with its sequence number. A ring of sectors is kept when they hold
its entries; writing the current sector or starting the next one keeps the
changed ring, and the position in memory is found again from the sectors.
-/

namespace SdDatabase

open Bytes Device

set_option autoImplicit false

/-- The place of the sector started `age` sectors before the newest one. -/
def ringPlace (size started age : Nat) : Nat := (started - 1 - age) % size

section Places

variable {size started : Nat} (room : 0 < size)

theorem same_mod_close {size low high : Nat} (below : low ≤ high) (close_ : high < low + size)
    (same : low % size = high % size) : low = high := by
  have gap : (high - low) % size = 0 := Nat.sub_mod_eq_zero_of_mod_eq same.symm
  rw [Nat.mod_eq_of_lt (by omega)] at gap
  omega

theorem ring_place_injective {first second : Nat} (firstBound : first < min started size)
    (secondBound : second < min started size)
    (same : ringPlace size started first = ringPlace size started second) : first = second := by
  unfold ringPlace at same
  rcases Nat.le_total first second with order | order
  · have equal := @same_mod_close size (started - 1 - second) (started - 1 - first) (by omega)
      (by omega) same.symm
    omega
  · have equal := @same_mod_close size (started - 1 - first) (started - 1 - second) (by omega)
      (by omega) same
    omega

include room

theorem ring_place_lt (age : Nat) : ringPlace size started age < size := Nat.mod_lt _ room

theorem ring_place_covers {index : Nat} (bound : index < size) (below : index < started) :
    ∃ age < min started size, ringPlace size started age = index ∧
      started - 1 - age = index + size * ((started - 1 - index) / size) := by
  have split := Nat.mod_add_div (started - 1 - index) size
  have small := Nat.mod_lt (started - 1 - index) room
  refine ⟨(started - 1 - index) % size, by omega, ?_, by omega⟩
  have back : started - 1 - (started - 1 - index) % size =
      index + size * ((started - 1 - index) / size) := by omega
  rw [ringPlace, back, Nat.add_mul_mod_self_left, Nat.mod_eq_of_lt bound]

theorem prev_place {occupancy number : Nat} (some_ : 0 < number)
    (round : occupancy = size ∨ number < size) :
    ringIteratorPrev occupancy (number % size) = (number - 1) % size := by
  unfold ringIteratorPrev
  by_cases start : number % size = 0
  · have wide : size ≤ number := by
      by_contra short
      rw [Nat.mod_eq_of_lt (by omega)] at start
      omega
    have last : (number - 1) % size + 1 = size := by
      by_contra other
      have small := Nat.mod_lt (number - 1) room
      have next := @succ_mod_within size (number - 1) (by omega)
      rw [Nat.sub_add_cancel some_, start] at next
      omega
    rw [if_neg (by omega)]
    omega
  · have next : (number - 1) % size + 1 < size := by
      by_contra turns
      have small := Nat.mod_lt (number - 1) room
      have next := @succ_mod_turns size (number - 1) (by omega)
      rw [Nat.sub_add_cancel some_] at next
      exact start next
    have same := succ_mod_within next
    rw [Nat.sub_add_cancel some_] at same
    rw [if_pos (by omega)]
    omega

theorem ring_visits_eq {occupancy left number : Nat} (inside : left ≤ number + 1)
    (round : occupancy = size ∨ number < size) :
    ringVisits occupancy left (number % size) =
      (List.range left).map fun age => (number - age) % size := by
  induction left generalizing number with
  | zero => rfl
  | succ left ih =>
      rw [ringVisits, List.range_succ_eq_map, List.map_cons, List.map_map, Nat.sub_zero]
      congr 1
      rcases Nat.eq_zero_or_pos left with none_ | more
      · rw [none_]
        rfl
      · rw [prev_place room (by omega) round, ih (by omega) (round.imp id (by omega))]
        refine List.map_congr_left fun age _ => ?_
        rw [Function.comp_apply, Nat.sub_sub, Nat.add_comm 1 age]

end Places

section Keeps

variable {E : Type}

/-- The sectors of a history hold the entries of `ring`. -/
structure RingKeeps (layout : HistoryLayout E) (size started : Nat) (ring : List (List E))
    (sector : Nat → Sector) : Prop where
  fits : SectorRing.Fits size layout.capacity ring
  count : ring.length = min started size
  valid : ∀ index < size, sectorCrcValid (sector index) = true
  blank : ∀ index < size, started ≤ index → (ringHeader (sector index)).state = rbEmpty
  numbered : ∀ age < ring.length,
    (ringHeader (sector (ringPlace size started age))).seq = BitVec.ofNat 32 (started - 1 - age)
  stored : ∀ age entries, ring[age]? = some entries →
    historyEntries layout (sector (ringPlace size started age)) = entries
  past : ∀ age, 0 < age → age < ring.length →
    (ringHeader (sector (ringPlace size started age))).state = rbFull
  current : ∀ newest ∈ ring.head?,
    (ringHeader (sector (ringPlace size started 0))).state = rbOccupied ∨
      ((ringHeader (sector (ringPlace size started 0))).state = rbFull ∧
        newest.length = layout.capacity)

/-- The sectors read from the place of the newest one on show the entries of `ring`,
whatever their numbers are. -/
structure RingShown (layout : HistoryLayout E) (size started : Nat) (ring : List (List E))
    (sector : Nat → Sector) : Prop where
  fits : SectorRing.Fits size layout.capacity ring
  count : ring.length = min started size
  valid : ∀ age < ring.length, sectorCrcValid (sector (ringPlace size started age)) = true
  begun : ∀ age < ring.length, (ringHeader (sector (ringPlace size started age))).state ≠ rbEmpty
  stored : ∀ age entries, ring[age]? = some entries →
    historyEntries layout (sector (ringPlace size started age)) = entries

variable {layout : HistoryLayout E} {size started : Nat} {ring : List (List E)}
  {sector : Nat → Sector}

theorem RingShown.older_head (shown : RingShown layout size started ring sector) {age : Nat}
    (some_ : 0 < age) (bound : age < ring.length) :
    (ringHeader (sector (ringPlace size started age))).head.toNat + 1 = layout.capacity := by
  have stored := shown.stored age ring[age] (List.getElem?_eq_getElem bound)
  have older := shown.fits.older ring[age] (by
    obtain ⟨before, rfl⟩ : ∃ before, age = before + 1 := ⟨age - 1, by omega⟩
    cases ring with
    | nil => exact absurd bound (Nat.not_lt_zero _)
    | cons newest older => exact List.getElem_mem _)
  rw [← older, ← stored, history_entries_length]

variable (keeps : RingKeeps layout size started ring sector)

include keeps

theorem RingKeeps.started_state {age : Nat} (bound : age < ring.length) :
    (ringHeader (sector (ringPlace size started age))).state ≠ rbEmpty := by
  rcases Nat.eq_zero_or_pos age with rfl | some_
  · cases ring with
    | nil => exact absurd bound (Nat.not_lt_zero _)
    | cons newest older =>
        rcases keeps.current newest rfl with occupied | ⟨full, _⟩
        · rw [occupied]
          decide
        · rw [full]
          decide
  · rw [keeps.past age some_ bound]
    decide

theorem RingKeeps.shown (room : 0 < size) : RingShown layout size started ring sector where
  fits := keeps.fits
  count := keeps.count
  valid _ _ := keeps.valid _ (ring_place_lt room _)
  begun _ bound := keeps.started_state bound
  stored := keeps.stored

theorem RingKeeps.searchable (room : 0 < size) (narrow : size < 65536) :
    RingSearchable size started sector where
  valid := keeps.valid
  empty_iff index bound := by
    refine ⟨fun empty => ?_, keeps.blank index bound⟩
    by_contra below
    obtain ⟨age, inside, place, _⟩ := ring_place_covers room bound (show index < started by omega)
    rw [← keeps.count] at inside
    rw [← place] at empty
    exact keeps.started_state inside empty
  number some_ := keeps.numbered 0 (by rw [keeps.count]; omega)
  right some_ mid bound := by
    unfold binarySearchTargetRight
    obtain ⟨firstAge, firstInside, firstPlace, firstRound⟩ := ring_place_covers room room some_
    rw [← keeps.count] at firstInside
    have first := keeps.numbered firstAge firstInside
    rw [firstPlace, firstRound, Nat.zero_add, Nat.sub_zero] at first
    by_cases below : mid < started
    · obtain ⟨age, inside, place, round⟩ := ring_place_covers room bound below
      rw [← keeps.count] at inside
      have number := keeps.numbered age inside
      have state := keeps.started_state inside
      rw [place] at state number
      rw [round] at number
      have target : (BitVec.ofNat 32 (mid + size * ((started - 1 - mid) / size)) -
          BitVec.ofNat 32 (size * ((started - 1) / size))).toNat = mid ↔
          mid ≤ (started - 1) % size := by
        have whole := Nat.mod_add_div (started - 1) size
        have small := Nat.mod_lt (started - 1) room
        rw [BitVec.toNat_sub, BitVec.toNat_ofNat, BitVec.toNat_ofNat]
        by_cases right : mid ≤ (started - 1) % size
        · have quotient : (started - 1 - mid) / size = (started - 1) / size := by
            have split : started - 1 - mid =
                ((started - 1) % size - mid) + size * ((started - 1) / size) := by omega
            rw [split, Nat.add_mul_div_left _ _ room, Nat.div_eq_of_lt (by omega), Nat.zero_add]
          rw [quotient]
          omega
        · obtain ⟨rounds, wrapped⟩ : ∃ rounds, (started - 1) / size = rounds + 1 := by
            refine Nat.exists_eq_succ_of_ne_zero fun zero => ?_
            rw [zero, Nat.mul_zero] at whole
            omega
          rw [wrapped, Nat.mul_add, Nat.mul_one] at whole
          have quotient : (started - 1 - mid) / size = rounds := by
            have split : started - 1 - mid =
                (size + (started - 1) % size - mid) + size * rounds := by omega
            rw [split, Nat.add_mul_div_left _ _ room, Nat.div_eq_of_lt (by omega), Nat.zero_add]
          rw [quotient, wrapped, Nat.mul_add, Nat.mul_one]
          omega
      rw [first, number, decide_eq_true state, Bool.true_and, beq_eq_decide, decide_eq_decide]
      exact target
    · have behind : ¬mid ≤ (started - 1) % size := by
        have above := Nat.mod_le (started - 1) size
        omega
      rw [keeps.blank mid bound (by omega), decide_eq_false behind]
      rfl

/-- Writing the current sector again changes the newest sector of the ring only. -/
theorem RingKeeps.rewrite (some_ : 0 < started) {newest : List E}
    {older : List (List E)} (known : ring = newest :: older) {content : Sector}
    (valid : sectorCrcValid content = true)
    (numbered : (ringHeader content).seq = BitVec.ofNat 32 (started - 1))
    (short : (historyEntries layout content).length ≤ layout.capacity)
    (state : (ringHeader content).state = rbOccupied ∨ ((ringHeader content).state = rbFull ∧
      (historyEntries layout content).length = layout.capacity)) :
    RingKeeps layout size started (historyEntries layout content :: older)
      (Function.update sector (ringPlace size started 0) content) := by
  subst known
  have other : ∀ age, 0 < age → age < (newest :: older).length →
      Function.update sector (ringPlace size started 0) content (ringPlace size started age) =
        sector (ringPlace size started age) := by
    intro age positive inside
    rw [keeps.count] at inside
    refine Function.update_of_ne (fun same => ?_) _ _
    have equal := ring_place_injective inside (by omega) same
    omega
  exact
    { fits := ⟨keeps.fits.sectors,
        fun entries member => by
          rw [List.head?_cons, Option.mem_some_iff] at member
          rw [← member]
          exact ⟨by rw [history_entries_length]; omega, short⟩,
        keeps.fits.older⟩
      count := keeps.count
      valid := fun index bound => by
        by_cases same : index = ringPlace size started 0
        · rwa [same, Function.update_self]
        · rw [Function.update_of_ne same]
          exact keeps.valid index bound
      blank := fun index bound above => by
        have below := Nat.mod_le (started - 1 - 0) size
        rw [Function.update_of_ne (by unfold ringPlace; omega)]
        exact keeps.blank index bound above
      numbered := fun age inside => by
        rcases Nat.eq_zero_or_pos age with rfl | positive
        · rw [Function.update_self, numbered, Nat.sub_zero]
        · rw [other age positive inside]
          exact keeps.numbered age inside
      stored := fun age entries found => by
        rcases Nat.eq_zero_or_pos age with rfl | positive
        · rw [Function.update_self]
          exact Option.some_injective _ found
        · obtain ⟨before, rfl⟩ : ∃ before, age = before + 1 := ⟨age - 1, by omega⟩
          have inside := (List.getElem?_eq_some_iff.mp found).1
          rw [other _ positive inside]
          exact keeps.stored _ entries found
      past := fun age positive inside => by
        rw [other age positive inside]
        exact keeps.past age positive inside
      current := fun entries member => by
        rw [List.head?_cons, Option.mem_some_iff] at member
        rw [Function.update_self, ← member]
        exact state }

/-- Starting the next sector, when the current one is full, gives up the oldest one
of a full ring. -/
theorem RingKeeps.start (room : 0 < size)
    (full : ∀ newest ∈ ring.head?, newest.length = layout.capacity ∧
      (ringHeader (sector (ringPlace size started 0))).state = rbFull) {content : Sector}
    (valid : sectorCrcValid content = true)
    (numbered : (ringHeader content).seq = BitVec.ofNat 32 started)
    (single : (historyEntries layout content).length ≤ layout.capacity)
    (occupied : (ringHeader content).state = rbOccupied) :
    RingKeeps layout size (started + 1) (historyEntries layout content :: ring.take (size - 1))
      (Function.update sector (ringPlace size (started + 1) 0) content) := by
  have older : ∀ age, age + 1 < min (started + 1) size →
      Function.update sector (ringPlace size (started + 1) 0) content
        (ringPlace size (started + 1) (age + 1)) = sector (ringPlace size started age) := by
    intro age inside
    rw [Function.update_of_ne]
    · unfold ringPlace
      congr 2
      omega
    · intro same
      have equal := ring_place_injective inside (by omega) same
      omega
  have count : (historyEntries layout content :: ring.take (size - 1)).length =
      min (started + 1) size := by
    rw [List.length_cons, List.length_take, keeps.count]
    omega
  have allFull : ∀ entries ∈ ring, entries.length = layout.capacity := by
    intro entries member
    cases ring with
    | nil => exact absurd member List.not_mem_nil
    | cons newest older =>
        rcases List.mem_cons.mp member with rfl | member
        · exact (full entries rfl).1
        · exact keeps.fits.older entries member
  exact
    { fits := ⟨by rw [count]; omega,
        fun entries member => by
          rw [List.head?_cons, Option.mem_some_iff] at member
          rw [← member]
          exact ⟨by rw [history_entries_length]; omega, single⟩,
        fun entries member => allFull entries (List.mem_of_mem_take member)⟩
      count := count
      valid := fun index bound => by
        by_cases same : index = ringPlace size (started + 1) 0
        · rwa [same, Function.update_self]
        · rw [Function.update_of_ne same]
          exact keeps.valid index bound
      blank := fun index bound above => by
        have below := Nat.mod_le (started + 1 - 1 - 0) size
        rw [Function.update_of_ne (by unfold ringPlace; omega)]
        exact keeps.blank index bound (by omega)
      numbered := fun age inside => by
        rcases Nat.eq_zero_or_pos age with rfl | positive
        · rw [Function.update_self, numbered]
          rfl
        · obtain ⟨before, rfl⟩ : ∃ before, age = before + 1 := ⟨age - 1, by omega⟩
          rw [count] at inside
          rw [older before inside, keeps.numbered before (by rw [keeps.count]; omega)]
          congr 1
          omega
      stored := fun age entries found => by
        rcases Nat.eq_zero_or_pos age with rfl | positive
        · rw [Function.update_self]
          exact Option.some_injective _ found
        · obtain ⟨before, rfl⟩ : ∃ before, age = before + 1 := ⟨age - 1, by omega⟩
          have inside := (List.getElem?_eq_some_iff.mp found).1
          rw [count] at inside
          rw [List.getElem?_cons_succ, List.getElem?_take_of_lt (by omega)] at found
          rw [older before inside]
          exact keeps.stored before entries found
      past := fun age positive inside => by
        obtain ⟨before, rfl⟩ : ∃ before, age = before + 1 := ⟨age - 1, by omega⟩
        rw [count] at inside
        rw [older before inside]
        rcases Nat.eq_zero_or_pos before with rfl | some_
        · cases ring with
          | nil =>
              have none_ := keeps.count
              rw [List.length_nil] at none_
              omega
          | cons newest rest => exact (full newest rfl).2
        · exact keeps.past before some_ (by rw [keeps.count]; omega)
      current := fun entries member => by
        rw [Function.update_self]
        exact Or.inl occupied }

end Keeps

end SdDatabase
