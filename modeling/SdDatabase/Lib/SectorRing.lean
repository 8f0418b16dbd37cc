import Mathlib.Data.List.Basic
import Mathlib.Data.List.Flatten

/-!
# Rings of sectors

A ring keeps entries in at most `size` sectors of `capacity` entries each. A new
entry goes into the newest sector, or starts a sector when that one is full, and
a ring without a sector left gives up its oldest one.
-/

namespace SdDatabase.SectorRing

set_option autoImplicit false

variable {A : Type} {size capacity : Nat} {ring : List (List A)}

/-- The newest sector comes first, and so does the newest entry of each sector. -/
def add (size capacity : Nat) (entry : A) : List (List A) → List (List A)
  | [] => [[entry]]
  | newest :: older =>
      if newest.length < capacity then (entry :: newest) :: older
      else [entry] :: (newest :: older).take (size - 1)

structure Fits (size capacity : Nat) (ring : List (List A)) : Prop where
  sectors : ring.length ≤ size
  newest : ∀ sector ∈ ring.head?, 0 < sector.length ∧ sector.length ≤ capacity
  older : ∀ sector ∈ ring.tail, sector.length = capacity

/-- The next entry starts a sector. -/
def Turns (capacity : Nat) (ring : List (List A)) : Prop :=
  ∃ newest older, ring = newest :: older ∧ capacity ≤ newest.length

theorem fits_nil : Fits size capacity ([] : List (List A)) where
  sectors := Nat.zero_le _
  newest sector member := by cases member
  older sector member := by cases member

theorem add_turns {entry : A} (turns : Turns capacity ring) :
    add size capacity entry ring = [entry] :: ring.take (size - 1) := by
  rcases turns with ⟨newest, older, rfl, full⟩
  rw [add, if_neg (by omega)]

theorem Fits.all_full (fits : Fits size capacity ring) (turns : Turns capacity ring) :
    ∀ sector ∈ ring, sector.length = capacity := by
  rcases turns with ⟨newest, older, rfl, full⟩
  intro sector member
  rcases List.mem_cons.mp member with rfl | member
  · have above := (fits.newest sector rfl).2
    omega
  · exact fits.older sector member

theorem Fits.add (fits : Fits size capacity ring) (some_ : 0 < size) (room : 0 < capacity)
    (entry : A) : Fits size capacity (add size capacity entry ring) := by
  by_cases turns : Turns capacity ring
  · have full := fits.all_full turns
    rw [add_turns turns]
    refine ⟨?_, ?_, ?_⟩
    · have short := List.length_take_le (size - 1) ring
      rw [List.length_cons]
      omega
    · intro sector member
      rw [List.head?_cons, Option.mem_some_iff] at member
      rw [← member, List.length_singleton]
      omega
    · intro sector member
      exact full sector (List.mem_of_mem_take member)
  · cases ring with
    | nil =>
        refine ⟨some_, ?_, fun sector member => absurd member List.not_mem_nil⟩
        intro sector member
        rw [SectorRing.add, List.head?_cons, Option.mem_some_iff] at member
        rw [← member, List.length_singleton]
        omega
    | cons newest older =>
        have below : newest.length < capacity := by
          by_contra above
          exact turns ⟨newest, older, rfl, by omega⟩
        rw [SectorRing.add, if_pos below]
        refine ⟨fits.sectors, ?_, fits.older⟩
        intro sector member
        rw [List.head?_cons, Option.mem_some_iff] at member
        rw [← member, List.length_cons]
        omega

/-- The entry comes first, and at most the oldest sector is given up. -/
theorem Fits.add_entries (fits : Fits size capacity ring) (entry : A) :
    (SectorRing.add size capacity entry ring).flatten = entry :: ring.flatten ∨
      (Turns capacity ring ∧ ring.length = size ∧
        (SectorRing.add size capacity entry ring).flatten = entry :: ring.dropLast.flatten) := by
  by_cases turns : Turns capacity ring
  · rw [add_turns turns]
    by_cases filled : ring.length = size
    · refine Or.inr ⟨turns, filled, ?_⟩
      rw [List.dropLast_eq_take, filled]
      rfl
    · have short := fits.sectors
      left
      rw [List.take_of_length_le (by omega)]
      rfl
  · left
    cases ring with
    | nil => rfl
    | cons newest older =>
        have below : newest.length < capacity := by
          by_contra above
          exact turns ⟨newest, older, rfl, by omega⟩
        rw [SectorRing.add, if_pos below]
        rfl

theorem flatten_length (full : ∀ sector ∈ ring, sector.length = capacity) :
    ring.flatten.length = ring.length * capacity := by
  rw [List.length_flatten, List.map_congr_left full, List.map_const', List.sum_replicate_nat]

/-- What is left of the entries behind the first `count` sectors and some more. -/
theorem flatten_drop (count offset : Nat) :
    ring.flatten.drop ((ring.take count).flatten.length + offset) =
      (ring.drop count).flatten.drop offset := by
  have split : ring.flatten = (ring.take count).flatten ++ (ring.drop count).flatten := by
    rw [← List.flatten_append, List.take_append_drop]
  rw [split, List.drop_append]
  rw [List.drop_eq_nil_of_le (Nat.le_add_right _ _), List.nil_append, Nat.add_sub_cancel_left]

theorem entry_place {start : Nat} (inside : start < ring.flatten.length) :
    ∃ age offset sector, ring[age]? = some sector ∧ offset < sector.length ∧
      start = (ring.take age).flatten.length + offset := by
  induction ring generalizing start with
  | nil => exact absurd inside (Nat.not_lt_zero _)
  | cons newest older ih =>
      by_cases here : start < newest.length
      · exact ⟨0, start, newest, rfl, here, (Nat.zero_add _).symm⟩
      · rw [List.flatten_cons, List.length_append] at inside
        obtain ⟨age, offset, sector, found, within, place⟩ :=
          @ih (start - newest.length) (by omega)
        refine ⟨age + 1, offset, sector, found, within, ?_⟩
        rw [List.take_succ_cons, List.flatten_cons, List.length_append]
        omega

theorem Fits.take_length (fits : Fits size capacity ring) {newest : List A}
    (known : ring.head? = some newest) {age : Nat} (inside : age < ring.length) :
    (ring.take (age + 1)).flatten.length = newest.length + age * capacity := by
  cases ring with
  | nil => exact absurd inside (Nat.not_lt_zero _)
  | cons first older =>
      obtain rfl : first = newest := Option.some.inj known
      have full : ∀ sector ∈ older.take age, sector.length = capacity :=
        fun sector member => fits.older sector (List.mem_of_mem_take member)
      rw [List.length_cons] at inside
      rw [List.take_succ_cons, List.flatten_cons, List.length_append, flatten_length full,
        List.length_take, Nat.min_eq_left (by omega)]

theorem Fits.entries_length (fits : Fits size capacity ring) {newest : List A}
    (known : ring.head? = some newest) :
    ring.flatten.length = newest.length + (ring.length - 1) * capacity := by
  have some_ : 0 < ring.length := by
    cases ring with
    | nil => cases known
    | cons first older => exact Nat.succ_pos _
  have whole := fits.take_length known (show ring.length - 1 < ring.length by omega)
  rwa [Nat.sub_add_cancel some_, List.take_length] at whole

def Alike (ring : List (List A)) : Prop := ∀ sector ∈ ring, ∀ other ∈ ring, sector = other

theorem flatten_full_injective {first second : List (List A)} (positive : 0 < capacity)
    (firstFull : ∀ sector ∈ first, sector.length = capacity)
    (secondFull : ∀ sector ∈ second, sector.length = capacity)
    (same : first.flatten = second.flatten) : first = second := by
  have counts := congrArg List.length same
  rw [flatten_length firstFull, flatten_length secondFull] at counts
  have sizes : first.length = second.length := Nat.eq_of_mul_eq_mul_right positive counts
  clear counts
  induction first generalizing second with
  | nil => exact (List.length_eq_zero_iff.mp sizes.symm).symm
  | cons sector rest ih =>
      cases second with
      | nil => cases sizes
      | cons other others =>
          rw [List.flatten_cons, List.flatten_cons] at same
          have heads : sector.length = other.length := by
            rw [firstFull sector List.mem_cons_self, secondFull other List.mem_cons_self]
          obtain ⟨head, tail⟩ := List.append_inj same heads
          rw [head, ih (fun item member => firstFull item (List.mem_cons_of_mem _ member))
            (fun item member => secondFull item (List.mem_cons_of_mem _ member)) tail
            (Nat.succ.inj sizes)]

/-- A list that equals itself moved on by one place has one item only. -/
theorem alike_of_shift (shift : ring.tail = ring.dropLast) : Alike ring := by
  cases ring with
  | nil => exact fun sector member => absurd member List.not_mem_nil
  | cons newest older =>
      have first : ∀ (index : Nat) (sector : List A),
          (newest :: older)[index]? = some sector → sector = newest := by
        intro index
        induction index with
        | zero => exact fun sector found => (Option.some.inj found).symm
        | succ index ih =>
            intro sector found
            rw [List.getElem?_cons_succ] at found
            have older_ : older = (newest :: older).dropLast := shift
            rw [older_, List.dropLast_eq_take, List.getElem?_take] at found
            split at found
            · exact ih sector found
            · cases found
      intro sector member other others
      obtain ⟨index, found⟩ := List.mem_iff_getElem?.mp member
      obtain ⟨place, stored⟩ := List.mem_iff_getElem?.mp others
      rw [first index sector found, first place other stored]

theorem Alike.shift (alike : Alike ring) : ring.tail = ring.dropLast := by
  apply List.ext_getElem
  · rw [List.length_tail, List.length_dropLast]
  · intro index first second
    rw [List.getElem_tail, List.getElem_dropLast]
    exact alike _ (List.getElem_mem _) _ (List.getElem_mem _)

section Turned

variable (fits : Fits size capacity ring) (turns : Turns capacity ring) (positive : 0 < capacity)

include fits turns positive

/-- Giving up the newest sector for the oldest one shows only on sectors that differ. -/
theorem tail_iff_alike : ring.tail.flatten = (ring.take (size - 1)).flatten ↔
    ring.length = size ∧ Alike ring := by
  have full := fits.all_full turns
  have sectors := fits.sectors
  have some_ : 0 < ring.length := by
    obtain ⟨newest, older, known, _⟩ := turns
    rw [known]
    exact Nat.zero_lt_succ _
  constructor
  · intro same
    have equal := flatten_full_injective positive
      (fun sector member => full sector (List.mem_of_mem_tail member))
      (fun sector member => full sector (List.mem_of_mem_take member)) same
    have counts := congrArg List.length equal
    rw [List.length_tail, List.length_take] at counts
    have filled : ring.length = size := by omega
    rw [← filled, ← List.dropLast_eq_take] at equal
    exact ⟨filled, alike_of_shift equal⟩
  · intro both
    rw [both.2.shift, ← both.1, ← List.dropLast_eq_take]

/-- The oldest sector in front of the others shows only on sectors that differ. -/
theorem rotated_iff_alike (given : ring ≠ []) :
    (ring.getLast given :: ring.dropLast).flatten = ring.flatten ↔ Alike ring := by
  have full := fits.all_full turns
  constructor
  · intro same
    have equal := flatten_full_injective positive
      (fun sector member => by
        cases List.mem_cons.mp member with
        | inl last => exact full sector (last ▸ List.getLast_mem given)
        | inr before => exact full sector ((List.dropLast_sublist _).subset before))
      full same
    have tails := congrArg List.tail equal
    exact alike_of_shift tails.symm
  · intro alike
    have head : ring.getLast given = ring.head given :=
      alike _ (List.getLast_mem given) _ (List.head_mem given)
    rw [head, ← alike.shift, List.cons_head_tail]

end Turned

end SdDatabase.SectorRing
