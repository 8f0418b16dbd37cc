import Mathlib.Data.List.Basic
import Mathlib.Data.Nat.Find

/-!
# Scanning the set bits of a word

`count trailing zeros` and the `bits &= bits - 1` idiom: reading off the lowest
set bit and clearing it enumerates the set bits in increasing order.
-/

namespace SdDatabase.BitScan

set_option autoImplicit false

variable {w : Nat}

/-- Index of the lowest set bit, or the width `w` when there is none. -/
def ctz (bits : BitVec w) : Nat :=
  ((List.range w).find? fun index => bits.getLsbD index).getD w

/-- Index of the highest set bit, or the width `w` when there is none. -/
def highestBit (bits : BitVec w) : Nat :=
  ((List.range w).reverse.find? fun index => bits.getLsbD index).getD w

def clearLowest (bits : BitVec w) : BitVec w := bits &&& (bits - 1#w)

/-- Clear the bits below `count`, for `0 < count < w`. -/
def clearBitsTo (bits : BitVec w) (count : Nat) : BitVec w :=
  if 0 < count ∧ count < w then bits &&& (BitVec.allOnes w <<< count) else bits

theorem ctz_spec {bits : BitVec w} (some_ : bits ≠ 0#w) :
    ctz bits < w ∧ bits.getLsbD (ctz bits) = true ∧
      ∀ index < ctz bits, bits.getLsbD index = false := by
  unfold ctz
  cases found : (List.range w).find? fun index => bits.getLsbD index with
  | none =>
      exfalso
      apply some_
      apply BitVec.eq_of_getLsbD_eq
      intro index bound
      have clear := List.find?_eq_none.mp found index (List.mem_range.mpr bound)
      simpa using clear
  | some lowest =>
      obtain ⟨set, before, after, split, clear⟩ := List.find?_eq_some_iff_append.mp found
      have member : lowest ∈ List.range w := by
        rw [split]
        simp
      refine ⟨List.mem_range.mp member, set, ?_⟩
      intro index below
      have inRange : index ∈ List.range w :=
        List.mem_range.mpr (lt_trans below (List.mem_range.mp member))
      rw [split] at inRange
      rcases List.mem_append.mp inRange with early | late
      · simpa using clear index early
      · exfalso
        have sorted : (before ++ lowest :: after).Pairwise (· < ·) := by
          rw [← split]
          exact List.pairwise_lt_range
        have tailSorted := (List.pairwise_append.mp sorted).2.1
        rcases List.mem_cons.mp late with same | late
        · simp only [Option.getD_some] at below
          omega
        · have larger := (List.pairwise_cons.mp tailSorted).1 index late
          simp only [Option.getD_some] at below
          omega

theorem highest_bit_spec {bits : BitVec w} (some_ : bits ≠ 0#w) :
    highestBit bits < w ∧ bits.getLsbD (highestBit bits) = true ∧
      ∀ index, highestBit bits < index → bits.getLsbD index = false := by
  unfold highestBit
  cases found : (List.range w).reverse.find? fun index => bits.getLsbD index with
  | none =>
      exfalso
      apply some_
      apply BitVec.eq_of_getLsbD_eq
      intro index bound
      have member := List.mem_reverse.mpr (List.mem_range.mpr bound)
      simpa using List.find?_eq_none.mp found index member
  | some highest =>
      obtain ⟨set, before, after, split, clear⟩ := List.find?_eq_some_iff_append.mp found
      have member : highest ∈ (List.range w).reverse := by
        rw [split]
        simp
      have bound := List.mem_range.mp (List.mem_reverse.mp member)
      refine ⟨bound, set, ?_⟩
      intro index above
      rw [Option.getD_some] at above
      by_cases inside : index < w
      · have inRange := List.mem_reverse.mpr (List.mem_range.mpr inside)
        rw [split] at inRange
        rcases List.mem_append.mp inRange with early | late
        · simpa using clear index early
        · have sorted : (before ++ highest :: after).Pairwise (· > ·) := by
            rw [← split]
            exact List.pairwise_reverse.mpr List.pairwise_lt_range
          have tailSorted := (List.pairwise_append.mp sorted).2.1
          rcases List.mem_cons.mp late with same | late
          · omega
          · have smaller := (List.pairwise_cons.mp tailSorted).1 index late
            omega
      · exact BitVec.getLsbD_of_ge bits index (by omega)

theorem low_mask_bit {count index : Nat} (countBound : count < w) :
    ((1#w <<< count) - 1#w).getLsbD index = decide (index < count) := by
  have power : (1#w <<< count).toNat = 2 ^ count := by
    have small : 2 ^ count < 2 ^ w := Nat.pow_lt_pow_right (by decide) countBound
    have one : 1 < 2 ^ w := Nat.one_lt_two_pow (by omega)
    rw [BitVec.toNat_shiftLeft, BitVec.toNat_ofNat, Nat.mod_eq_of_lt one, Nat.shiftLeft_eq, Nat.one_mul,
      Nat.mod_eq_of_lt small]
  have mask : ((1#w <<< count) - 1#w).toNat = 2 ^ count - 1 := by
    have one : (1#w).toNat = 1 := by
      rw [BitVec.toNat_ofNat]
      exact Nat.mod_eq_of_lt (Nat.one_lt_two_pow (by omega))
    rw [BitVec.toNat_sub_of_le, power, one]
    rw [BitVec.le_def, power, one]
    exact Nat.one_le_two_pow
  rw [BitVec.getLsbD, mask, Nat.testBit_two_pow_sub_one]

theorem clear_lowest_bit {bits : BitVec w} (some_ : bits ≠ 0#w) (index : Nat) :
    (clearLowest bits).getLsbD index = (bits.getLsbD index && decide (index ≠ ctz bits)) := by
  obtain ⟨bound, set, clear⟩ := ctz_spec some_
  generalize ctz bits = lowest at bound set clear
  by_cases inside : index < w
  · let one := 1#w <<< lowest
    let high := bits &&& ~~~one
    have oneBit : ∀ position < w, one.getLsbD position = decide (position = lowest) := by
      intro position positionBound
      simp only [one, BitVec.getLsbD_shiftLeft, BitVec.getLsbD_one, positionBound]
      by_cases same : position = lowest
      · simp [same]
        omega
      · by_cases below : position < lowest
        · simp [same, below]
        · have above : position - lowest ≠ 0 := by omega
          simp [same, above]
    have highBit : ∀ position < w, high.getLsbD position =
        (bits.getLsbD position && decide (position ≠ lowest)) := by
      intro position positionBound
      simp only [high, BitVec.getLsbD_and, BitVec.getLsbD_not, oneBit position positionBound,
        positionBound]
      simp
    have whole : bits = high + one := by
      rw [BitVec.add_eq_or_of_and_eq_zero]
      · apply BitVec.eq_of_getLsbD_eq
        intro position positionBound
        rw [BitVec.getLsbD_or, highBit position positionBound, oneBit position positionBound]
        by_cases same : position = lowest
        · simp [same, set]
        · simp [same]
      · apply BitVec.eq_of_getLsbD_eq
        intro position positionBound
        rw [BitVec.getLsbD_and, highBit position positionBound, oneBit position positionBound]
        by_cases same : position = lowest <;> simp [same]
    have previous : bits - 1#w = high ||| (one - 1#w) := by
      rw [← BitVec.add_eq_or_of_and_eq_zero]
      · conv_lhs => rw [whole]
        rw [BitVec.sub_eq_add_neg, BitVec.sub_eq_add_neg, BitVec.add_assoc]
      · apply BitVec.eq_of_getLsbD_eq
        intro position positionBound
        rw [BitVec.getLsbD_and, highBit position positionBound, low_mask_bit bound]
        by_cases below : position < lowest
        · simp [clear position below]
        · simp [below]
    rw [clearLowest, previous, BitVec.getLsbD_and, BitVec.getLsbD_or, highBit index inside,
      low_mask_bit bound]
    by_cases same : index = lowest
    · simp [same]
    · by_cases below : index < lowest
      · simp [clear index below]
      · simp [same, below]
  · have outside : ∀ word : BitVec w, word.getLsbD index = false :=
      fun word => BitVec.getLsbD_of_ge word index (by omega)
    simp [outside]

theorem clear_bits_to_bit (bits : BitVec w) {count index : Nat} (some_ : 0 < count)
    (short : count < w) :
    (clearBitsTo bits count).getLsbD index = (bits.getLsbD index && decide (count ≤ index)) := by
  rw [clearBitsTo, if_pos ⟨some_, short⟩, BitVec.getLsbD_and, BitVec.getLsbD_shiftLeft,
    BitVec.getLsbD_allOnes]
  by_cases inside : index < w
  · by_cases above : count ≤ index
    · have later : index - count < w := by omega
      simp [inside, above, later]
    · simp [above]
  · rw [BitVec.getLsbD_of_ge bits index (by omega)]
    rfl

theorem keep_low_bit (bits : BitVec w) {count index : Nat} (short : count < w) :
    (bits &&& ((1#w <<< count) - 1#w)).getLsbD index =
      (bits.getLsbD index && decide (index < count)) := by
  rw [BitVec.getLsbD_and, low_mask_bit short]

theorem keep_high_bit (bits : BitVec w) {count index : Nat} (short : count < w) :
    (bits &&& ~~~((1#w <<< count) - 1#w)).getLsbD index =
      (bits.getLsbD index && decide (count ≤ index)) := by
  by_cases inside : index < w
  · rw [BitVec.getLsbD_and, BitVec.getLsbD_not, low_mask_bit short, decide_eq_true inside,
      Bool.true_and, ← decide_not]
    simp only [Nat.not_lt]
  · rw [BitVec.getLsbD_of_ge _ index (by omega), BitVec.getLsbD_of_ge bits index (by omega)]
    rfl

theorem masked_bit (word : BitVec w) (used : Bool) {bit changed : Nat} (bound : bit < w) :
    (if used then word ||| 1#w <<< changed else word &&& ~~~(1#w <<< changed)).getLsbD bit =
      if bit = changed then used else word.getLsbD bit := by
  have mask : (1#w <<< changed).getLsbD bit = decide (bit = changed) := by
    simp only [BitVec.getLsbD_shiftLeft, BitVec.getLsbD_one, bound]
    by_cases same : bit = changed
    · simp [same]
      omega
    · by_cases below : bit < changed
      · simp [same, below]
      · have above : bit - changed ≠ 0 := by omega
        simp [same, above]
  cases used with
  | true =>
      rw [if_pos rfl, BitVec.getLsbD_or, mask]
      by_cases same : bit = changed <;> simp [same]
  | false =>
      rw [if_neg (by decide), BitVec.getLsbD_and, BitVec.getLsbD_not, mask]
      by_cases same : bit = changed
      · simp [same]
      · simp [same, bound]

theorem bit_set_iff (word : BitVec w) {bit : Nat} (bound : bit < w) :
    (word &&& (1#w <<< bit) != 0#w) = word.getLsbD bit := by
  rw [Bool.eq_iff_iff, bne_iff_ne]
  constructor
  · intro some_
    by_contra clear
    apply some_
    apply BitVec.eq_of_getLsbD_eq
    intro index inside
    simp only [BitVec.getLsbD_and, BitVec.getLsbD_shiftLeft, BitVec.getLsbD_one, inside,
      BitVec.getLsbD_zero]
    by_cases same : index = bit
    · simp only [Bool.not_eq_true] at clear
      simp [same, clear]
    · by_cases below : index < bit
      · simp [below]
      · have above : index - bit ≠ 0 := by omega
        simp [above]
  · intro set zero
    have bitZero := congrArg (fun masked => BitVec.getLsbD masked bit) zero
    simp only [BitVec.getLsbD_and, BitVec.getLsbD_shiftLeft, BitVec.getLsbD_one, set, bound,
      BitVec.getLsbD_zero] at bitZero
    simp at bitZero
    omega

end SdDatabase.BitScan
