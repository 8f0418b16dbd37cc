import SdDatabase.Lib.Codec

/-!
# Cyclic redundancy checks by shifting

The reflected form: the remainder of `w` bits is shifted down once for every bit
and takes the polynomial when a one falls out. Shifting is linear and, for a
polynomial with its top bit set, loses nothing. Feeding at most `w` bits is the
same as adding them to the remainder first and shifting it then, so a change of
at most `w` consecutive bits changes the remainder of any message.
-/

namespace SdDatabase.Crc

open Bytes

set_option autoImplicit false

variable {w : Nat}

def shift (poly crc : BitVec w) : BitVec w :=
  if crc.getLsbD 0 then (crc >>> 1) ^^^ poly else crc >>> 1

def shifts (poly : BitVec w) (count : Nat) (crc : BitVec w) : BitVec w :=
  Nat.repeat (shift poly) count crc

def feed (poly crc : BitVec w) (data : Byte) : BitVec w :=
  shifts poly 8 (crc ^^^ data.setWidth w)

def remainder (poly crc : BitVec w) (data : List Byte) : BitVec w := data.foldl (feed poly) crc

/-- The bytes as they lie in a remainder, the first one lowest. -/
def laid : List Byte → BitVec w
  | [] => 0#w
  | byte :: rest => byte.setWidth w ^^^ (laid rest <<< 8)

section Shift

variable (poly : BitVec w)

theorem xor_shared (first second shared : BitVec w) :
    (first ^^^ shared) ^^^ (second ^^^ shared) = first ^^^ second := by
  rw [BitVec.xor_assoc, BitVec.xor_comm second, ← BitVec.xor_assoc shared, BitVec.xor_self,
    BitVec.zero_xor]

theorem shift_xor (first second : BitVec w) :
    shift poly (first ^^^ second) = shift poly first ^^^ shift poly second := by
  unfold shift
  rw [BitVec.getLsbD_xor, BitVec.ushiftRight_xor_distrib]
  cases first.getLsbD 0 <;> cases second.getLsbD 0
  · rfl
  · exact BitVec.xor_assoc _ _ _
  · change (first >>> 1) ^^^ (second >>> 1) ^^^ poly = (first >>> 1) ^^^ poly ^^^ (second >>> 1)
    rw [BitVec.xor_assoc, BitVec.xor_comm _ poly, BitVec.xor_assoc]
  · exact (xor_shared _ _ poly).symm

theorem shifts_succ (count : Nat) (crc : BitVec w) :
    shifts poly (count + 1) crc = shift poly (shifts poly count crc) := rfl

theorem shifts_add (first second : Nat) (crc : BitVec w) :
    shifts poly (first + second) crc = shifts poly second (shifts poly first crc) := by
  induction second with
  | zero => rfl
  | succ second ih => rw [← Nat.add_assoc, shifts_succ, shifts_succ, ih]

theorem shifts_xor (count : Nat) (first second : BitVec w) :
    shifts poly count (first ^^^ second) =
      shifts poly count first ^^^ shifts poly count second := by
  induction count with
  | zero => rfl
  | succ count ih => rw [shifts_succ, shifts_succ, shifts_succ, ih, shift_xor]

variable {poly}

theorem shift_zero {crc : BitVec w} (top : poly.msb = true) (result : shift poly crc = 0#w) :
    crc = 0#w := by
  have wide : 0 < w := by
    by_contra none_
    have empty : w = 0 := by omega
    subst empty
    simp [BitVec.msb, BitVec.getMsbD] at top
  unfold shift at result
  cases low : crc.getLsbD 0 with
  | true =>
      rw [low, if_pos rfl] at result
      have high := congrArg BitVec.msb result
      rw [BitVec.msb_xor, top, BitVec.msb_ushiftRight] at high
      simp at high
  | false =>
      rw [low, if_neg Bool.false_ne_true] at result
      apply BitVec.eq_of_getLsbD_eq
      intro index _
      rw [BitVec.getLsbD_zero]
      cases index with
      | zero => exact low
      | succ index =>
          have bit := congrArg (fun value => value.getLsbD index) result
          rw [BitVec.getLsbD_ushiftRight, BitVec.getLsbD_zero, Nat.add_comm] at bit
          exact bit

theorem shifts_injective (top : poly.msb = true) {count : Nat} {first second : BitVec w}
    (same : shifts poly count first = shifts poly count second) : first = second := by
  induction count with
  | zero => exact same
  | succ count ih =>
      apply ih
      rw [shifts_succ, shifts_succ] at same
      have difference : shift poly (shifts poly count first ^^^ shifts poly count second) = 0#w := by
        rw [shift_xor, same, BitVec.xor_self]
      exact BitVec.xor_eq_zero_iff.mp (shift_zero top difference)

/-- Bits above the ones that fall out only move down. -/
theorem shifts_shiftLeft (count : Nat) (crc : BitVec w)
    (clear : ∀ index, w ≤ index + count → crc.getLsbD index = false) :
    shifts poly count (crc <<< count) = crc := by
  induction count generalizing crc with
  | zero =>
      rw [BitVec.shiftLeft_zero]
      rfl
  | succ count ih =>
      have once : shifts poly count ((crc <<< 1) <<< count) = crc <<< 1 := by
        apply ih
        intro index high
        rw [BitVec.getLsbD_shiftLeft]
        by_cases low : index < 1
        · simp [low]
        · rw [clear (index - 1) (by omega), Bool.and_false]
      rw [shifts_succ, Nat.add_comm, BitVec.shiftLeft_add, once]
      unfold shift
      have low : (crc <<< 1).getLsbD 0 = false := by
        rw [BitVec.getLsbD_shiftLeft]
        simp
      rw [low, if_neg Bool.false_ne_true]
      apply BitVec.eq_of_getLsbD_eq
      intro index bound
      rw [BitVec.getLsbD_ushiftRight, BitVec.getLsbD_shiftLeft]
      by_cases last : 1 + index < w
      · simp [last]
      · rw [clear index (by omega), decide_eq_false last, Bool.false_and, Bool.false_and]

end Shift

section Laid

@[simp] theorem laid_nil : (laid [] : BitVec w) = 0#w := rfl

@[simp] theorem laid_cons (byte : Byte) (rest : List Byte) :
    (laid (byte :: rest) : BitVec w) = byte.setWidth w ^^^ (laid rest <<< 8) := rfl

theorem laid_above (data : List Byte) {index : Nat} (above : 8 * data.length ≤ index) :
    (laid data : BitVec w).getLsbD index = false := by
  induction data generalizing index with
  | nil => exact BitVec.getLsbD_zero
  | cons byte rest ih =>
      rw [List.length_cons] at above
      rw [laid_cons, BitVec.getLsbD_xor, BitVec.getLsbD_setWidth, BitVec.getLsbD_shiftLeft,
        ih (by omega), BitVec.getLsbD_of_ge byte index (by omega)]
      simp

theorem laid_low {byte : Byte} {rest : List Byte} {index : Nat} (low : index < 8)
    (wide : 8 ≤ w) : (laid (byte :: rest) : BitVec w).getLsbD index = byte.getLsbD index := by
  rw [laid_cons, BitVec.getLsbD_xor, BitVec.getLsbD_setWidth, BitVec.getLsbD_shiftLeft]
  simp [low, show index < w by omega]

theorem laid_high {byte : Byte} {rest : List Byte} {index : Nat} (inside : index + 8 < w) :
    (laid (byte :: rest) : BitVec w).getLsbD (index + 8) =
      (laid rest : BitVec w).getLsbD index := by
  rw [laid_cons, BitVec.getLsbD_xor, BitVec.getLsbD_setWidth, BitVec.getLsbD_shiftLeft,
    BitVec.getLsbD_of_ge byte (index + 8) (by omega)]
  simp [inside]

theorem laid_injective {first second : List Byte} (length : first.length = second.length)
    (wide : 8 * first.length ≤ w) (same : (laid first : BitVec w) = laid second) :
    first = second := by
  induction first generalizing second with
  | nil => exact (List.length_eq_zero_iff.mp length.symm).symm
  | cons byte rest ih =>
      cases second with
      | nil => cases length
      | cons other others =>
          rw [List.length_cons] at wide
          have bits (index : Nat) : (laid (byte :: rest) : BitVec w).getLsbD index =
              (laid (other :: others) : BitVec w).getLsbD index := by rw [same]
          have head : byte = other := by
            apply BitVec.eq_of_getLsbD_eq
            intro index low
            have bit := bits index
            rwa [laid_low low (by omega), laid_low low (by omega)] at bit
          have lengths : rest.length = others.length := Nat.succ.inj length
          have tail : rest = others := by
            apply ih lengths (by omega)
            apply BitVec.eq_of_getLsbD_eq
            intro index inside
            by_cases high : index + 8 < w
            · have bit := bits (index + 8)
              rwa [laid_high high, laid_high high] at bit
            · rw [laid_above rest (by omega), laid_above others (by omega)]
          rw [head, tail]

theorem laid_little_endian (count value : Nat) {index : Nat} (inside : index < 8 * count)
    (wide : 8 * count ≤ w) :
    (laid (toLittleEndian count value) : BitVec w).getLsbD index = value.testBit index := by
  induction count generalizing value index with
  | zero => omega
  | succ count ih =>
      unfold toLittleEndian
      by_cases low : index < 8
      · rw [laid_low low (by omega), BitVec.getLsbD_ofNat, decide_eq_true low, Bool.true_and]
      · have place : index = index - 8 + 8 := by omega
        rw [place, laid_high (by omega), ih (value / 256) (by omega) (by omega),
          show 256 = 2 ^ 8 by rfl, Nat.testBit_div_two_pow]

theorem laid_trailer {count : Nat} (width : w = 8 * count) (value : BitVec w) :
    (laid (toLittleEndian count value.toNat) : BitVec w) = value := by
  apply BitVec.eq_of_getLsbD_eq
  intro index inside
  rw [laid_little_endian count value.toNat (by omega) (by omega)]
  rfl

end Laid

section Remainder

variable {poly : BitVec w}

theorem remainder_append (crc : BitVec w) (first second : List Byte) :
    remainder poly crc (first ++ second) = remainder poly (remainder poly crc first) second := by
  exact List.foldl_append

/-- At most `w` bits are fed by adding them first and shifting afterwards. -/
theorem remainder_laid (crc : BitVec w) {data : List Byte} (short : 8 * data.length ≤ w) :
    remainder poly crc data = shifts poly (8 * data.length) (crc ^^^ laid data) := by
  induction data generalizing crc with
  | nil => rw [laid_nil, BitVec.xor_zero]; rfl
  | cons byte rest ih =>
      rw [List.length_cons] at short
      have moved : shifts poly 8 (laid rest <<< 8) = laid rest := by
        apply shifts_shiftLeft
        intro index high
        exact laid_above rest (by omega)
      calc
        remainder poly crc (byte :: rest) = remainder poly (feed poly crc byte) rest := rfl
        _ = shifts poly (8 * rest.length) (feed poly crc byte ^^^ laid rest) := ih _ (by omega)
        _ = shifts poly (8 * rest.length)
              (shifts poly 8 (crc ^^^ byte.setWidth w ^^^ laid rest <<< 8)) := by
          rw [shifts_xor poly 8, moved]
          rfl
        _ = shifts poly (8 * (byte :: rest).length) (crc ^^^ laid (byte :: rest)) := by
          rw [← shifts_add, BitVec.xor_assoc, laid_cons, List.length_cons]
          congr 1
          omega

variable (top : poly.msb = true)
include top

theorem feed_injective {first second : BitVec w} {data : Byte}
    (same : feed poly first data = feed poly second data) : first = second := by
  have added := shifts_injective top same
  exact (BitVec.xor_left_inj _).mp added

theorem remainder_injective {first second : BitVec w} (data : List Byte)
    (same : remainder poly first data = remainder poly second data) : first = second := by
  induction data generalizing first second with
  | nil => exact same
  | cons byte rest ih => exact feed_injective top (ih same)

/-- Two messages which differ inside a stretch of at most `w` bits have different
remainders. -/
theorem burst_detected {crc : BitVec w} {before first second after : List Byte}
    (length : first.length = second.length) (short : 8 * first.length ≤ w)
    (same : remainder poly crc (before ++ first ++ after) =
      remainder poly crc (before ++ second ++ after)) : first = second := by
  rw [remainder_append, remainder_append _ _ after] at same
  have stretch := remainder_injective top after same
  rw [remainder_append, remainder_append, remainder_laid _ short,
    @remainder_laid _ _ _ second (length ▸ short), length] at stretch
  apply laid_injective length short
  exact (BitVec.xor_right_inj _).mp (shifts_injective top stretch)

omit top in
theorem remainder_sealed {count : Nat} (width : w = 8 * count) (crc final : BitVec w)
    (data : List Byte) :
    remainder poly crc
        (data ++ toLittleEndian count (remainder poly crc data ^^^ final).toNat) =
      shifts poly w final := by
  have length := to_little_endian_length count (remainder poly crc data ^^^ final).toNat
  rw [remainder_append, remainder_laid _ (by rw [length, width]), laid_trailer width, length,
    ← width, ← BitVec.xor_assoc, BitVec.xor_self, BitVec.zero_xor]

end Remainder

end SdDatabase.Crc
