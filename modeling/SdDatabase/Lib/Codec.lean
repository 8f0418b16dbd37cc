import Mathlib.Data.List.OfFn
import Mathlib.Data.List.FinRange
import Mathlib.Tactic.Ring

/-!
# Fixed-width record codecs

A codec lays a value out in a fixed number of bytes. Decoding is total, as
reading a C record out of a byte buffer is, and gives back the encoded value
whatever bytes follow it.
-/

namespace SdDatabase.Bytes

set_option autoImplicit false

abbrev Byte := BitVec 8

structure Codec (A : Type) where
  width : Nat
  encode : A → List Byte
  decode : List Byte → A
  encode_length : ∀ value, (encode value).length = width
  decode_encode : ∀ value rest, decode (encode value ++ rest) = value

variable {A B : Type}

def toLittleEndian : Nat → Nat → List Byte
  | 0, _ => []
  | count + 1, value => BitVec.ofNat 8 value :: toLittleEndian count (value / 256)

def fromLittleEndian : List Byte → Nat
  | [] => 0
  | byte :: rest => byte.toNat + 256 * fromLittleEndian rest

theorem to_little_endian_length (count value : Nat) :
    (toLittleEndian count value).length = count := by
  induction count generalizing value with
  | zero => rfl
  | succ count ih => simp [toLittleEndian, ih]

theorem from_to_little_endian (count value : Nat) :
    fromLittleEndian (toLittleEndian count value) = value % 256 ^ count := by
  induction count generalizing value with
  | zero => simp [toLittleEndian, fromLittleEndian, Nat.mod_one]
  | succ count ih =>
      simp only [toLittleEndian, fromLittleEndian, ih, BitVec.toNat_ofNat]
      have power : 256 ^ (count + 1) = 256 * 256 ^ count := by ring
      rw [power, Nat.mod_mul]

theorem to_from_little_endian (bytes : List Byte) :
    toLittleEndian bytes.length (fromLittleEndian bytes) = bytes := by
  induction bytes with
  | nil => rfl
  | cons head tail ih =>
      have headBound := head.isLt
      have low : BitVec.ofNat 8 (head.toNat + 256 * fromLittleEndian tail) = head := by
        apply BitVec.eq_of_toNat_eq
        rw [BitVec.toNat_ofNat]
        omega
      have high : (head.toNat + 256 * fromLittleEndian tail) / 256 = fromLittleEndian tail := by
        omega
      simp only [fromLittleEndian, List.length_cons, toLittleEndian, low, high, ih]

def byte : Codec Byte where
  width := 1
  encode value := [value]
  decode bytes := bytes.headD 0#8
  encode_length _ := rfl
  decode_encode _ _ := rfl

/-- A little-endian word of `count` bytes. -/
def word (count : Nat) : Codec (BitVec (8 * count)) where
  width := count
  encode value := toLittleEndian count value.toNat
  decode bytes := BitVec.ofNat (8 * count) (fromLittleEndian (bytes.take count))
  encode_length value := to_little_endian_length count value.toNat
  decode_encode value rest := by
    have bound := value.isLt
    rw [List.take_left' (to_little_endian_length count value.toNat), from_to_little_endian]
    apply BitVec.eq_of_toNat_eq
    have power : 256 ^ count = 2 ^ (8 * count) := by
      rw [pow_mul]
      norm_num
    rw [BitVec.toNat_ofNat, power, Nat.mod_mod, Nat.mod_eq_of_lt bound]

theorem word_encode_decode (count : Nat) (bytes : List Byte) (long : count ≤ bytes.length) :
    (word count).encode ((word count).decode bytes) = bytes.take count := by
  have length : (bytes.take count).length = count := by simp [long]
  have power : 256 ^ count = 2 ^ (8 * count) := by
    rw [pow_mul]
    norm_num
  have small : fromLittleEndian (bytes.take count) < 2 ^ (8 * count) := by
    have whole := to_from_little_endian (bytes.take count)
    rw [length] at whole
    have bound := from_to_little_endian count (fromLittleEndian (bytes.take count))
    rw [whole, power] at bound
    rw [bound]
    exact Nat.mod_lt _ (Nat.two_pow_pos _)
  have whole := to_from_little_endian (bytes.take count)
  rw [length] at whole
  simp only [word, BitVec.toNat_ofNat, Nat.mod_eq_of_lt small, whole]

def word16 : Codec (BitVec 16) := word 2

def word32 : Codec (BitVec 32) := word 4

def pair (first : Codec A) (second : Codec B) : Codec (A × B) where
  width := first.width + second.width
  encode value := first.encode value.1 ++ second.encode value.2
  decode bytes := (first.decode bytes, second.decode (bytes.drop first.width))
  encode_length value := by
    rw [List.length_append, first.encode_length, second.encode_length]
  decode_encode value rest := by
    rw [List.append_assoc, first.decode_encode,
      List.drop_left' (first.encode_length value.1), second.decode_encode]

/-- The same bytes seen as another type, along a map with a right inverse. -/
def xmap (codec : Codec A) (toRecord : A → B) (fields : B → A)
    (rebuild : ∀ value, toRecord (fields value) = value) : Codec B where
  width := codec.width
  encode value := codec.encode (fields value)
  decode bytes := toRecord (codec.decode bytes)
  encode_length value := codec.encode_length (fields value)
  decode_encode value rest := by rw [codec.decode_encode, rebuild]

theorem flatten_constant_length (width : Nat) (blocks : List (List Byte))
    (same : ∀ block ∈ blocks, block.length = width) :
    blocks.flatten.length = blocks.length * width := by
  induction blocks with
  | nil => simp
  | cons head tail ih =>
      rw [List.flatten_cons, List.length_append, same head (by simp),
        ih (fun block member => same block (by simp [member])), List.length_cons]
      ring

theorem drop_flatten (width index : Nat) (blocks : List (List Byte)) (rest : List Byte)
    (same : ∀ block ∈ blocks, block.length = width) (bound : index < blocks.length) :
    (blocks.flatten ++ rest).drop (index * width) =
      blocks[index] ++ ((blocks.drop (index + 1)).flatten ++ rest) := by
  induction blocks generalizing index with
  | nil => simp at bound
  | cons head tail ih =>
      cases index with
      | zero => simp
      | succ index =>
          have headWidth : head.length = width := same head (by simp)
          have step : (index + 1) * width = head.length + index * width := by
            rw [headWidth]
            ring
          rw [List.flatten_cons, List.append_assoc, step, List.drop_length_add_append]
          simpa using ih index (fun block member => same block (by simp [member]))
            (by simpa using bound)

def array (count : Nat) (codec : Codec A) : Codec (Fin count → A) where
  width := count * codec.width
  encode values := (List.ofFn fun index => codec.encode (values index)).flatten
  decode bytes := fun index => codec.decode (bytes.drop (index * codec.width))
  encode_length values := by
    rw [flatten_constant_length codec.width]
    · simp
    · intro block member
      obtain ⟨index, rfl⟩ := List.mem_ofFn.mp member
      exact codec.encode_length _
  decode_encode values rest := by
    funext index
    have same : ∀ block ∈ List.ofFn fun index => codec.encode (values index),
        block.length = codec.width := by
      intro block member
      obtain ⟨other, rfl⟩ := List.mem_ofFn.mp member
      exact codec.encode_length _
    rw [drop_flatten codec.width index _ rest same (by simp), List.getElem_ofFn,
      codec.decode_encode]

theorem flatten_words (width count : Nat) (bytes : List Byte)
    (length : bytes.length = count * width) :
    (List.ofFn fun index : Fin count =>
      (word width).encode ((word width).decode (bytes.drop (index * width)))).flatten = bytes := by
  induction count generalizing bytes with
  | zero =>
      have empty : bytes = [] := List.eq_nil_of_length_eq_zero (by simpa using length)
      simp [empty]
  | succ count ih =>
      have split : bytes.length = width + count * width := by
        rw [length]
        ring
      have first : (word width).encode ((word width).decode bytes) = bytes.take width :=
        word_encode_decode width bytes (by omega)
      have rest := ih (bytes.drop width) (by rw [List.length_drop]; omega)
      rw [List.ofFn_succ, List.flatten_cons]
      simp only [Fin.val_zero, Nat.zero_mul, List.drop_zero, Fin.val_succ, first]
      calc
        _ = bytes.take width ++ bytes.drop width := by
          congr 1
          refine Eq.trans ?_ rest
          congr 2
          funext index
          rw [List.drop_drop]
          congr 3
          ring
        _ = bytes := List.take_append_drop width bytes

end SdDatabase.Bytes
