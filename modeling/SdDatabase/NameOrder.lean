import SdDatabase.SortedArray
import SdDatabase.View
import Mathlib.Data.List.Lex
import Mathlib.Data.Prod.Lex

/-!
# The order of the contacts

Contacts are listed by name without regard to case, then by name, then by phone
number. The comparisons of the name index, by eight-byte key first and by the
stored contact on a tie, are the comparisons of this order.
-/

namespace SdDatabase

open Bytes

set_option autoImplicit false

def comparedBytes (ignoreCase : Bool) (text : List Byte) : List Nat :=
  text.map fun character => (if ignoreCase then removeCase character else character).toNat

/-- Case-folded name, name, phone number. -/
abbrev NameKey := List Nat ×ₗ (List Nat ×ₗ List Nat)

def nameKey (identity : Identity) : NameKey :=
  toLex (comparedBytes true identity.name,
    toLex (comparedBytes false identity.name, comparedBytes false identity.phone))

/-- The order of any record, by the bytes that its length fields give. -/
def contactKey (contact : Contact) : NameKey :=
  toLex (comparedBytes true contact.nameBytes,
    toLex (comparedBytes false contact.nameBytes, comparedBytes false contact.phoneBytes))

theorem compared_bytes_exact {left right : List Byte}
    (same : comparedBytes false left = comparedBytes false right) : left = right := by
  refine List.map_injective_iff.mpr ?_ same
  intro first second equal
  exact BitVec.eq_of_toNat_eq equal

theorem contact_key_eq_iff {first second : Contact} :
    contactKey first = contactKey second ↔
      first.nameBytes = second.nameBytes ∧ first.phoneBytes = second.phoneBytes := by
  constructor
  · intro same
    have names := congrArg (fun key => (ofLex (ofLex key).2).1) same
    have phones := congrArg (fun key => (ofLex (ofLex key).2).2) same
    exact ⟨compared_bytes_exact names, compared_bytes_exact phones⟩
  · intro both
    rw [contactKey, contactKey, both.1, both.2]

theorem name_key_phone {first second : Identity} (same : nameKey first = nameKey second) :
    first.phone = second.phone := by
  have parts := congrArg (fun key => (ofLex (ofLex key).2).2) same
  exact compared_bytes_exact parts

theorem remove_case_nonzero {character : Byte} (given : character ≠ 0#8) :
    (removeCase character).toNat ≠ 0 := by
  have positive : character.toNat ≠ 0 := fun zero => given (BitVec.eq_of_toNat_eq zero)
  unfold removeCase
  split
  · rw [BitVec.toNat_add, BitVec.toNat_ofNat]
    omega
  · exact positive

/-- The sign of `bytes_cmp` is the order of the byte strings. -/
theorem bytes_cmp_sign (ignoreCase : Bool) (left right : List Byte) :
    (bytesCmp ignoreCase left right < 0 ↔
      comparedBytes ignoreCase left < comparedBytes ignoreCase right) ∧
    (bytesCmp ignoreCase left right = 0 ↔
      comparedBytes ignoreCase left = comparedBytes ignoreCase right) := by
  induction left generalizing right with
  | nil =>
      cases right with
      | nil => simp [bytesCmp, comparedBytes]
      | cons character rest =>
          have bound := rest.length.zero_le
          simp only [bytesCmp, comparedBytes, List.map_nil, List.map_cons, List.length_nil,
            List.length_cons]
          exact ⟨⟨fun _ => List.nil_lt_cons _ _, fun _ => by omega⟩,
            ⟨fun zero => by omega, fun same => by cases same⟩⟩
  | cons first leftRest ih =>
      cases right with
      | nil =>
          simp only [bytesCmp, comparedBytes, List.map_nil, List.map_cons, List.length_nil,
            List.length_cons]
          exact ⟨⟨fun negative => by omega, fun below => absurd below (List.not_lt_nil _)⟩,
            ⟨fun zero => by omega, fun same => by cases same⟩⟩
      | cons second rightRest =>
          simp only [bytesCmp, comparedBytes, List.map_cons, List.cons_lt_cons_iff,
            List.cons.injEq]
          generalize (if ignoreCase = true then removeCase first else first) = leftFolded
          generalize (if ignoreCase = true then removeCase second else second) = rightFolded
          by_cases same : leftFolded = rightFolded
          · simpa [same, comparedBytes] using ih rightRest
          · have different : leftFolded.toNat ≠ rightFolded.toNat :=
              fun equal => same (BitVec.eq_of_toNat_eq equal)
            simp only [ne_eq, same, not_false_eq_true, if_true, different, false_and, or_false,
              iff_false]
            omega

/-- The first bytes of a string, padded with zeros. -/
def paddedKey : Nat → List Nat → List Nat
  | 0, _ => []
  | count + 1, [] => 0 :: paddedKey count []
  | count + 1, character :: rest => character :: paddedKey count rest

theorem padded_key_eq (count : Nat) (text : List Nat) :
    paddedKey count text = List.ofFn fun index : Fin count => text.getD index 0 := by
  induction count generalizing text with
  | zero => simp [paddedKey]
  | succ count ih =>
      cases text with
      | nil => simp [paddedKey, ih, List.ofFn_succ]
      | cons character rest => simp [paddedKey, ih, List.ofFn_succ]

theorem padded_key_lt {count : Nat} {left right : List Nat}
    (leftText : ∀ character ∈ left, character ≠ 0)
    (less : paddedKey count left < paddedKey count right) : left < right := by
  induction count generalizing left right with
  | zero => exact absurd less (List.not_lt_nil _)
  | succ count ih =>
      cases left with
      | nil =>
          cases right with
          | nil => exact absurd less (lt_irrefl _)
          | cons character rest => exact List.nil_lt_cons _ _
      | cons first leftRest =>
          cases right with
          | nil =>
              simp only [paddedKey, List.cons_lt_cons_iff, Nat.not_lt_zero, false_or] at less
              exact absurd less.1 (leftText first (by simp))
          | cons second rightRest =>
              simp only [paddedKey, List.cons_lt_cons_iff] at less ⊢
              rcases less with smaller | ⟨same, less⟩
              · exact Or.inl smaller
              · exact Or.inr ⟨same, ih (fun character member => leftText character (by simp [member]))
                  less⟩

theorem key_bytes (name : List Byte) :
    comparedBytes false (List.ofFn (sortedArrayMakeKey name)) =
      paddedKey 8 (comparedBytes true name) := by
  rw [padded_key_eq, comparedBytes, List.map_ofFn]
  congr 1
  funext index
  simp only [sortedArrayMakeKey, Function.comp_apply, comparedBytes, List.getD_eq_getElem?_getD,
    List.getElem?_map]
  cases name[index.val]? <;> simp

theorem folded_nonzero {name : List Byte} (text : ∀ character ∈ name, character ≠ 0#8) :
    ∀ character ∈ comparedBytes true name, character ≠ 0 := by
  intro character member
  obtain ⟨source, inName, rfl⟩ := List.mem_map.mp member
  exact remove_case_nonzero (text source inName)

theorem key_cmp_sign {left right : List Byte} (leftText : ∀ character ∈ left, character ≠ 0#8)
    (rightText : ∀ character ∈ right, character ≠ 0#8)
    (differ : keyCmp (sortedArrayMakeKey left) (sortedArrayMakeKey right) ≠ 0) :
    (keyCmp (sortedArrayMakeKey left) (sortedArrayMakeKey right) < 0 →
      comparedBytes true left < comparedBytes true right) ∧
    (0 < keyCmp (sortedArrayMakeKey left) (sortedArrayMakeKey right) →
      comparedBytes true right < comparedBytes true left) := by
  obtain ⟨negative, zero⟩ := bytes_cmp_sign false (List.ofFn (sortedArrayMakeKey left))
    (List.ofFn (sortedArrayMakeKey right))
  rw [key_bytes, key_bytes] at negative zero
  constructor
  · intro below
    exact padded_key_lt (folded_nonzero leftText) (negative.mp below)
  · intro above
    refine @padded_key_lt 8 _ _ (folded_nonzero rightText) ?_
    rcases lt_trichotomy (paddedKey 8 (comparedBytes true left))
        (paddedKey 8 (comparedBytes true right)) with less | same | greater
    · exact absurd (negative.mpr less) (not_lt.mpr above.le)
    · exact absurd (zero.mpr same) differ
    · exact greater

theorem record_nameBytes (identity : Identity) : identity.record.nameBytes = identity.name := by
  rw [Contact.nameBytes, record_nameLen, record_name_take]

theorem record_phoneBytes (identity : Identity) : identity.record.phoneBytes = identity.phone := by
  rw [Contact.phoneBytes, record_phoneLen, record_phone_take]

theorem record_lengthsValid (identity : Identity) : identity.record.lengthsValid = true := by
  have nameShort := identity.nameShort
  have phoneShort := identity.phoneShort
  simp only [Contact.lengthsValid, record_nameLen, record_phoneLen, maxNameLen, maxPhoneLen,
    Bool.and_eq_true, decide_eq_true_eq]
  omega

theorem contact_key_record (identity : Identity) :
    contactKey identity.record = nameKey identity := by
  rw [contactKey, record_nameBytes, record_phoneBytes]
  rfl

/-- The order of a contact relative to another one, as `tiebreak_fn` computes it. -/
theorem tiebreak_sign (left right : Contact) :
    (tiebreakOrder (probeFromContact left) right < 0 ↔ contactKey left < contactKey right) ∧
    (tiebreakOrder (probeFromContact left) right = 0 ↔ contactKey left = contactKey right) := by
  obtain ⟨foldedSign, foldedZero⟩ := bytes_cmp_sign true left.nameBytes right.nameBytes
  obtain ⟨exactSign, exactZero⟩ := bytes_cmp_sign false left.nameBytes right.nameBytes
  obtain ⟨phoneSign, phoneZero⟩ := bytes_cmp_sign false left.phoneBytes right.phoneBytes
  simp only [tiebreakOrder, probeFromContact, Bool.false_eq_true, if_false, contactKey,
    Prod.Lex.toLex_lt_toLex, toLex_inj, Prod.mk.injEq]
  by_cases folded : bytesCmp true left.nameBytes right.nameBytes = 0
  · have sameFolded := foldedZero.mp folded
    simp only [folded, ne_eq, not_true_eq_false, if_false, sameFolded, lt_self_iff_false,
      true_and, false_or]
    by_cases exact_ : bytesCmp false left.nameBytes right.nameBytes = 0
    · have sameExact := exactZero.mp exact_
      simp only [exact_, not_true_eq_false, if_false, sameExact, lt_self_iff_false, true_and,
        false_or]
      exact ⟨phoneSign, phoneZero⟩
    · have differ := mt exactZero.mpr exact_
      simp only [exact_, not_false_eq_true, if_true, differ, false_and, or_false]
      exact ⟨exactSign, trivial⟩
  · have differ := mt foldedZero.mpr folded
    simp only [ne_eq, folded, not_false_eq_true, if_true, differ, false_and, or_false]
    exact ⟨foldedSign, trivial⟩

theorem tiebreak_seek_sign (text : List Byte) (right : Contact) :
    tiebreakOrder (probeFromString text) right = bytesCmp true text right.nameBytes := by
  simp only [tiebreakOrder, probeFromString, if_true]
  split <;> rfl

end SdDatabase
