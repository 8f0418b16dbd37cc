import SdDatabase.Lib.BitScan
import SdDatabase.Lib.Cursor

/-!
# The set bits of a word

The places of the set bits, in increasing order. Taking the lowest set bit and clearing it
goes through this list, and marked places that are kept in blocks are listed block by block.
-/

namespace SdDatabase.SetBits

open BitScan Cursor

set_option autoImplicit false

variable {w : Nat}

def setBits (bits : BitVec w) : List Nat := places bits.getLsbD w

theorem set_bits_length (bits : BitVec w) : (setBits bits).length ≤ w := by
  have fewer := (List.range w).length_filter_le bits.getLsbD
  rwa [List.length_range] at fewer

theorem set_bits_zero : setBits (0#w) = [] := by
  rw [setBits, places_upward]
  exact upward_nil fun index _ _ => BitVec.getLsbD_zero

/-- The lowest set bit comes first, and clearing it leaves the others. -/
theorem set_bits_cons {bits : BitVec w} (some_ : bits ≠ 0#w) :
    setBits bits = ctz bits :: setBits (clearLowest bits) := by
  obtain ⟨below, set, clear⟩ := ctz_spec some_
  have kept := clear_lowest_bit some_
  generalize ctz bits = lowest at below set clear kept
  have behind : upward (clearLowest bits).getLsbD w 0 =
      upward (clearLowest bits).getLsbD w (lowest + 1) := by
    apply upward_skip (Nat.zero_le _)
    intro index _ before _
    rw [kept]
    by_cases same : index = lowest
    · rw [same, decide_eq_false (not_not.mpr rfl), Bool.and_false]
    · rw [clear index (by omega), Bool.false_and]
  have same : upward (clearLowest bits).getLsbD w (lowest + 1) =
      upward bits.getLsbD w (lowest + 1) := by
    unfold upward
    apply List.filter_congr
    intro index member
    obtain ⟨above, _⟩ := List.mem_range'_1.mp member
    rw [kept, decide_eq_true (by omega), Bool.and_true]
  rw [setBits, setBits, places_upward, places_upward, behind, same]
  exact upward_at (Nat.zero_le _) below set fun index _ before => clear index before

theorem set_bits_clear_to (bits : BitVec w) {count : Nat} (short : count < w) :
    setBits (clearBitsTo bits count) = (setBits bits).filter fun index => decide (count ≤ index) := by
  unfold setBits places
  rw [List.filter_filter]
  apply List.filter_congr
  intro index _
  cases count with
  | zero =>
      rw [clearBitsTo, if_neg fun both => absurd both.1 (lt_irrefl 0)]
      simp
  | succ count =>
      rw [clear_bits_to_bit bits (Nat.succ_pos count) short, Bool.and_comm]

theorem places_low {marked : Nat → Bool} {low total : Nat} (inside : low ≤ total)
    (clear : ∀ place, low ≤ place → place < total → marked place = false) :
    places marked total = places marked low := by
  induction total, inside using Nat.le_induction with
  | base => rfl
  | succ total inside ih =>
      rw [← ih fun place above below => clear place above (Nat.lt_succ_of_lt below)]
      unfold places
      rw [List.range_succ, List.filter_append, List.filter_singleton,
        clear total inside (Nat.lt_succ_self _)]
      exact List.append_nil _

theorem places_blocks (marked : Nat → Bool) (size count : Nat) :
    places marked (count * size) = (List.range count).flatMap fun block =>
      (places (fun index => marked (block * size + index)) size).map (block * size + ·) := by
  induction count with
  | zero => simp [places]
  | succ count ih =>
      rw [List.range_succ, List.flatMap_append, ← ih, Nat.succ_mul]
      unfold places
      rw [List.range_add, List.filter_append, List.filter_map, List.flatMap_singleton]
      rfl

theorem flat_map_places {A : Type} (marked : Nat → Bool) (total : Nat) (items : Nat → List A)
    (empty : ∀ place, marked place = false → items place = []) :
    (List.range total).flatMap items = (places marked total).flatMap items := by
  unfold places
  induction List.range total with
  | nil => rfl
  | cons place rest ih =>
      rw [List.flatMap_cons, ih, List.filter_cons]
      cases mark : marked place with
      | true => rfl
      | false => rw [empty place mark]; rfl

theorem drop_eq_filter {list : List Nat} (sorted : list.Pairwise (· < ·)) {rank place : Nat}
    (at_ : list[rank]? = some place) :
    list.drop rank = list.filter fun other => decide (place ≤ other) := by
  induction list generalizing rank with
  | nil => cases at_
  | cons head rest ih =>
      obtain ⟨low, restSorted⟩ := List.pairwise_cons.mp sorted
      cases rank with
      | zero =>
          obtain rfl := Option.some.inj at_
          rw [List.drop_zero, List.filter_cons, if_pos (decide_eq_true (le_refl _))]
          congr 1
          apply Eq.symm
          apply List.filter_eq_self.mpr
          intro other member
          exact decide_eq_true (Nat.le_of_lt (low other member))
      | succ rank =>
          rw [List.getElem?_cons_succ] at at_
          have smaller := low place (List.mem_of_getElem? at_)
          rw [List.drop_succ_cons, List.filter_cons,
            if_neg (by rw [decide_eq_true_eq]; omega)]
          exact ih restSorted at_

theorem upward_split {marked : Nat → Bool} {total start place : Nat} {passed rest : List Nat}
    (ahead : upward marked total start = passed ++ place :: rest) :
    upward marked total place = place :: rest := by
  induction passed generalizing start with
  | nil =>
      obtain ⟨_, inside, mark, _, tail⟩ := upward_cons ahead
      rw [upward_step inside, if_pos mark, tail]
  | cons first passed ih =>
      obtain ⟨_, _, _, _, tail⟩ := upward_cons ahead
      exact ih tail.symm

end SdDatabase.SetBits
