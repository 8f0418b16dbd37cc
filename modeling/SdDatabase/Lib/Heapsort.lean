import SdDatabase.Lib.Device
import Mathlib.Order.WithBot

/-!
# In-place heapsort

Heapsort on an array whose comparison may have effects and may fail. The
program is the textbook one: build a max heap from the last parent down, then
move the root behind the shrinking heap and sift the new root down.
-/

namespace SdDatabase.Heapsort

set_option autoImplicit false

variable {A E : Type} {M : Type → Type}

def swap (array : List A) (i j : Nat) : List A :=
  match array[i]?, array[j]? with
  | some left, some right => (array.set i right).set j left
  | _, _ => array

section Program

variable [Monad M] (compare : A → A → M (Except E Int))

def compareAt (array : List A) (i j : Nat) : M (Except E Int) :=
  match array[i]?, array[j]? with
  | some left, some right => compare left right
  | _, _ => return .ok 0

/-- The larger of the children of a heap node whose left child is `left`. -/
def largerChild (bound left : Nat) (array : List A) : M (Except E Nat) := do
  if left + 1 < bound then
    match ← compareAt compare array left (left + 1) with
    | .error failure => return .error failure
    | .ok order => return .ok (if order < 0 then left + 1 else left)
  else return .ok left

/-- Move the element at `root` down the heap `[0, bound)`; every round at least
doubles `root`, so `bound` rounds are enough. -/
def siftDown (bound : Nat) : Nat → Nat → List A → M (Except E (List A))
  | 0, _, array => return .ok array
  | fuel + 1, root, array => do
      if 2 * root + 1 < bound then
        match ← largerChild compare bound (2 * root + 1) array with
        | .error failure => return .error failure
        | .ok child =>
            match ← compareAt compare array root child with
            | .error failure => return .error failure
            | .ok order =>
                if 0 ≤ order then return .ok array
                siftDown bound fuel child (swap array root child)
      else return .ok array

/-- Sift down the roots `count - 1, ..., 0`. -/
def buildHeap (bound : Nat) : Nat → List A → M (Except E (List A))
  | 0, array => return .ok array
  | root + 1, array => do
      match ← siftDown compare bound bound root array with
      | .error failure => return .error failure
      | .ok array => buildHeap bound root array

/-- Move the largest element behind the heap `[0, bound)` while it has two. -/
def drainHeap : Nat → List A → M (Except E (List A))
  | 0, array => return .ok array
  | bound + 1, array => do
      if bound = 0 then return .ok array
      match ← siftDown compare bound bound 0 (swap array 0 bound) with
      | .error failure => return .error failure
      | .ok array => drainHeap bound array

def heapsort (array : List A) : M (Except E (List A)) := do
  let count := array.length
  if count < 2 then return .ok array
  match ← buildHeap compare count (count / 2) array with
  | .error failure => return .error failure
  | .ok array => drainHeap compare count array

end Program

section HeapOrder

variable {K : Type} [LinearOrder K]

def swapRank (rank : Nat → WithBot K) (i j : Nat) : Nat → WithBot K :=
  fun index => if index = i then rank j else if index = j then rank i else rank index

/-- No node below `start` exceeds its parent. -/
def IsHeap (rank : Nat → WithBot K) (bound start : Nat) : Prop :=
  ∀ node, 0 < node → node < bound → start ≤ (node - 1) / 2 → rank node ≤ rank ((node - 1) / 2)

/-- Only the children of `root` may be out of order, and they would fit under
the parent of `root`. -/
structure SiftReady (rank : Nat → WithBot K) (bound start root : Nat) : Prop where
  edges : ∀ node, 0 < node → node < bound → start ≤ (node - 1) / 2 → (node - 1) / 2 ≠ root →
    rank node ≤ rank ((node - 1) / 2)
  bridge : ∀ node, 0 < node → node < bound → (node - 1) / 2 = root → 0 < root →
    start ≤ (root - 1) / 2 → rank node ≤ rank ((root - 1) / 2)

theorem IsHeap.root_max {rank : Nat → WithBot K} {bound : Nat} (heap : IsHeap rank bound 0) :
    ∀ node < bound, rank node ≤ rank 0 := by
  intro node
  induction node using Nat.strong_induction_on with
  | h node ih =>
      intro inside
      by_cases top : node = 0
      · rw [top]
      · exact (heap node (by omega) inside (Nat.zero_le _)).trans (ih _ (by omega) (by omega))

theorem SiftReady.settled {rank : Nat → WithBot K} {bound start root : Nat}
    (ready : SiftReady rank bound start root)
    (ordered : ∀ node, 0 < node → node < bound → (node - 1) / 2 = root → rank node ≤ rank root) :
    IsHeap rank bound start := by
  intro node positive inside above
  by_cases child : (node - 1) / 2 = root
  · rw [child]
    exact ordered node positive inside child
  · exact ready.edges node positive inside above child

theorem SiftReady.swap {rank : Nat → WithBot K} {bound start root child : Nat}
    (ready : SiftReady rank bound start root) (positive : 0 < child)
    (isChild : (child - 1) / 2 = root) (inside : child < bound) (startBound : start ≤ root)
    (smaller : rank root < rank child)
    (largest : ∀ node, 0 < node → node < bound → (node - 1) / 2 = root → rank node ≤ rank child) :
    SiftReady (swapRank rank root child) bound start child := by
  have different : root ≠ child := by omega
  constructor
  · intro node nodePositive nodeInside above notChild
    by_cases isRoot : node = root
    · subst isRoot
      have apart : (node - 1) / 2 ≠ node := by omega
      simp only [swapRank, if_pos, if_neg apart, if_neg notChild]
      exact ready.bridge child positive inside isChild nodePositive above
    · by_cases sameChild : node = child
      · subst sameChild
        simp only [swapRank, isChild, if_pos, if_neg isRoot]
        exact smaller.le
      · by_cases underRoot : (node - 1) / 2 = root
        · simp only [swapRank, underRoot, if_pos, if_neg isRoot, if_neg sameChild]
          exact largest node nodePositive nodeInside underRoot
        · simp only [swapRank, if_neg isRoot, if_neg sameChild, if_neg underRoot, if_neg notChild]
          exact ready.edges node nodePositive nodeInside above underRoot
  · intro node nodePositive nodeInside underChild _ _
    have notRoot : node ≠ root := by omega
    have notChild : node ≠ child := by omega
    have parentApart : (node - 1) / 2 ≠ root := by omega
    simp only [swapRank, isChild, if_pos, if_neg notRoot, if_neg notChild]
    have edge := ready.edges node nodePositive nodeInside (by omega) parentApart
    rwa [underChild] at edge

end HeapOrder

open Device

section Sorting

variable {K S σ : Type} [LinearOrder K] (key : A → K) (compare : A → A → DevM S σ (Except E Int))
variable (memory : σ) (card : Card S)

def rankOf (array : List A) (index : Nat) : WithBot K :=
  match array[index]? with
  | none => ⊥
  | some element => key element

/-- The comparison agrees with the order of the keys on the elements of an array. -/
def Compares (array : List A) : Prop :=
  ∀ left ∈ array, ∀ right ∈ array, ∃ order : Int,
    out (compare left right) memory card = ((.ok order, memory), []) ∧
      (order < 0 ↔ key left < key right)

variable {key compare memory card}

theorem Compares.perm {first second : List A} (compares : Compares key compare memory card first)
    (perm : second.Perm first) : Compares key compare memory card second :=
  fun left leftIn right rightIn =>
    compares left (perm.mem_iff.mp leftIn) right (perm.mem_iff.mp rightIn)

theorem compare_at_spec {array : List A} (compares : Compares key compare memory card array)
    {i j : Nat} (iBound : i < array.length) (jBound : j < array.length) :
    ∃ order : Int, out (compareAt compare array i j) memory card = ((.ok order, memory), []) ∧
      (order < 0 ↔ rankOf key array i < rankOf key array j) := by
  obtain ⟨order, result, sign⟩ := compares array[i] (by simp) array[j] (by simp)
  refine ⟨order, ?_, ?_⟩
  · simpa only [compareAt, List.getElem?_eq_getElem iBound, List.getElem?_eq_getElem jBound]
      using result
  · simp only [rankOf, List.getElem?_eq_getElem iBound, List.getElem?_eq_getElem jBound, sign,
      WithBot.coe_lt_coe]

theorem swap_getElem {array : List A} {i j : Nat} (iBound : i < array.length)
    (jBound : j < array.length) (index : Nat) :
    (swap array i j)[index]? =
      if index = i then array[j]? else if index = j then array[i]? else array[index]? := by
  simp only [swap, List.getElem?_eq_getElem iBound, List.getElem?_eq_getElem jBound,
    List.getElem?_set, List.length_set]
  by_cases atI : index = i
  · by_cases atJ : index = j
    · subst atI
      subst atJ
      simp [iBound]
    · subst atI
      simp [iBound, Ne.symm atJ]
  · by_cases atJ : index = j
    · subst atJ
      simp [jBound, atI]
    · simp [Ne.symm atI, Ne.symm atJ, atI, atJ]

omit [LinearOrder K] in
theorem swap_rank {array : List A} {i j : Nat} (iBound : i < array.length)
    (jBound : j < array.length) :
    rankOf key (swap array i j) = swapRank (rankOf key array) i j := by
  funext index
  unfold rankOf swapRank
  rw [swap_getElem iBound jBound]
  by_cases atI : index = i
  · simp only [if_pos atI]
  · by_cases atJ : index = j
    · simp only [if_neg atI, if_pos atJ]
    · simp only [if_neg atI, if_neg atJ]

theorem swap_take {array : List A} {i j bound : Nat} (iBound : i < bound) (jBound : j < bound)
    (short : bound ≤ array.length) :
    ((swap array i j).take bound).Perm (array.take bound) ∧
      (swap array i j).drop bound = array.drop bound := by
  have iInside : i < array.length := by omega
  have jInside : j < array.length := by omega
  simp only [swap, List.getElem?_eq_getElem iInside, List.getElem?_eq_getElem jInside]
  constructor
  · have iTaken : i < (array.take bound).length := by simp; omega
    have jTaken : j < (array.take bound).length := by simp; omega
    have perm := List.set_set_perm iTaken jTaken
    simpa only [List.take_set, List.getElem_take] using perm
  · rw [List.drop_set_of_lt jBound, List.drop_set_of_lt iBound]

theorem swap_length (array : List A) (i j : Nat) : (swap array i j).length = array.length := by
  unfold swap
  split <;> simp

theorem larger_child_spec {array : List A} (compares : Compares key compare memory card array)
    {bound left : Nat} (inside : left < bound) (short : bound ≤ array.length) :
    ∃ child, out (largerChild compare bound left array) memory card =
        ((.ok child, memory), []) ∧
      (child = left ∨ child = left + 1) ∧ child < bound ∧
      ∀ other, (other = left ∨ other = left + 1) → other < bound →
        rankOf key array other ≤ rankOf key array child := by
  unfold largerChild
  by_cases two : left + 1 < bound
  · obtain ⟨order, result, sign⟩ := compare_at_spec compares (i := left) (j := left + 1)
      (by omega) (by omega)
    rw [if_pos two, out_bind_of result]
    by_cases rightLarger : order < 0
    · refine ⟨left + 1, by simp [rightLarger], Or.inr rfl, two, ?_⟩
      rintro other (rfl | rfl) _
      · exact (sign.mp rightLarger).le
      · exact le_rfl
    · refine ⟨left, by simp [rightLarger], Or.inl rfl, inside, ?_⟩
      rintro other (rfl | rfl) _
      · exact le_rfl
      · exact not_lt.mp fun larger => rightLarger (sign.mpr larger)
  · refine ⟨left, by rw [if_neg two]; rfl, Or.inl rfl, inside, ?_⟩
    rintro other (rfl | rfl) otherInside
    · exact le_rfl
    · exact absurd otherInside two

/-- What one sift leaves: the same elements, a heap, and an untouched rest. -/
structure Sifted (key : A → K) (bound start : Nat) (array result : List A) : Prop where
  front : (result.take bound).Perm (array.take bound)
  rest : result.drop bound = array.drop bound
  heap : IsHeap (rankOf key result) bound start

theorem perm_of_front {array result : List A} {bound : Nat}
    (front : (result.take bound).Perm (array.take bound))
    (rest : result.drop bound = array.drop bound) : result.Perm array := by
  have whole := front.append_right (result.drop bound)
  rw [List.take_append_drop, rest, List.take_append_drop] at whole
  exact whole

theorem sift_down_spec {bound start : Nat} (fuel root : Nat) (array : List A)
    (compares : Compares key compare memory card array) (short : bound ≤ array.length)
    (enough : bound ≤ root + fuel) (startBound : start ≤ root)
    (ready : SiftReady (rankOf key array) bound start root) :
    ∃ result, out (siftDown compare bound fuel root array) memory card =
        ((.ok result, memory), []) ∧ Sifted key bound start array result := by
  induction fuel generalizing root array with
  | zero =>
      refine ⟨array, rfl, List.Perm.refl _, rfl, ready.settled ?_⟩
      intro node positive inside child
      omega
  | succ fuel ih =>
      unfold siftDown
      by_cases leaf : 2 * root + 1 < bound
      · obtain ⟨child, chosen, isChild, inside, largest⟩ := larger_child_spec compares leaf short
        obtain ⟨order, result, sign⟩ := compare_at_spec compares (i := root) (j := child)
          (by omega) (by omega)
        rw [if_pos leaf, out_bind_of chosen]
        dsimp only
        rw [apply_writes_nil, out_bind_of result]
        dsimp only
        have largestChild : ∀ node, 0 < node → node < bound → (node - 1) / 2 = root →
            rankOf key array node ≤ rankOf key array child :=
          fun node _ nodeInside under => largest node (by omega) nodeInside
        by_cases stop : 0 ≤ order
        · rw [if_pos stop]
          refine ⟨array, rfl, List.Perm.refl _, rfl, ready.settled ?_⟩
          intro node positive nodeInside under
          refine (largestChild node positive nodeInside under).trans (not_lt.mp fun larger => ?_)
          have negative := sign.mpr larger
          omega
        · have smaller := sign.mp (by omega)
          have swapped := @SiftReady.swap _ _ _ _ _ _ child ready (by omega) (by omega) inside startBound
            smaller largestChild
          rw [← swap_rank (by omega) (by omega)] at swapped
          obtain ⟨front, rest⟩ := @swap_take _ array root child
            bound (by omega) inside short
          obtain ⟨final, run, sifted⟩ := ih child (swap array root child)
            (compares.perm (perm_of_front front rest)) (by rw [swap_length]; exact short)
            (by omega) (by omega) swapped
          rw [if_neg stop]
          simp only [apply_writes_nil]
          rw [run]
          exact ⟨final, rfl, sifted.front.trans front, sifted.rest.trans rest, sifted.heap⟩
      · rw [if_neg leaf]
        refine ⟨array, rfl, List.Perm.refl _, rfl, ready.settled ?_⟩
        intro node positive inside child
        omega

theorem build_heap_spec {bound : Nat} (root : Nat) (array : List A)
    (compares : Compares key compare memory card array) (short : bound ≤ array.length)
    (heap : IsHeap (rankOf key array) bound root) :
    ∃ result, out (buildHeap compare bound root array) memory card =
        ((.ok result, memory), []) ∧ Sifted key bound 0 array result := by
  induction root generalizing array with
  | zero => exact ⟨array, rfl, List.Perm.refl _, rfl, heap⟩
  | succ root ih =>
      have ready : SiftReady (rankOf key array) bound root root :=
        ⟨fun node positive inside above other => heap node positive inside (by omega),
          fun node positive inside child rootPositive above => by omega⟩
      obtain ⟨sifted, run, spec⟩ := sift_down_spec bound root array compares short (by omega)
        le_rfl ready
      have perm := perm_of_front spec.front spec.rest
      obtain ⟨final, later, laterSpec⟩ := ih sifted (compares.perm perm)
        (by rw [perm.length_eq]; exact short) spec.heap
      rw [buildHeap, out_bind_of run]
      dsimp only
      rw [apply_writes_nil, later]
      exact ⟨final, rfl, laterSpec.front.trans spec.front, laterSpec.rest.trans spec.rest,
        laterSpec.heap⟩

/-- From `bound` on the array is sorted and not below what comes before. -/
def SortedFrom (rank : Nat → WithBot K) (length bound : Nat) : Prop :=
  ∀ i j, i < j → bound ≤ j → j < length → rank i ≤ rank j

omit [LinearOrder K] in
theorem rank_front {array result : List A} {bound : Nat}
    (front : (result.take bound).Perm (array.take bound)) (short : bound ≤ result.length)
    {index : Nat} (inside : index < bound) :
    ∃ source < bound, rankOf key result index = rankOf key array source := by
  have taken : index < (result.take bound).length := by simp; omega
  have member : (result.take bound)[index] ∈ array.take bound :=
    front.mem_iff.mp (List.getElem_mem taken)
  obtain ⟨source, sourceBound, same⟩ := List.getElem_of_mem member
  have sourceInside : source < bound := by
    have := List.length_take_le bound array
    omega
  refine ⟨source, sourceInside, ?_⟩
  have resultBound : index < result.length := by omega
  have arrayBound : source < array.length := by
    have := List.length_take_le' bound array
    omega
  rw [List.getElem_take, List.getElem_take] at same
  unfold rankOf
  rw [List.getElem?_eq_getElem resultBound, List.getElem?_eq_getElem arrayBound, same]

omit [LinearOrder K] in
theorem rank_rest {array result : List A} {bound : Nat}
    (rest : result.drop bound = array.drop bound) {index : Nat} (behind : bound ≤ index) :
    rankOf key result index = rankOf key array index := by
  have same := congrArg (·[index - bound]?) rest
  simp only [List.getElem?_drop] at same
  rw [show bound + (index - bound) = index by omega] at same
  unfold rankOf
  rw [same]

theorem drain_heap_spec (bound : Nat) (array : List A)
    (compares : Compares key compare memory card array) (short : bound ≤ array.length)
    (heap : IsHeap (rankOf key array) bound 0)
    (sorted : SortedFrom (rankOf key array) array.length bound) :
    ∃ result, out (drainHeap compare bound array) memory card = ((.ok result, memory), []) ∧
      result.Perm array ∧ SortedFrom (rankOf key result) result.length 1 := by
  induction bound generalizing array with
  | zero => exact ⟨array, rfl, List.Perm.refl _, fun i j below _ inside =>
      sorted i j below (Nat.zero_le _) inside⟩
  | succ bound ih =>
      unfold drainHeap
      by_cases single : bound = 0
      · subst single
        exact ⟨array, rfl, List.Perm.refl _, sorted⟩
      · have ready : SiftReady (rankOf key (swap array 0 bound)) bound 0 0 := by
          rw [swap_rank (by omega) (by omega)]
          refine ⟨fun node positive inside _ notRoot => ?_, fun _ _ _ _ impossible => ?_⟩
          · have notTop : node ≠ 0 := by omega
            have notLast : node ≠ bound := by omega
            have parentLast : (node - 1) / 2 ≠ bound := by omega
            simp only [swapRank, if_neg notTop, if_neg notLast, if_neg notRoot, if_neg parentLast]
            exact heap node positive (by omega) (Nat.zero_le _)
          · exact absurd impossible (lt_irrefl 0)
        obtain ⟨front, rest⟩ := @swap_take _ array 0 bound
          (bound + 1) (by omega) (by omega) short
        have perm := perm_of_front front rest
        obtain ⟨sifted, run, spec⟩ := sift_down_spec bound 0 (swap array 0 bound)
          (compares.perm perm) (by rw [swap_length]; omega) (by omega) le_rfl ready
        have siftedPerm := perm_of_front spec.front spec.rest
        have lengths : sifted.length = array.length := by
          rw [siftedPerm.length_eq, swap_length]
        have nowSorted : SortedFrom (rankOf key sifted) sifted.length bound := by
          intro i j below behind inside
          rw [rank_rest spec.rest behind]
          have target : ∀ source ≤ bound, rankOf key array source ≤
              rankOf key (swap array 0 bound) j := by
            intro source sourceBound
            rw [swap_rank (by omega) (by omega)]
            by_cases last : j = bound
            · subst last
              simp only [swapRank, if_neg single, if_pos]
              exact heap.root_max source (by omega)
            · have notTop : j ≠ 0 := by omega
              simp only [swapRank, if_neg notTop, if_neg last]
              exact sorted source j (by omega) (by omega) (by omega)
          have origin : ∀ source < bound, ∃ first ≤ bound,
              rankOf key (swap array 0 bound) source = rankOf key array first := by
            intro source sourceBound
            rw [swap_rank (by omega) (by omega)]
            by_cases top : source = 0
            · exact ⟨bound, le_rfl, by simp only [swapRank, if_pos top]⟩
            · have notLast : source ≠ bound := by omega
              exact ⟨source, by omega, by simp only [swapRank, if_neg top, if_neg notLast]⟩
          by_cases inFront : i < bound
          · obtain ⟨source, sourceBound, same⟩ := @rank_front _ _ key _ _ _ spec.front (by omega) _
              inFront
            obtain ⟨first, firstBound, sameFirst⟩ := origin source sourceBound
            rw [same, sameFirst]
            exact target first firstBound
          · rw [rank_rest spec.rest (by omega), swap_rank (by omega) (by omega)]
            have iTop : i ≠ 0 := by omega
            have jTop : j ≠ 0 := by omega
            have jLast : j ≠ bound := by omega
            simp only [swapRank, if_neg iTop, if_neg jTop, if_neg jLast]
            by_cases iLast : i = bound
            · rw [if_pos iLast]
              exact sorted 0 j (by omega) (by omega) (by omega)
            · rw [if_neg iLast]
              exact sorted i j below (by omega) (by omega)
        obtain ⟨final, later, finalPerm, finalSorted⟩ := ih sifted
          (compares.perm (siftedPerm.trans perm)) (by omega) spec.heap nowSorted
        rw [if_neg single, out_bind_of run]
        dsimp only
        rw [apply_writes_nil, later]
        exact ⟨final, rfl, finalPerm.trans (siftedPerm.trans perm), finalSorted⟩

theorem heapsort_spec (array : List A) (compares : Compares key compare memory card array) :
    ∃ result, out (heapsort compare array) memory card = ((.ok result, memory), []) ∧
      result.Perm array ∧ result.Pairwise fun left right => key left ≤ key right := by
  have ranked : ∀ result : List A, SortedFrom (rankOf key result) result.length 1 →
      result.Pairwise fun left right => key left ≤ key right := by
    intro result sorted
    rw [List.pairwise_iff_getElem]
    intro i j iBound jBound below
    have order := sorted i j below (by omega) jBound
    simpa only [rankOf, List.getElem?_eq_getElem iBound, List.getElem?_eq_getElem jBound,
      WithBot.coe_le_coe] using order
  unfold heapsort
  by_cases small : array.length < 2
  · simp only [if_pos small]
    exact ⟨array, rfl, List.Perm.refl _, ranked array fun i j below behind inside => by omega⟩
  · have leaves : IsHeap (rankOf key array) array.length (array.length / 2) :=
      fun node positive inside above => by omega
    obtain ⟨heaped, run, spec⟩ := build_heap_spec (array.length / 2) array compares le_rfl leaves
    have perm := perm_of_front spec.front spec.rest
    obtain ⟨final, later, finalPerm, sorted⟩ := drain_heap_spec array.length heaped
      (compares.perm perm) (by rw [perm.length_eq]) spec.heap
      fun i j below behind inside => by rw [perm.length_eq] at inside; omega
    simp only [if_neg small]
    rw [out_bind_of run]
    dsimp only
    rw [apply_writes_nil, later]
    exact ⟨final, rfl, finalPerm.trans perm, ranked final sorted⟩

end Sorting

section Memory

variable {K : Type} [LinearOrder K] {key : A → K}

/-- The array that `heapsort` leaves. -/
def sortedBy (compare : A → A → Int) (array : List A) : List A :=
  let program : DevM Unit Unit (Except Unit (List A)) :=
    heapsort (fun left right => return .ok (compare left right)) array
  match (out program () fun _ => ()).1.1 with
  | .ok sorted => sorted
  | .error _ => array

theorem sortedBy_spec {compare : A → A → Int} {array : List A}
    (agrees : ∀ left ∈ array, ∀ right ∈ array, compare left right < 0 ↔ key left < key right) :
    (sortedBy compare array).Perm array ∧
      (sortedBy compare array).Pairwise fun left right => key left ≤ key right := by
  have compares : @Compares A Unit K Unit Unit _ key
      (fun left right => return .ok (compare left right)) () (fun _ => ()) array :=
    fun left leftIn right rightIn =>
      ⟨compare left right, rfl, agrees left leftIn right rightIn⟩
  obtain ⟨result, run, perm, sorted⟩ := heapsort_spec array compares
  have same : sortedBy compare array = result := by
    simp only [sortedBy, run]
  rw [same]
  exact ⟨perm, sorted⟩

end Memory

end SdDatabase.Heapsort
