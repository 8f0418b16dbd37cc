import Mathlib.Data.List.Infix
import Mathlib.Data.List.Lex
import Mathlib.Order.Lattice

/-!
# Sorted lists

The elements of a sorted list that have a property which smaller elements share
are its first ones, as many as there are. So the strings of a sorted list that
start with one text stand together, behind the strings that are smaller than it.
-/

namespace SdDatabase.SortedList

set_option autoImplicit false

section Ranks

variable {A K : Type} [LinearOrder K] {rank : A → K} {list : List A} {small : A → Bool}

/-- The elements with a property that smaller elements share come first. -/
theorem lt_countP_iff (sorted : list.Pairwise fun left right => rank left ≤ rank right)
    (shared : ∀ left right, rank left ≤ rank right → small right = true → small left = true)
    {index : Nat} (inside : index < list.length) :
    index < list.countP small ↔ small list[index] = true := by
  induction list generalizing index with
  | nil => exact absurd inside (Nat.not_lt_zero _)
  | cons head rest ih =>
      obtain ⟨headLow, restSorted⟩ := List.pairwise_cons.mp sorted
      cases first : small head with
      | true =>
          rw [List.countP_cons_of_pos first]
          cases index with
          | zero => exact iff_of_true (Nat.succ_pos _) first
          | succ index =>
              rw [List.getElem_cons_succ, Nat.succ_lt_succ_iff]
              exact ih restSorted (Nat.lt_of_succ_lt_succ inside)
      | false =>
          have none_ : (head :: rest).countP small = 0 := by
            apply List.countP_eq_zero.mpr
            intro element member holds
            rcases List.mem_cons.mp member with rfl | later
            · rw [first] at holds
              cases holds
            · have again := shared head element (headLow element later) holds
              rw [first] at again
              cases again
          rw [none_]
          refine iff_of_false (Nat.not_lt_zero _) fun holds => ?_
          exact List.countP_eq_zero.mp none_ _ (List.getElem_mem inside) holds

end Ranks

section Prefixes

variable {A : Type} [LinearOrder A] {text word later : List A}

theorem cons_le_iff {first second : A} {rest other : List A} :
    first :: rest ≤ second :: other ↔ first < second ∨ (first = second ∧ rest ≤ other) := by
  rw [le_iff_lt_or_eq, List.cons_lt_cons_iff, List.cons.injEq, or_assoc, ← and_or_left,
    ← le_iff_lt_or_eq]

theorem prefix_of_between (low : text ≤ word) (high : word ≤ later) (starts : text <+: later) :
    text <+: word := by
  induction text generalizing word later with
  | nil => exact List.nil_prefix
  | cons first rest ih =>
      obtain ⟨tail, rfl⟩ := starts
      cases word with
      | nil => exact absurd low (not_le.mpr (List.nil_lt_cons _ _))
      | cons letter word =>
          rw [List.cons_append] at high
          rcases cons_le_iff.mp low with less | ⟨rfl, lowRest⟩
          · rcases cons_le_iff.mp high with greater | ⟨rfl, _⟩
            · exact absurd less (lt_asymm greater)
            · exact absurd less (lt_irrefl _)
          · rcases cons_le_iff.mp high with greater | ⟨_, highRest⟩
            · exact absurd greater (lt_irrefl _)
            · exact List.cons_prefix_cons.mpr
                ⟨rfl, ih lowRest highRest (List.prefix_append rest tail)⟩

theorem prefix_le (starts : text <+: word) : text ≤ word := by
  obtain ⟨tail, rfl⟩ := starts
  induction text with
  | nil =>
      cases tail with
      | nil => exact le_refl _
      | cons letter tail => exact le_of_lt (List.nil_lt_cons letter tail)
  | cons first rest ih => exact cons_le_iff.mpr (Or.inr ⟨rfl, ih⟩)

theorem prefix_block {B : Type} {words : B → List A} {list : List B}
    (sorted : list.Pairwise fun left right => words left ≤ words right) (text : List A) :
    ∃ stop, list.countP (fun item => decide (words item < text)) ≤ stop ∧ stop ≤ list.length ∧
      ∀ index, (inside : index < list.length) →
        (text <+: words list[index] ↔
          list.countP (fun item => decide (words item < text)) ≤ index ∧ index < stop) := by
  obtain ⟨small, smallEq⟩ : ∃ small, small = fun item => decide (words item < text) := ⟨_, rfl⟩
  obtain ⟨upTo, upToEq⟩ :
      ∃ upTo, upTo = fun item => decide (words item < text ∨ text <+: words item) := ⟨_, rfl⟩
  have smallShared : ∀ left right, words left ≤ words right → small right = true →
      small left = true := by
    intro left right order holds
    rw [smallEq, decide_eq_true_eq] at holds ⊢
    exact order.trans_lt holds
  have upToShared : ∀ left right, words left ≤ words right → upTo right = true →
      upTo left = true := by
    intro left right order holds
    rw [upToEq, decide_eq_true_eq] at holds ⊢
    rcases holds with less | starts
    · exact Or.inl (order.trans_lt less)
    · rcases lt_or_ge (words left) text with less | low
      · exact Or.inl less
      · exact Or.inr (prefix_of_between low order starts)
  rw [← smallEq]
  refine ⟨list.countP upTo, ?_, List.countP_le_length, ?_⟩
  · apply List.countP_mono_left
    intro item _ holds
    rw [smallEq, decide_eq_true_eq] at holds
    rw [upToEq, decide_eq_true_eq]
    exact Or.inl holds
  · intro index inside
    rw [← not_lt, lt_countP_iff sorted smallShared inside, lt_countP_iff sorted upToShared inside,
      smallEq, upToEq, decide_eq_true_eq, decide_eq_true_eq]
    constructor
    · intro starts
      exact ⟨not_lt.mpr (prefix_le starts), Or.inr starts⟩
    · intro both
      exact both.2.resolve_left both.1

end Prefixes

section Fronts

variable {A : Type} {list : List A} {low : A → Bool}

/-- The elements with a property that earlier elements share. -/
def Front (low : A → Bool) (list : List A) : Prop :=
  list.Pairwise fun earlier later => low later = true → low earlier = true

theorem Front.takeWhile (front : Front low list) : list.takeWhile low = list.filter low := by
  induction list with
  | nil => rfl
  | cons head rest ih =>
      obtain ⟨headLow, restFront⟩ := List.pairwise_cons.mp front
      cases first : low head with
      | true => rw [List.takeWhile_cons_of_pos first, List.filter_cons_of_pos first, ih restFront]
      | false =>
          have none_ : rest.filter low = [] := by
            rw [List.filter_eq_nil_iff]
            intro element member holds
            rw [headLow element member holds] at first
            cases first
          rw [List.takeWhile_cons_of_neg (by simp [first]), List.filter_cons_of_neg (by simp [first]),
            none_]

theorem Front.dropWhile (front : Front low list) :
    list.dropWhile low = list.filter fun element => !low element := by
  induction list with
  | nil => rfl
  | cons head rest ih =>
      obtain ⟨headLow, restFront⟩ := List.pairwise_cons.mp front
      cases first : low head with
      | true => rw [List.dropWhile_cons_of_pos first, List.filter_cons_of_neg (by simp [first]),
          ih restFront]
      | false =>
          have all : rest.filter (fun element => !low element) = rest := by
            rw [List.filter_eq_self]
            intro element member
            cases holds : low element with
            | false => rfl
            | true =>
                rw [headLow element member holds] at first
                cases first
          rw [List.dropWhile_cons_of_neg (by simp [first]), List.filter_cons_of_pos (by simp [first]),
            all]

theorem Front.lt_iff (front : Front low list) {index : Nat} (inside : index < list.length) :
    index < (list.takeWhile low).length ↔ low list[index] = true := by
  induction list generalizing index with
  | nil => exact absurd inside (Nat.not_lt_zero _)
  | cons head rest ih =>
      obtain ⟨headLow, restFront⟩ := List.pairwise_cons.mp front
      cases first : low head with
      | true =>
          rw [List.takeWhile_cons_of_pos first, List.length_cons]
          cases index with
          | zero => exact iff_of_true (Nat.succ_pos _) first
          | succ index =>
              rw [List.getElem_cons_succ, Nat.succ_lt_succ_iff]
              exact ih restFront (Nat.lt_of_succ_lt_succ inside)
      | false =>
          rw [List.takeWhile_cons_of_neg (by simp [first])]
          refine iff_of_false (Nat.not_lt_zero _) fun holds => ?_
          cases index with
          | zero =>
              rw [List.getElem_cons_zero, first] at holds
              cases holds
          | succ index =>
              rw [headLow _ (List.getElem_mem _) holds] at first
              cases first

theorem drop_while_congr {other : A → Bool} (same : ∀ element ∈ list, low element = other element) :
    list.dropWhile low = list.dropWhile other := by
  induction list with
  | nil => rfl
  | cons head rest ih =>
      rw [List.dropWhile_cons, List.dropWhile_cons, same head List.mem_cons_self,
        ih fun element member => same element (List.mem_cons_of_mem _ member)]

theorem take_front (list : List A) (low : A → Bool) :
    list.take (list.takeWhile low).length = list.takeWhile low := by
  exact (List.prefix_iff_eq_take.mp (List.takeWhile_prefix low)).symm

theorem drop_front (list : List A) (low : A → Bool) :
    list.drop (list.takeWhile low).length = list.dropWhile low := by
  have whole := List.take_append_drop (list.takeWhile low).length list
  rw [take_front] at whole
  have parts := @List.takeWhile_append_dropWhile _ low list
  exact List.append_cancel_left (whole.trans parts.symm)

end Fronts

end SdDatabase.SortedList
