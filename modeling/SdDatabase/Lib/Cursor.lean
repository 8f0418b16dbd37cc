import Mathlib.Algebra.GroupWithZero.Nat
import Mathlib.Data.List.Basic
import Mathlib.Data.Nat.Find
import Mathlib.Order.Basic
import Mathlib.Order.Nat

/-!
# Cursors over the marked places of a range

A cursor stands on a place below `total` or nowhere, which means both that it has
not started and that it is at its end. What it still has to pass is a list: moving
on takes the head of that list and leaves its tail.
-/

namespace SdDatabase.Cursor

set_option autoImplicit false

variable (marked : Nat → Bool) (total : Nat)

/-- The marked places from `start` on, in increasing order. -/
def upward (start : Nat) : List Nat := (List.range' start (total - start)).filter marked

/-- The marked places before `limit`, in decreasing order. -/
def downward (limit : Nat) : List Nat := ((List.range limit).filter marked).reverse

def places : List Nat := (List.range total).filter marked

def following : Option Nat → Nat
  | none => 0
  | some place => place + 1

def preceding : Option Nat → Nat
  | none => total
  | some place => place

def next (place : Option Nat) : Option Nat := (upward marked total (following place)).head?

def prev (place : Option Nat) : Option Nat := (downward marked (preceding total place)).head?

/-- The answers of `count` moves. -/
def visits (move : Option Nat → Option Nat) : Nat → Option Nat → List (Option Nat)
  | 0, _ => []
  | count + 1, place => move place :: visits move count (move place)

variable {marked total}

theorem places_upward : places marked total = upward marked total 0 := by
  rw [places, upward, Nat.sub_zero, List.range_eq_range']

theorem places_downward : (places marked total).reverse = downward marked total := rfl

theorem mem_upward {start place : Nat} :
    place ∈ upward marked total start ↔ start ≤ place ∧ place < total ∧ marked place = true := by
  rw [upward, List.mem_filter, List.mem_range'_1]
  constructor
  · rintro ⟨⟨low, high⟩, mark⟩
    exact ⟨low, by omega, mark⟩
  · rintro ⟨low, high, mark⟩
    exact ⟨⟨low, by omega⟩, mark⟩

theorem upward_past {start : Nat} (past : total ≤ start) : upward marked total start = [] := by
  rw [upward, Nat.sub_eq_zero_of_le past, List.range'_zero, List.filter_nil]

theorem upward_step {start : Nat} (inside : start < total) :
    upward marked total start =
      if marked start then start :: upward marked total (start + 1)
      else upward marked total (start + 1) := by
  have split : total - start = total - (start + 1) + 1 := by omega
  rw [upward, split, List.range'_succ, List.filter_cons]
  rfl

theorem downward_step (limit : Nat) :
    downward marked (limit + 1) =
      if marked limit then limit :: downward marked limit else downward marked limit := by
  rw [downward, List.range_succ, List.filter_append, List.reverse_append]
  cases mark : marked limit <;> simp [mark, downward]

theorem upward_skip {start place : Nat} (order : start ≤ place)
    (clear : ∀ other, start ≤ other → other < place → other < total → marked other = false) :
    upward marked total start = upward marked total place := by
  induction place, order using Nat.le_induction with
  | base => rfl
  | succ place order ih =>
      rw [ih fun other low high => clear other low (by omega)]
      by_cases inside : place < total
      · rw [upward_step inside, clear place order (by omega) inside]
        rfl
      · rw [upward_past (by omega), upward_past (by omega)]

theorem downward_skip {place limit : Nat} (order : place ≤ limit)
    (clear : ∀ other, place ≤ other → other < limit → marked other = false) :
    downward marked limit = downward marked place := by
  induction limit, order using Nat.le_induction with
  | base => rfl
  | succ limit order ih =>
      rw [downward_step, clear limit order (by omega), ih fun other low high =>
        clear other low (by omega)]
      rfl

theorem upward_at {start place : Nat} (order : start ≤ place) (inside : place < total)
    (mark : marked place = true)
    (clear : ∀ other, start ≤ other → other < place → marked other = false) :
    upward marked total start = place :: upward marked total (place + 1) := by
  rw [upward_skip order fun other low high _ => clear other low high, upward_step inside, if_pos mark]

theorem downward_at {place limit : Nat} (inside : place < limit) (mark : marked place = true)
    (clear : ∀ other, place < other → other < limit → marked other = false) :
    downward marked limit = place :: downward marked place := by
  rw [downward_skip (Nat.succ_le_of_lt inside) clear, downward_step, if_pos mark]

theorem upward_nil {start : Nat}
    (clear : ∀ other, start ≤ other → other < total → marked other = false) :
    upward marked total start = [] := by
  by_cases past : total ≤ start
  · exact upward_past past
  · rw [upward_skip (by omega : start ≤ total) fun other low _ high => clear other low high,
      upward_past (le_refl total)]

theorem downward_nil {limit : Nat} (clear : ∀ other < limit, marked other = false) :
    downward marked limit = [] := by
  rw [downward_skip (Nat.zero_le limit) fun other _ high => clear other high]
  rfl

/-- The head is the first marked place and the tail what lies behind it. -/
theorem upward_cons {start place : Nat} {rest : List Nat}
    (ahead : upward marked total start = place :: rest) :
    start ≤ place ∧ place < total ∧ marked place = true ∧
      (∀ other, start ≤ other → other < place → marked other = false) ∧
      rest = upward marked total (place + 1) := by
  by_cases some_ : ∃ other, start ≤ other ∧ other < total ∧ marked other = true
  · have least := Nat.find_spec some_
    have clear : ∀ other, start ≤ other → other < Nat.find some_ → marked other = false := by
      intro other low high
      by_contra mark
      exact Nat.find_min some_ high ⟨low, by omega, by simpa using mark⟩
    rw [upward_at least.1 least.2.1 least.2.2 clear] at ahead
    injection ahead with head tail
    subst head
    exact ⟨least.1, least.2.1, least.2.2, clear, tail.symm⟩
  · rw [upward_nil fun other low high => by
      by_contra mark
      exact some_ ⟨other, low, high, by simpa using mark⟩] at ahead
    cases ahead

theorem downward_cons {limit place : Nat} {rest : List Nat}
    (ahead : downward marked limit = place :: rest) :
    place < limit ∧ marked place = true ∧
      (∀ other, place < other → other < limit → marked other = false) ∧
      rest = downward marked place := by
  induction limit with
  | zero => cases ahead
  | succ limit ih =>
      rw [downward_step] at ahead
      cases mark : marked limit with
      | true =>
          rw [mark, if_pos rfl] at ahead
          injection ahead with head tail
          subst head
          exact ⟨Nat.lt_succ_self _, mark, fun other low high => by omega, tail.symm⟩
      | false =>
          rw [mark, if_neg Bool.false_ne_true] at ahead
          obtain ⟨below, marks, clear, tail⟩ := ih ahead
          refine ⟨by omega, marks, fun other low high => ?_, tail⟩
          by_cases last : other = limit
          · rw [last, mark]
          · exact clear other low (by omega)

theorem visits_next {place : Option Nat} :
    visits (next marked total) ((upward marked total (following place)).length + 1) place =
      (upward marked total (following place)).map some ++ [none] := by
  obtain ⟨ahead, known⟩ : ∃ ahead, upward marked total (following place) = ahead := ⟨_, rfl⟩
  rw [known]
  induction ahead generalizing place with
  | nil =>
      have stop : next marked total place = none := by rw [next, known, List.head?_nil]
      rw [List.length_nil, visits, stop]
      rfl
  | cons first rest ih =>
      obtain ⟨_, _, _, _, tail⟩ := upward_cons known
      have move : next marked total place = some first := by rw [next, known, List.head?_cons]
      rw [List.length_cons, visits, move, List.map_cons, List.cons_append]
      exact congrArg _ (ih tail.symm)

theorem visits_prev {place : Option Nat} :
    visits (prev marked total) ((downward marked (preceding total place)).length + 1) place =
      (downward marked (preceding total place)).map some ++ [none] := by
  obtain ⟨ahead, known⟩ : ∃ ahead, downward marked (preceding total place) = ahead := ⟨_, rfl⟩
  rw [known]
  induction ahead generalizing place with
  | nil =>
      have stop : prev marked total place = none := by rw [prev, known, List.head?_nil]
      rw [List.length_nil, visits, stop]
      rfl
  | cons first rest ih =>
      obtain ⟨_, _, _, tail⟩ := downward_cons known
      have move : prev marked total place = some first := by rw [prev, known, List.head?_cons]
      rw [List.length_cons, visits, move, List.map_cons, List.cons_append]
      exact congrArg _ (ih tail.symm)

theorem next_iff_prev {first second : Nat} (secondIn : second < total)
    (firstMark : marked first = true) (secondMark : marked second = true) :
    next marked total (some first) = some second ↔ prev marked total (some second) = some first := by
  unfold next prev following preceding
  constructor
  · intro moved
    obtain ⟨rest, ahead⟩ := List.head?_eq_some_iff.mp moved
    obtain ⟨low, _, _, clear, _⟩ := upward_cons ahead
    change first + 1 ≤ second at low
    change (downward marked second).head? = _
    rw [downward_at (by omega) firstMark fun other above below => clear other above below]
    rfl
  · intro moved
    obtain ⟨rest, ahead⟩ := List.head?_eq_some_iff.mp moved
    obtain ⟨low, _, clear, _⟩ := downward_cons ahead
    change first < second at low
    change (upward marked total (first + 1)).head? = _
    rw [upward_at (by omega) secondIn secondMark fun other above below => clear other above below]
    rfl

/-- Pages of the given sizes behind one another, each with its start. -/
def pages : Nat → List Nat → List (Nat × Nat)
  | _, [] => []
  | start, size :: rest => (start, size) :: pages (start + size) rest

theorem pages_joined {A : Type} (list : List A) (start : Nat) (sizes : List Nat) :
    (pages start sizes).flatMap (fun page => (list.drop page.1).take page.2) =
      (list.drop start).take sizes.sum := by
  induction sizes generalizing start with
  | nil => rfl
  | cons size rest ih =>
      rw [pages, List.flatMap_cons, ih, List.sum_cons, List.take_add, List.drop_drop]

theorem pages_whole {A : Type} (list : List A) {sizes : List Nat}
    (enough : list.length ≤ sizes.sum) :
    (pages 0 sizes).flatMap (fun page => (list.drop page.1).take page.2) = list := by
  rw [pages_joined, List.drop_zero, List.take_of_length_le enough]

theorem places_sorted (marked : Nat → Bool) (total : Nat) :
    (places marked total).Pairwise (· < ·) := List.pairwise_lt_range.filter _

theorem mem_places {marked : Nat → Bool} {total place : Nat} :
    place ∈ places marked total ↔ place < total ∧ marked place = true := by
  rw [places, List.mem_filter, List.mem_range]

end SdDatabase.Cursor
