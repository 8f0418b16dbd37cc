import SdDatabase.Mounted
import SdDatabase.Format

/-!
# Runs of a free list

Calls on a free list, together with the set of indices that are handed out. The
stack and that set split the indices of the list at any time, whichever of the
two initialisations the calls start from.
-/

namespace SdDatabase

set_option autoImplicit false

inductive FreeListCall where
  | allocate
  | free (sector : Nat)
  | freeRange (startIndex endIndex : Nat)

/-- A free list and the indices that its users hold. -/
structure TrackedList where
  list : FreeList
  allocated : Finset Nat

namespace TrackedList

/-- The users hold what a call returned and no longer what they gave back. -/
def step (tracked : TrackedList) : FreeListCall → TrackedList
  | .allocate =>
      let (sector, list) := freeListAllocate tracked.list
      if sector = uint16Max then ⟨list, tracked.allocated⟩
      else ⟨list, insert sector tracked.allocated⟩
  | .free sector => ⟨freeListFree tracked.list sector, tracked.allocated.erase sector⟩
  | .freeRange startIndex endIndex =>
      ⟨freeListFreeRange tracked.list startIndex endIndex,
        tracked.allocated \ Finset.Ico startIndex endIndex⟩

def run (tracked : TrackedList) (calls : List FreeListCall) : TrackedList :=
  calls.foldl step tracked

/-- Only indices that are held are given back. A range may go beyond the capacity. -/
def Allows (tracked : TrackedList) : FreeListCall → Prop
  | .allocate => True
  | .free sector => sector ∈ tracked.allocated
  | .freeRange startIndex endIndex =>
      ∀ index < tracked.list.capacity, startIndex ≤ index → index < endIndex →
        index ∈ tracked.allocated

instance (tracked : TrackedList) (call : FreeListCall) : Decidable (tracked.Allows call) :=
  match call with
  | .allocate => inferInstanceAs (Decidable True)
  | .free sector => inferInstanceAs (Decidable (sector ∈ tracked.allocated))
  | .freeRange startIndex endIndex =>
      inferInstanceAs (Decidable (∀ index < tracked.list.capacity, startIndex ≤ index →
        index < endIndex → index ∈ tracked.allocated))

def AllowsAll (tracked : TrackedList) : List FreeListCall → Prop
  | [] => True
  | call :: rest => tracked.Allows call ∧ (tracked.step call).AllowsAll rest

/-- Set up by `free_list_init` or by `free_list_empty_init`. -/
def Started (tracked : TrackedList) (capacity : Nat) : Prop :=
  (freeListInit capacity = some tracked.list ∧ tracked.allocated = ∅) ∨
    (freeListEmptyInit capacity = some tracked.list ∧ tracked.allocated = Finset.range capacity)

/-- The stack and the indices that are held split the indices below the capacity. -/
structure Partitioned (tracked : TrackedList) (capacity : Nat) : Prop where
  separate : tracked.list.freeStack.Nodup
  apart : Disjoint tracked.list.freeStack.toFinset tracked.allocated
  whole : tracked.list.freeStack.toFinset ∪ tracked.allocated = Finset.range capacity
  counted : tracked.list.usedCount = tracked.allocated.card

/-- The partition in the form in which a call keeps it. -/
structure Splits (tracked : TrackedList) (capacity : Nat) : Prop where
  stack : FreeHold tracked.list capacity fun index => index ∈ tracked.allocated
  inside : tracked.allocated ⊆ Finset.range capacity
  counted : tracked.list.usedCount = tracked.allocated.card

section Splits

variable {capacity : Nat} {tracked : TrackedList}

theorem Splits.partitioned (splits : Splits tracked capacity) :
    Partitioned tracked capacity where
  separate := splits.stack.nodup
  apart := by
    rw [Finset.disjoint_left]
    intro index inStack
    exact ((splits.stack.mem index).mp (List.mem_toFinset.mp inStack)).2
  whole := by
    ext index
    rw [Finset.mem_union, List.mem_toFinset, splits.stack.mem, Finset.mem_range]
    constructor
    · rintro (⟨below, _⟩ | held)
      · exact below
      · exact Finset.mem_range.mp (splits.inside held)
    · intro below
      by_cases held : index ∈ tracked.allocated
      · exact Or.inr held
      · exact Or.inl ⟨below, held⟩
  counted := splits.counted

theorem started_splits (started : Started tracked capacity) : Splits tracked capacity := by
  rcases started with ⟨full, none_⟩ | ⟨empty, all⟩
  · unfold freeListInit at full
    split at full
    · cases full
    · have list := Option.some.inj full
      constructor
      · rw [← list]
        apply (freelist_range capacity).congr
        intro index
        simp [none_]
      · rw [none_]
        exact Finset.empty_subset _
      · rw [← list, none_]
        rfl
  · unfold freeListEmptyInit at empty
    split at empty
    · cases empty
    · have list := Option.some.inj empty
      constructor
      · rw [← list]
        constructor
        · rfl
        · exact List.nodup_nil
        · intro index
          simp [all]
      · exact all.le
      · rw [← list, all, Finset.card_range]

theorem Splits.give_back (splits : Splits tracked capacity) {sector : Nat}
    (held : sector ∈ tracked.allocated) :
    Splits ⟨freeListFree tracked.list sector, tracked.allocated.erase sector⟩ capacity := by
  have below : sector < capacity := Finset.mem_range.mp (splits.inside held)
  have given : ∀ other, other ∈ tracked.allocated.erase sector ↔
      other ∈ tracked.allocated ∧ other ≠ sector := by
    intro other
    rw [Finset.mem_erase, and_comm]
  obtain ⟨pushed, kept⟩ := splits.stack.free below held given
  constructor
  · exact kept
  · exact (Finset.erase_subset _ _).trans splits.inside
  · have counted : (freeListFree tracked.list sector).usedCount = tracked.list.usedCount - 1 := by
      unfold freeListFree at pushed ⊢
      split
      · rename_i full
        rw [if_pos full] at pushed
        exact absurd pushed.symm (List.cons_ne_self _ _)
      · rfl
    rw [counted, splits.counted, Finset.card_erase_of_mem held]

theorem Splits.give_back_from (splits : Splits tracked capacity) (count index : Nat)
    (held : ∀ other < capacity, index ≤ other → other < index + count →
      other ∈ tracked.allocated) :
    Splits ⟨freeListFreeFrom tracked.list count index,
      tracked.allocated \ Finset.Ico index (index + count)⟩ capacity := by
  induction count generalizing tracked index with
  | zero => simpa [freeListFreeFrom] using splits
  | succ count ih =>
      unfold freeListFreeFrom
      by_cases past : tracked.list.capacity ≤ index
      · have outside : tracked.allocated \ Finset.Ico index (index + (count + 1)) =
            tracked.allocated := by
          rw [Finset.sdiff_eq_self_iff_disjoint, Finset.disjoint_left]
          intro other inside inRange
          have below := Finset.mem_range.mp (splits.inside inside)
          have above := (Finset.mem_Ico.mp inRange).1
          rw [splits.stack.capacity] at past
          omega
        rw [if_pos past, outside]
        exact splits
      · rw [if_neg past]
        have below : index < capacity := by
          rw [splits.stack.capacity] at past
          omega
        have first := splits.give_back (held index below (Nat.le_refl _) (by omega))
        have others := ih first (index + 1) fun other bound lower upper => by
          rw [Finset.mem_erase]
          exact ⟨by omega, held other bound (by omega) (by omega)⟩
        have same : tracked.allocated.erase index \ Finset.Ico (index + 1) (index + 1 + count) =
            tracked.allocated \ Finset.Ico index (index + (count + 1)) := by
          ext other
          simp only [Finset.mem_sdiff, Finset.mem_erase, Finset.mem_Ico]
          constructor
          · rintro ⟨⟨different, member⟩, outside⟩
            exact ⟨member, fun range => outside ⟨by omega, by omega⟩⟩
          · rintro ⟨member, outside⟩
            exact ⟨⟨fun same => outside ⟨by omega, by omega⟩, member⟩,
              fun range => outside ⟨by omega, by omega⟩⟩
        rw [← same]
        exact others

theorem Splits.give_back_range (splits : Splits tracked capacity) {startIndex endIndex : Nat}
    (allowed : tracked.Allows (.freeRange startIndex endIndex)) :
    Splits (tracked.step (.freeRange startIndex endIndex)) capacity := by
  have held : ∀ other < capacity, startIndex ≤ other →
      other < startIndex + (endIndex - startIndex) → other ∈ tracked.allocated := by
    intro other below lower upper
    apply allowed other _ lower (by omega)
    rwa [splits.stack.capacity]
  have freed := splits.give_back_from (endIndex - startIndex) startIndex held
  have range : Finset.Ico startIndex (startIndex + (endIndex - startIndex)) =
      Finset.Ico startIndex endIndex := by
    ext other
    simp only [Finset.mem_Ico]
    omega
  rw [range] at freed
  exact freed

variable (small : capacity ≤ uint16Max)

include small

theorem Splits.answer (splits : Splits tracked capacity) :
    (tracked.list.freeStack ≠ [] →
      (freeListAllocate tracked.list).1 ∈ tracked.list.freeStack ∧
        (freeListAllocate tracked.list).1 ≠ uint16Max) ∧
    (tracked.list.freeStack = [] → (freeListAllocate tracked.list).1 = uint16Max) := by
  cases stack : tracked.list.freeStack with
  | nil =>
      have none_ : (freeListAllocate tracked.list).1 = uint16Max := by
        unfold freeListAllocate
        rw [stack]
      exact ⟨fun some_ => absurd rfl some_, fun _ => none_⟩
  | cons sector rest =>
      have top : (freeListAllocate tracked.list).1 = sector := by
        unfold freeListAllocate
        rw [stack]
      have below := (splits.stack.top stack).1
      rw [top]
      simp only [uint16Max] at small ⊢
      exact ⟨fun _ => ⟨List.mem_cons_self, by omega⟩, fun none_ => absurd none_ (List.cons_ne_nil _ _)⟩

theorem Splits.hand_out (splits : Splits tracked capacity) :
    Splits (tracked.step .allocate) capacity := by
  cases stack : tracked.list.freeStack with
  | nil =>
      have same : tracked.step .allocate = tracked := by
        simp only [step, freeListAllocate, stack, if_true]
      rw [same]
      exact splits
  | cons sector rest =>
      obtain ⟨below, fresh⟩ := splits.stack.top stack
      have index : sector ≠ uint16Max := by
        simp only [uint16Max] at small ⊢
        omega
      have next : tracked.step .allocate =
          ⟨{ tracked.list with freeStack := rest, usedCount := tracked.list.usedCount + 1 },
            insert sector tracked.allocated⟩ := by
        simp only [step, freeListAllocate, stack]
        rw [if_neg index]
      rw [next]
      constructor
      · apply splits.stack.allocate stack
        intro other
        rw [Finset.mem_insert, or_comm]
      · rw [Finset.insert_subset_iff]
        exact ⟨Finset.mem_range.mpr below, splits.inside⟩
      · rw [Finset.card_insert_of_notMem fresh, ← splits.counted]

theorem Splits.step (splits : Splits tracked capacity) (call : FreeListCall)
    (allowed : tracked.Allows call) : Splits (tracked.step call) capacity := by
  cases call with
  | allocate => exact splits.hand_out small
  | free sector => exact splits.give_back allowed
  | freeRange startIndex endIndex => exact splits.give_back_range allowed

theorem Splits.run (splits : Splits tracked capacity) (calls : List FreeListCall)
    (allowed : tracked.AllowsAll calls) : Splits (tracked.run calls) capacity := by
  induction calls generalizing tracked with
  | nil => exact splits
  | cons call rest ih => exact ih (splits.step small call allowed.1) allowed.2

end Splits

end TrackedList

/-- At any time the stack and the indices that are held split the list, and an allocation
answers with an index of the stack as long as there is one. -/
theorem free_list_partition {capacity : Nat} (small : capacity ≤ uint16Max)
    {start : TrackedList} (started : start.Started capacity) (calls : List FreeListCall)
    (allowed : start.AllowsAll calls) :
    let now := start.run calls
    let sector := (freeListAllocate now.list).1
    now.Partitioned capacity ∧
      ((∃ index < capacity, index ∉ now.allocated) →
        sector ∈ now.list.freeStack ∧ sector < capacity ∧ sector ∉ now.allocated) ∧
      (sector = uint16Max ↔ ∀ index < capacity, index ∈ now.allocated) := by
  intro now sector
  have splits : now.Splits capacity := (TrackedList.started_splits started).run small calls allowed
  obtain ⟨given, exhausted⟩ := splits.answer small
  refine ⟨splits.partitioned, ?_, ?_⟩
  · rintro ⟨index, below, unheld⟩
    have some_ : now.list.freeStack ≠ [] :=
      List.ne_nil_of_mem ((splits.stack.mem index).mpr ⟨below, unheld⟩)
    have free := (splits.stack.mem sector).mp (given some_).1
    exact ⟨(given some_).1, free.1, free.2⟩
  · constructor
    · intro none_ index below
      by_contra unheld
      have some_ : now.list.freeStack ≠ [] :=
        List.ne_nil_of_mem ((splits.stack.mem index).mpr ⟨below, unheld⟩)
      exact (given some_).2 none_
    · intro all
      apply exhausted
      apply List.eq_nil_iff_forall_not_mem.mpr
      intro index inStack
      have free := (splits.stack.mem index).mp inStack
      exact free.2 (all index free.1)

/-- A list of three indices of which a range that ends beyond them is freed first. -/
theorem free_list_partition_example :
    let now := (⟨⟨[], 3, 3⟩, Finset.range 3⟩ : TrackedList).run
      [.freeRange 1 9, .allocate, .free 0, .allocate]
    let sector := (freeListAllocate now.list).1
    now.Partitioned 3 ∧
      ((∃ index < 3, index ∉ now.allocated) →
        sector ∈ now.list.freeStack ∧ sector < 3 ∧ sector ∉ now.allocated) ∧
      (sector = uint16Max ↔ ∀ index < 3, index ∈ now.allocated) :=
  free_list_partition (by decide) (Or.inr ⟨rfl, rfl⟩)
    [.freeRange 1 9, .allocate, .free 0, .allocate]
    ⟨by decide, by decide, by decide, by decide, trivial⟩

end SdDatabase
