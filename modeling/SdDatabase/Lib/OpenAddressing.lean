import Mathlib.Data.ZMod.Basic
import Mathlib.Combinatorics.Pigeonhole

/-!
# Open addressing with tombstones

A key is looked up along its own probe path until an empty cell ends the search.
Removing a key leaves a tombstone, which a search walks over and an insertion
may reuse. What keeps every key findable is that no cell before it on its path
is empty.
-/

namespace SdDatabase.OpenAddressing

set_option autoImplicit false

inductive Cell (K : Type) where
  | empty
  | deleted
  | occupied (key : K)

variable {K : Type}

def Cell.IsFree : Cell K → Prop
  | .occupied _ => False
  | _ => True

/-- The cell of the key, or the one to insert it into: the first tombstone when
there is one on the way, else the empty cell that ended the search. -/
def probe [DecidableEq K] (cell : Nat → Cell K) (key : K) : List Nat → Option Nat → Option Nat
  | [], firstFree => firstFree
  | index :: rest, firstFree =>
      match cell index with
      | .empty => some (firstFree.getD index)
      | .deleted => probe cell key rest (some (firstFree.getD index))
      | .occupied found => if found = key then some index else probe cell key rest firstFree

/-- The slot lies on the path behind cells that are not empty. -/
def Reaches (cell : Nat → Cell K) (path : List Nat) (slot : Nat) : Prop :=
  ∃ before after, path = before ++ slot :: after ∧ ∀ index ∈ before, cell index ≠ .empty

theorem Reaches.mem {cell : Nat → Cell K} {path : List Nat} {slot : Nat}
    (reaches : Reaches cell path slot) : slot ∈ path := by
  obtain ⟨before, after, rfl, _⟩ := reaches
  simp

theorem Reaches.update {cell : Nat → Cell K} {path : List Nat} {slot : Nat}
    (reaches : Reaches cell path slot) {next : Nat → Cell K}
    (kept : ∀ index, cell index ≠ .empty → next index ≠ .empty) : Reaches next path slot := by
  obtain ⟨before, after, split, full⟩ := reaches
  exact ⟨before, after, split, fun index member => kept index (full index member)⟩

section Probe

variable [DecidableEq K] {cell : Nat → Cell K} {key : K}

theorem probe_present {path : List Nat} {slot : Nat} (firstFree : Option Nat)
    (held : cell slot = .occupied key)
    (unique : ∀ index, cell index = .occupied key → index = slot)
    (reaches : Reaches cell path slot) : probe cell key path firstFree = some slot := by
  obtain ⟨before, after, rfl, full⟩ := reaches
  induction before generalizing firstFree with
  | nil => simp [probe, held]
  | cons index before ih =>
      have fullRest : ∀ other ∈ before, cell other ≠ .empty :=
        fun other member => full other (by simp [member])
      rw [List.cons_append, probe]
      cases content : cell index with
      | empty => exact absurd content (full index (by simp))
      | deleted => exact ih _ fullRest
      | occupied found =>
          by_cases same : found = key
          · rw [same] at content
            simp [same, unique index content]
          · simpa [same] using ih firstFree fullRest

theorem probe_absent_found {path : List Nat} (absent : ∀ index ∈ path, cell index ≠ .occupied key)
    (first : Nat) : probe cell key path (some first) = some first := by
  induction path with
  | nil => rfl
  | cons index rest ih =>
      have absentRest : ∀ other ∈ rest, cell other ≠ .occupied key :=
        fun other member => absent other (by simp [member])
      rw [probe]
      cases content : cell index with
      | empty => rfl
      | deleted => exact ih absentRest
      | occupied found =>
          have different : found ≠ key := by
            rintro rfl
            exact absent index (by simp) content
          simpa [different] using ih absentRest

theorem probe_absent {path : List Nat} (absent : ∀ index ∈ path, cell index ≠ .occupied key)
    (room : ∃ index ∈ path, (cell index).IsFree) :
    ∃ slot, probe cell key path none = some slot ∧ (cell slot).IsFree ∧
      Reaches cell path slot := by
  induction path with
  | nil => simp at room
  | cons index rest ih =>
      have absentRest : ∀ other ∈ rest, cell other ≠ .occupied key :=
        fun other member => absent other (by simp [member])
      rw [probe]
      cases content : cell index with
      | empty => exact ⟨index, rfl, by simp [Cell.IsFree, content], [], rest, rfl, by simp⟩
      | deleted =>
          exact ⟨index, probe_absent_found absentRest index, by simp [Cell.IsFree, content],
            [], rest, rfl, by simp⟩
      | occupied found =>
          have different : found ≠ key := by
            rintro rfl
            exact absent index (by simp) content
          have roomRest : ∃ other ∈ rest, (cell other).IsFree := by
            obtain ⟨other, member, free⟩ := room
            rcases List.mem_cons.mp member with rfl | member
            · simp [Cell.IsFree, content] at free
            · exact ⟨other, member, free⟩
          obtain ⟨slot, result, free, before, after, split, full⟩ := ih absentRest roomRest
          refine ⟨slot, by simpa [different] using result, free, index :: before, after,
            by rw [split, List.cons_append], ?_⟩
          intro other member
          rcases List.mem_cons.mp member with rfl | member
          · simp [content]
          · exact full other member

theorem probe_some {path : List Nat} {firstFree : Option Nat} {slot : Nat}
    (result : probe cell key path firstFree = some slot)
    (isFree : ∀ first, firstFree = some first → (cell first).IsFree) :
    cell slot = .occupied key ∨ (cell slot).IsFree := by
  induction path generalizing firstFree with
  | nil => exact Or.inr (isFree slot result)
  | cons index rest ih =>
      have first : (cell index).IsFree → (cell (firstFree.getD index)).IsFree := by
        intro free
        cases firstFree with
        | none => exact free
        | some earlier => exact isFree earlier rfl
      rw [probe] at result
      cases content : cell index with
      | empty =>
          rw [content] at result first
          right
          rw [← Option.some.inj result]
          exact first trivial
      | deleted =>
          rw [content] at result first
          apply ih result
          intro earlier same
          rw [← Option.some.inj same]
          exact first trivial
      | occupied found =>
          rw [content] at result
          dsimp only at result
          by_cases same : found = key
          · rw [if_pos same] at result
            left
            rw [← Option.some.inj result, content, same]
          · rw [if_neg same] at result
            exact ih result isFree

theorem probe_mem {path : List Nat} {firstFree : Option Nat} {slot : Nat}
    (result : probe cell key path firstFree = some slot) : slot ∈ path ∨ firstFree = some slot := by
  induction path generalizing firstFree with
  | nil => exact Or.inr result
  | cons index rest ih =>
      have first : firstFree.getD index ∈ index :: rest ∨
          firstFree = some (firstFree.getD index) := by
        cases firstFree with
        | none => exact Or.inl List.mem_cons_self
        | some earlier => exact Or.inr rfl
      rw [probe] at result
      cases content : cell index with
      | empty =>
          rw [content] at result
          rw [← Option.some.inj result]
          exact first
      | deleted =>
          rw [content] at result
          rcases ih result with later | here
          · exact Or.inl (List.mem_cons_of_mem index later)
          · rw [← Option.some.inj here]
            exact first
      | occupied found =>
          rw [content] at result
          dsimp only at result
          by_cases same : found = key
          · rw [if_pos same] at result
            rw [← Option.some.inj result]
            exact Or.inl List.mem_cons_self
          · rw [if_neg same] at result
            exact (ih result).imp_left (List.mem_cons_of_mem index)

end Probe

def doubleHashPath (start step size : Nat) : List Nat :=
  (List.range size).map fun attempt => (start + attempt * step) % size

theorem double_hash_path_lt {start step size index : Nat}
    (member : index ∈ doubleHashPath start step size) : index < size := by
  obtain ⟨attempt, inRange, rfl⟩ := List.mem_map.mp member
  exact Nat.mod_lt _ (by have := List.mem_range.mp inRange; omega)

theorem mem_double_hash_path {start step size index : Nat} (coprime : step.Coprime size)
    (bound : index < size) : index ∈ doubleHashPath start step size := by
  have : NeZero size := ⟨by omega⟩
  let unit := ZMod.unitOfCoprime step coprime
  let attempt : ZMod size := ((index : ZMod size) - start) * (unit⁻¹ : (ZMod size)ˣ)
  have solves : attempt * step = index - start := by
    have stepUnit : (step : ZMod size) = unit := (ZMod.coe_unitOfCoprime step coprime).symm
    simp only [attempt]
    rw [stepUnit, mul_assoc, Units.inv_mul, mul_one]
  have cast : ((start + attempt.val * step : Nat) : ZMod size) = (index : ZMod size) := by
    push_cast
    rw [ZMod.natCast_zmod_val, solves]
    ring
  refine List.mem_map.mpr ⟨attempt.val, List.mem_range.mpr (ZMod.val_lt attempt), ?_⟩
  have reduced := (ZMod.natCast_eq_natCast_iff' _ _ _).mp cast
  rwa [Nat.mod_eq_of_lt bound] at reduced

theorem double_hash_path_perm {step size : Nat} (start : Nat) (coprime : step.Coprime size) :
    (doubleHashPath start step size).Perm (List.range size) := by
  have visits : List.range size ⊆ doubleHashPath start step size :=
    fun index member => mem_double_hash_path coprime (List.mem_range.mp member)
  have covered := List.subperm_of_subset List.nodup_range visits
  apply List.Perm.symm
  apply covered.perm_of_length_le
  rw [doubleHashPath, List.length_map]

theorem exists_free {cell : Nat → Cell K} {size tags : Nat} (tag : Nat → Nat)
    (few : tags < size) (bounded : ∀ index < size, ¬(cell index).IsFree → tag index < tags)
    (separate : ∀ first < size, ∀ second < size, ¬(cell first).IsFree → ¬(cell second).IsFree →
      tag first = tag second → first = second) :
    ∃ index < size, (cell index).IsFree := by
  by_contra full
  push Not at full
  have mapsTo : ∀ index ∈ Finset.range size, tag index ∈ Finset.range tags := by
    intro index member
    have inside := Finset.mem_range.mp member
    exact Finset.mem_range.mpr (bounded index inside (full index inside))
  obtain ⟨first, firstIn, second, secondIn, different, same⟩ :=
    Finset.exists_ne_map_eq_of_card_lt_of_maps_to (by simpa using few) mapsTo
  have firstInside := Finset.mem_range.mp firstIn
  have secondInside := Finset.mem_range.mp secondIn
  exact different (separate first firstInside second secondInside (full first firstInside)
    (full second secondInside) same)

end SdDatabase.OpenAddressing
