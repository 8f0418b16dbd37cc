import SdDatabase.Lib.OpenAddressing

/-!
# Open addressing with doubtful comparisons

A search compares the key with the cells whose tag is the tag of the key, and some
of these comparisons fail. A failed one counts as a difference, so a search for a
key that is not there never goes wrong, and a search for one that is there goes wrong
only at its own cell. The cells that are compared stand on the path in the order in
which they were filled.
-/

namespace SdDatabase.OpenAddressing

set_option autoImplicit false

variable {K T : Type} [DecidableEq K] [DecidableEq T] (tag : K → T) (cell : Nat → Cell K) (key : K)

def suspect : Cell K → Bool
  | .occupied found => tag found = tag key
  | _ => false

def suspects (path : List Nat) : List Nat := path.filter fun index => suspect tag key (cell index)

/-- `probe` when the comparisons fail as the given pattern says, with their number. -/
def doubtfulProbe : List Nat → Option Nat → (Nat → Bool) → Option Nat × Nat
  | [], firstFree, _ => (firstFree, 0)
  | index :: rest, firstFree, fails =>
      match cell index with
      | .empty => (some (firstFree.getD index), 0)
      | .deleted => doubtfulProbe rest (some (firstFree.getD index)) fails
      | .occupied found =>
          if tag found = tag key then
            if fails 0 = false ∧ found = key then (some index, 1)
            else
              let later := doubtfulProbe rest firstFree fun attempt => fails (attempt + 1)
              (later.1, later.2 + 1)
          else doubtfulProbe rest firstFree fails

section Suspects

variable {tag cell key}

omit [DecidableEq K]

theorem suspects_append (first second : List Nat) :
    suspects tag cell key (first ++ second) =
      suspects tag cell key first ++ suspects tag cell key second := List.filter_append first second

theorem suspects_cons_suspect {index : Nat} {rest : List Nat}
    (same : suspect tag key (cell index) = true) :
    suspects tag cell key (index :: rest) = index :: suspects tag cell key rest :=
  List.filter_cons_of_pos same

theorem suspects_cons_other {index : Nat} {rest : List Nat}
    (other : suspect tag key (cell index) = false) :
    suspects tag cell key (index :: rest) = suspects tag cell key rest :=
  List.filter_cons_of_neg (by rw [other]; exact Bool.false_ne_true)

theorem suspect_full {content : Cell K} (same : suspect tag key content = true) :
    content ≠ .empty := by
  intro empty
  rw [empty] at same
  cases same

theorem not_reaches_behind {before after : List Nat} {slot index : Nat}
    (nodup : (before ++ slot :: after).Nodup) (empty : cell slot = .empty)
    (behind : index ∈ after) : ¬Reaches cell (before ++ slot :: after) index := by
  have parts := List.nodup_append.mp nodup
  have differs : index ≠ slot := by
    intro same
    rw [same] at behind
    exact (List.nodup_cons.mp parts.2.1).1 behind
  have notBefore : index ∉ before := fun member =>
    parts.2.2 index member index (List.mem_cons_of_mem slot behind) rfl
  rintro ⟨early, late, split, full⟩
  refine full slot ?_ empty
  rcases List.append_eq_append_iff.mp split with
    ⟨middle, isEarly, isAfter⟩ | ⟨middle, isBefore, isLate⟩
  · cases middle with
    | nil =>
        rw [List.nil_append, List.cons.injEq] at isAfter
        exact absurd isAfter.1.symm differs
    | cons head tail =>
        rw [List.cons_append, List.cons.injEq] at isAfter
        rw [isEarly, isAfter.1]
        exact List.mem_append_right before List.mem_cons_self
  · cases middle with
    | nil =>
        rw [List.nil_append, List.cons.injEq] at isLate
        exact absurd isLate.1 differs
    | cons head tail =>
        rw [List.cons_append, List.cons.injEq] at isLate
        rw [isBefore, isLate.1] at notBefore
        exact absurd (List.mem_append_right early List.mem_cons_self) notBefore

/-- All suspects are in front of the first empty cell. -/
theorem suspects_behind {before after : List Nat} {slot : Nat}
    (nodup : (before ++ slot :: after).Nodup) (empty : cell slot = .empty)
    (reached : ∀ index, suspect tag key (cell index) = true →
      Reaches cell (before ++ slot :: after) index) :
    suspects tag cell key (before ++ slot :: after) = suspects tag cell key before := by
  have free : suspect tag key (cell slot) = false := by
    rw [empty]
    rfl
  have none_ : suspects tag cell key after = [] := by
    apply List.filter_eq_nil_iff.mpr
    intro index behind same
    exact not_reaches_behind nodup empty behind (reached index same)
  rw [suspects_append, suspects_cons_other free, none_, List.append_nil]

theorem exists_first_empty {path : List Nat} (room : ∃ index ∈ path, cell index = .empty) :
    ∃ before slot after, path = before ++ slot :: after ∧
      (∀ index ∈ before, cell index ≠ .empty) ∧ cell slot = .empty := by
  induction path with
  | nil => simp at room
  | cons index rest ih =>
      by_cases empty : cell index = .empty
      · exact ⟨[], index, rest, rfl, by simp, empty⟩
      · have roomRest : ∃ other ∈ rest, cell other = .empty := by
          obtain ⟨other, member, free⟩ := room
          rcases List.mem_cons.mp member with rfl | member
          · exact absurd free empty
          · exact ⟨other, member, free⟩
        obtain ⟨before, slot, after, split, full, free⟩ := ih roomRest
        refine ⟨index :: before, slot, after, by rw [split, List.cons_append], ?_, free⟩
        intro other member
        rcases List.mem_cons.mp member with rfl | member
        · exact empty
        · exact full other member

end Suspects

section Search

variable {tag cell key}

/-- The search walks over other keys, whatever the comparisons with them do. -/
theorem doubtful_pass {before : List Nat} (rest : List Nat) (fails : Nat → Bool)
    (others : ∀ index ∈ before, ∃ found, cell index = .occupied found ∧ found ≠ key) :
    doubtfulProbe tag cell key (before ++ rest) none fails =
      (let later := doubtfulProbe tag cell key rest none fun attempt =>
        fails (attempt + (suspects tag cell key before).length)
       (later.1, later.2 + (suspects tag cell key before).length)) := by
  induction before generalizing fails with
  | nil => rfl
  | cons index before ih =>
      obtain ⟨found, content, different⟩ := others index List.mem_cons_self
      have othersRest := fun other member => others other (List.mem_cons_of_mem index member)
      rw [List.cons_append, doubtfulProbe, content]
      dsimp only
      by_cases same : tag found = tag key
      · have isSuspect : suspect tag key (cell index) = true := by
          rw [content]
          exact decide_eq_true same
        have notHit : ¬(fails 0 = false ∧ found = key) := fun hit => different hit.2
        rw [if_pos same, if_neg notHit, ih _ othersRest, suspects_cons_suspect isSuspect]
        rfl
      · have notSuspect : suspect tag key (cell index) = false := by
          rw [content]
          exact decide_eq_false same
        rw [if_neg same, ih _ othersRest, suspects_cons_other notSuspect]

/-- A key that is not there is searched for up to the first empty cell. -/
theorem doubtful_absent {before after : List Nat} {slot : Nat} (fails : Nat → Bool)
    (others : ∀ index ∈ before, ∃ found, cell index = .occupied found ∧ found ≠ key)
    (empty : cell slot = .empty) :
    doubtfulProbe tag cell key (before ++ slot :: after) none fails =
      (some slot, (suspects tag cell key before).length) := by
  rw [doubtful_pass _ _ others, doubtfulProbe, empty]
  simp

theorem doubtful_present {before middle after : List Nat} {held slot : Nat} (fails : Nat → Bool)
    (others : ∀ index ∈ before ++ middle, ∃ found, cell index = .occupied found ∧ found ≠ key)
    (own : cell held = .occupied key) (empty : cell slot = .empty) :
    doubtfulProbe tag cell key (before ++ held :: (middle ++ slot :: after)) none fails =
      if fails (suspects tag cell key before).length = false then
        (some held, (suspects tag cell key before).length + 1)
      else (some slot, (suspects tag cell key before).length + 1 +
        (suspects tag cell key middle).length) := by
  have first := fun index member => others index (List.mem_append_left middle member)
  have second := fun index member => others index (List.mem_append_right before member)
  rw [doubtful_pass _ _ first, doubtfulProbe, own]
  dsimp only
  rw [if_pos rfl, Nat.zero_add]
  by_cases read : fails (suspects tag cell key before).length = false
  · rw [if_pos ⟨read, rfl⟩, if_pos read, Nat.add_comm 1]
  · rw [if_neg fun hit => read hit.1, if_neg read, doubtful_absent _ second empty]
    dsimp only
    rw [Nat.add_right_comm, Nat.add_comm _ (suspects tag cell key before).length, Nat.add_assoc,
      Nat.add_assoc, Nat.add_comm 1]

theorem doubtful_free {path : List Nat} {firstFree : Option Nat} (fails : Nat → Bool)
    (others : ∀ index ∈ path, cell index ≠ .occupied key)
    (start : ∀ slot, firstFree = some slot → (cell slot).IsFree) :
    ∀ slot, (doubtfulProbe tag cell key path firstFree fails).1 = some slot →
      (cell slot).IsFree := by
  induction path generalizing firstFree fails with
  | nil => exact start
  | cons index rest ih =>
      have othersRest := fun other member => others other (List.mem_cons_of_mem index member)
      have next : (cell index).IsFree →
          ∀ slot, some (firstFree.getD index) = some slot → (cell slot).IsFree := by
        intro free slot isSlot
        rw [← Option.some.inj isSlot]
        cases known : firstFree with
        | none => exact free
        | some first => exact start first known
      rw [doubtfulProbe]
      cases content : cell index with
      | empty => exact next (by rw [content]; exact trivial)
      | deleted => exact ih _ othersRest (next (by rw [content]; exact trivial))
      | occupied found =>
          have notHit : ¬(fails 0 = false ∧ found = key) := by
            rintro ⟨_, rfl⟩
            exact others index List.mem_cons_self content
          dsimp only
          rw [if_neg notHit]
          split
          · exact ih _ othersRest start
          · exact ih _ othersRest start

theorem doubtful_walk {before : List Nat} {firstFree : Option Nat} (rest : List Nat)
    (fails : Nat → Bool) (others : ∀ index ∈ before, cell index ≠ .empty ∧ cell index ≠ .occupied key)
    (start : ∀ slot, firstFree = some slot → (cell slot).IsFree) :
    ∃ free, (∀ slot, free = some slot → (cell slot).IsFree) ∧
      doubtfulProbe tag cell key (before ++ rest) firstFree fails =
        (let later := doubtfulProbe tag cell key rest free fun attempt =>
          fails (attempt + (suspects tag cell key before).length)
         (later.1, later.2 + (suspects tag cell key before).length)) := by
  induction before generalizing firstFree fails with
  | nil => exact ⟨firstFree, start, rfl⟩
  | cons index before ih =>
      have othersRest := fun other member => others other (List.mem_cons_of_mem index member)
      obtain ⟨notEmpty, notKey⟩ := others index List.mem_cons_self
      rw [List.cons_append, doubtfulProbe]
      cases content : cell index with
      | empty => exact absurd content notEmpty
      | deleted =>
          have notSuspect : suspect tag key (cell index) = false := by
            rw [content]
            rfl
          have next : ∀ slot, some (firstFree.getD index) = some slot → (cell slot).IsFree := by
            intro slot isSlot
            rw [← Option.some.inj isSlot]
            cases known : firstFree with
            | none =>
                rw [Option.getD_none, content]
                exact trivial
            | some first => exact start first known
          rw [suspects_cons_other notSuspect]
          exact ih fails othersRest next
      | occupied found =>
          have notHit : ¬(fails 0 = false ∧ found = key) := by
            rintro ⟨_, rfl⟩
            exact notKey content
          dsimp only
          by_cases same : tag found = tag key
          · have isSuspect : suspect tag key (cell index) = true := by
              rw [content]
              exact decide_eq_true same
            obtain ⟨free, isFree, walked⟩ := ih (fun attempt => fails (attempt + 1)) othersRest start
            refine ⟨free, isFree, ?_⟩
            rw [if_pos same, if_neg notHit, walked, suspects_cons_suspect isSuspect]
            rfl
          · have notSuspect : suspect tag key (cell index) = false := by
              rw [content]
              exact decide_eq_false same
            rw [if_neg same, suspects_cons_other notSuspect]
            exact ih fails othersRest start

/-- The one cell with the key, in a table that may have tombstones. It is found when the
comparison with it succeeds, and else the search ends at a free cell, if it ends at all. -/
theorem doubtful_only {before after : List Nat} {held : Nat} (fails : Nat → Bool)
    (others : ∀ index ∈ before, cell index ≠ .empty ∧ cell index ≠ .occupied key)
    (behind : ∀ index ∈ after, cell index ≠ .occupied key) (own : cell held = .occupied key) :
    (fails (suspects tag cell key before).length = false →
      doubtfulProbe tag cell key (before ++ held :: after) none fails =
        (some held, (suspects tag cell key before).length + 1)) ∧
    (fails (suspects tag cell key before).length = true →
      ∀ slot, (doubtfulProbe tag cell key (before ++ held :: after) none fails).1 = some slot →
        (cell slot).IsFree) := by
  obtain ⟨free, isFree, walked⟩ := @doubtful_walk _ _ _ _ tag cell key before none (held :: after)
    fails others (by rintro slot ⟨⟩)
  rw [walked, doubtfulProbe, own]
  dsimp only
  rw [if_pos rfl, Nat.zero_add]
  constructor
  · intro read
    rw [if_pos ⟨read, rfl⟩, Nat.add_comm 1]
  · intro failed
    rw [if_neg (by rw [failed]; simp)]
    exact doubtful_free _ behind isFree

end Search

section Insertion

variable {tag cell key} {next : Nat → Cell K} {new : K} {slot : Nat}

omit [DecidableEq K]

theorem suspects_insert_other (free : (cell slot).IsFree) (filled : next slot = .occupied new)
    (kept : ∀ index, index ≠ slot → next index = cell index) (different : tag new ≠ tag key)
    (path : List Nat) : suspects tag next key path = suspects tag cell key path := by
  apply List.filter_congr
  intro index _
  by_cases same : index = slot
  · have isFree : suspect tag key (cell slot) = false := by
      cases content : cell slot with
      | empty => rfl
      | deleted => rfl
      | occupied found =>
          rw [content] at free
          exact absurd free id
    rw [same, filled, isFree]
    exact decide_eq_false different
  · rw [kept index same]

theorem suspects_insert {before after : List Nat} (nodup : (before ++ slot :: after).Nodup)
    (empty : cell slot = .empty) (filled : next slot = .occupied new)
    (kept : ∀ index, index ≠ slot → next index = cell index) (same : tag new = tag key)
    (reached : ∀ index, suspect tag key (cell index) = true →
      Reaches cell (before ++ slot :: after) index) :
    suspects tag next key (before ++ slot :: after) =
      suspects tag cell key (before ++ slot :: after) ++ [slot] := by
  have parts := List.nodup_append.mp nodup
  have elsewhere : ∀ path : List Nat, slot ∉ path →
      suspects tag next key path = suspects tag cell key path := by
    intro path absent
    apply List.filter_congr
    intro index member
    rw [kept index fun isSlot => absent (by rwa [← isSlot])]
  have isSuspect : suspect tag key (next slot) = true := by
    rw [filled]
    exact decide_eq_true same
  have behind := suspects_behind nodup empty reached
  have free : suspect tag key (cell slot) = false := by
    rw [empty]
    rfl
  have none_ : suspects tag cell key after = [] := by
    rw [suspects_append, suspects_cons_other free] at behind
    exact List.append_right_eq_self.mp behind
  rw [suspects_append, suspects_cons_suspect isSuspect, elsewhere after
    (List.nodup_cons.mp parts.2.1).1, elsewhere before fun member =>
      parts.2.2 slot member slot List.mem_cons_self rfl, none_, behind]

end Insertion

end SdDatabase.OpenAddressing
