import SdDatabase.OrderedIndex
import SdDatabase.Lib.Heapsort
import SdDatabase.Lib.SortedList

/-!
# Sorted array of the name index

`name_index/sorted_array.c`: the entries in one array, with binary searches for
lookups and moves of the entries behind a place for updates. The array gives on
every call the answer of the ordered list of its entries.
-/

namespace SdDatabase

open Bytes SortedList

set_option autoImplicit false

/-- The entries in use; their number is `count`. -/
structure NameArray where
  e : List SortedEntry

namespace NameArray

section Program

variable (capacity : Nat) (tiebreak : Nat → Nat → Int)

def entryCmp (entry : SortedEntry) (key : Fin 8 → Byte) (sector : Nat) : Int :=
  niCmp entry.key entry.contactIndex key sector tiebreak

/-- The loop of `search_exact` on `[lo, hi)`; every round shrinks the range. -/
def searchExactFrom (a : NameArray) (key : Fin 8 → Byte) (sector : Nat) :
    Nat → Nat → Nat → Bool × Nat
  | 0, lo, _ => (false, lo)
  | fuel + 1, lo, hi =>
      if lo < hi then
        let mid := lo + (hi - lo) / 2
        match a.e[mid]? with
        | none => (false, lo)
        | some entry =>
            let c := entryCmp tiebreak entry key sector
            if c = 0 then (true, mid)
            else if c < 0 then searchExactFrom a key sector fuel (mid + 1) hi
            else searchExactFrom a key sector fuel lo mid
      else (false, lo)

def searchExact (a : NameArray) (key : Fin 8 → Byte) (sector : Nat) : Bool × Nat :=
  a.searchExactFrom tiebreak key sector a.e.length 0 a.e.length

def lowerBoundFrom (a : NameArray) (key : Fin 8 → Byte) (sector : Nat) : Nat → Nat → Nat → Nat
  | 0, lo, _ => lo
  | fuel + 1, lo, hi =>
      if lo < hi then
        let mid := lo + (hi - lo) / 2
        match a.e[mid]? with
        | none => lo
        | some entry =>
            if entryCmp tiebreak entry key sector < 0 then
              lowerBoundFrom a key sector fuel (mid + 1) hi
            else lowerBoundFrom a key sector fuel lo mid
      else lo

def lowerBound (a : NameArray) (key : Fin 8 → Byte) (sector : Nat) : Nat :=
  a.lowerBoundFrom tiebreak key sector a.e.length 0 a.e.length

def naInit : NameArray := ⟨[]⟩

def naInsertKey (a : NameArray) (key : Fin 8 → Byte) (contactIndex : Nat) : Bool × NameArray :=
  if capacity ≤ a.e.length then (false, a)
  else
    let (found, pos) := a.searchExact tiebreak key contactIndex
    if found then (false, a)
    else (true, ⟨a.e.take pos ++ newEntry key contactIndex :: a.e.drop pos⟩)

def naInsert (a : NameArray) (name : List Byte) (contactIndex : Nat) : Bool × NameArray :=
  a.naInsertKey capacity tiebreak (niMakeKey name) contactIndex

def naRemove (a : NameArray) (name : List Byte) (contactIndex : Nat) : Bool × NameArray :=
  let (found, pos) := a.searchExact tiebreak (niMakeKey name) contactIndex
  if !found then (false, a) else (true, ⟨a.e.take pos ++ a.e.drop (pos + 1)⟩)

def naFind (a : NameArray) (name : List Byte) : Nat :=
  match a.e[a.lowerBound tiebreak (niMakeKey name) niProbeSector]? with
  | none => niNotFound
  | some entry =>
      if entryCmp tiebreak entry (niMakeKey name) niProbeSector = 0 then entry.contactIndex
      else niNotFound

def naSetMessage (a : NameArray) (name : List Byte) (contactIndex messageIndex : Nat) :
    Bool × NameArray :=
  let (found, pos) := a.searchExact tiebreak (niMakeKey name) contactIndex
  if !found then (false, a)
  else (true, ⟨a.e.modify pos fun entry => { entry with messageIndex }⟩)

def naCount (a : NameArray) : Nat := a.e.length

/-- The position of an iterator, and whether there is an entry. -/
def naSeekRank (a : NameArray) (rank : Nat) : Bool × Nat :=
  (decide (rank < a.e.length), rank)

def naSeek (a : NameArray) (name : List Byte) : Nat :=
  a.lowerBound tiebreak (niMakeKey name) niProbeSector

def naNext (a : NameArray) (pos : Nat) : Option (SortedEntry × Nat) :=
  (a.e[pos]?).map fun entry => (entry, pos + 1)

/-- Up to so many entries from an iterator on. -/
def naPage (a : NameArray) : Nat → Nat → List SortedEntry
  | 0, _ => []
  | count + 1, pos =>
      match a.naNext pos with
      | none => []
      | some (entry, pos) => entry :: naPage a count pos

def naRebuildAdd (a : NameArray) (key : Fin 8 → Byte) (contactIndex : Nat) : Bool × NameArray :=
  if capacity ≤ a.e.length then (false, a) else (true, ⟨a.e ++ [newEntry key contactIndex]⟩)

/-- `na_rebuild_finish`: heapsort in place. -/
def naRebuildFinish (a : NameArray) : NameArray :=
  ⟨Heapsort.sortedBy (fun first second =>
    entryCmp tiebreak first second.key second.contactIndex) a.e⟩

/-- The loop of `na_rebuild` over the names and their sectors. -/
def rebuildAdds (a : NameArray) : List (List Byte × Nat) → NameArray
  | [] => a
  | (name, sector) :: rest => rebuildAdds (a.naRebuildAdd capacity (niMakeKey name) sector).2 rest

def naRebuild (contacts : List (List Byte × Nat)) : Bool × NameArray :=
  if capacity < contacts.length then (false, ⟨[]⟩)
  else (true, (rebuildAdds capacity ⟨[]⟩ contacts).naRebuildFinish tiebreak)

end Program

section Searches

variable {tiebreak : Nat → Nat → Int} {a : NameArray} {key : Fin 8 → Byte} {sector : Nat}

def before (tiebreak : Nat → Nat → Int) (key : Fin 8 → Byte) (sector : Nat) :
    SortedEntry → Bool :=
  fun entry => decide (entryCmp tiebreak entry key sector < 0)

def frontLength (a : NameArray) (tiebreak : Nat → Nat → Int) (key : Fin 8 → Byte)
    (sector : Nat) : Nat :=
  (a.e.takeWhile (before tiebreak key sector)).length

theorem front_length_le : a.frontLength tiebreak key sector ≤ a.e.length :=
  (List.takeWhile_prefix _).length_le

theorem lower_bound_from_eq (front : Front (before tiebreak key sector) a.e) (fuel lo hi : Nat)
    (enough : hi - lo ≤ fuel) (short : hi ≤ a.e.length)
    (low : lo ≤ a.frontLength tiebreak key sector)
    (high : a.frontLength tiebreak key sector ≤ hi) :
    a.lowerBoundFrom tiebreak key sector fuel lo hi = a.frontLength tiebreak key sector := by
  induction fuel generalizing lo hi with
  | zero =>
      unfold lowerBoundFrom
      omega
  | succ fuel ih =>
      unfold lowerBoundFrom
      by_cases open_ : lo < hi
      · have inside : lo + (hi - lo) / 2 < a.e.length := by omega
        have split := front.lt_iff inside
        rw [if_pos open_]
        dsimp only
        rw [List.getElem?_eq_getElem inside]
        dsimp only
        by_cases less : entryCmp tiebreak a.e[lo + (hi - lo) / 2] key sector < 0
        · have behind := split.mpr (by simpa [before] using less)
          rw [if_pos less]
          exact ih (lo + (hi - lo) / 2 + 1) hi (by omega) short behind high
        · have ahead := mt split.mp (by simpa [before] using less)
          rw [if_neg less]
          exact ih lo (lo + (hi - lo) / 2) (by omega) (by omega) low (not_lt.mp ahead)
      · rw [if_neg open_]
        omega

theorem lower_bound_eq (front : Front (before tiebreak key sector) a.e) :
    a.lowerBound tiebreak key sector = a.frontLength tiebreak key sector :=
  lower_bound_from_eq front _ _ _ le_rfl le_rfl (Nat.zero_le _) front_length_le

/-- At most one entry is at the searched place. -/
def Sharp (tiebreak : Nat → Nat → Int) (key : Fin 8 → Byte) (sector : Nat)
    (entries : List SortedEntry) : Prop :=
  entries.Pairwise fun earlier later =>
    entryCmp tiebreak later key sector ≤ 0 → entryCmp tiebreak earlier key sector < 0

theorem Sharp.front {entries : List SortedEntry} (sharp : Sharp tiebreak key sector entries) :
    Front (before tiebreak key sector) entries :=
  sharp.imp fun less low => by
    rw [before, decide_eq_true_eq] at low ⊢
    exact less low.le

theorem search_exact_from_eq (sharp : Sharp tiebreak key sector a.e) (fuel lo hi : Nat)
    (enough : hi - lo ≤ fuel) (short : hi ≤ a.e.length)
    (low : lo ≤ a.frontLength tiebreak key sector)
    (high : a.frontLength tiebreak key sector ≤ hi)
    (beyond : ∀ inside : hi < a.e.length, 0 < entryCmp tiebreak a.e[hi] key sector) :
    ∃ found, a.searchExactFrom tiebreak key sector fuel lo hi =
        (found, a.frontLength tiebreak key sector) ∧
      (found = true ↔ ∃ inside : a.frontLength tiebreak key sector < a.e.length,
        entryCmp tiebreak a.e[a.frontLength tiebreak key sector] key sector = 0) := by
  have front := sharp.front
  induction fuel generalizing lo hi with
  | zero =>
      have last : lo = a.frontLength tiebreak key sector := by omega
      have same : hi = a.frontLength tiebreak key sector := by omega
      subst same
      refine ⟨false, by rw [searchExactFrom, last], iff_of_false (by simp) ?_⟩
      rintro ⟨inside, equal⟩
      have positive := beyond inside
      omega
  | succ fuel ih =>
      unfold searchExactFrom
      by_cases open_ : lo < hi
      · have inside : lo + (hi - lo) / 2 < a.e.length := by omega
        have split := front.lt_iff inside
        rw [if_pos open_]
        dsimp only
        rw [List.getElem?_eq_getElem inside]
        dsimp only
        by_cases equal : entryCmp tiebreak a.e[lo + (hi - lo) / 2] key sector = 0
        · have notBehind := mt split.mp (by simp [before, equal])
          have place : a.frontLength tiebreak key sector = lo + (hi - lo) / 2 := by
            rcases Nat.lt_or_ge (a.frontLength tiebreak key sector) (lo + (hi - lo) / 2) with
              less | more
            · have reached : a.frontLength tiebreak key sector < a.e.length := by omega
              have earlier := List.pairwise_iff_getElem.mp sharp _ _ reached inside less equal.le
              have inFront := (front.lt_iff reached).mpr (by simpa [before] using earlier)
              exact absurd inFront (lt_irrefl _)
            · exact le_antisymm (not_lt.mp notBehind) more
          rw [if_pos equal]
          refine ⟨true, by rw [place], iff_of_true rfl ?_⟩
          simp only [place]
          exact ⟨inside, equal⟩
        · rw [if_neg equal]
          by_cases less : entryCmp tiebreak a.e[lo + (hi - lo) / 2] key sector < 0
          · have behind := split.mpr (by simpa [before] using less)
            rw [if_pos less]
            exact ih (lo + (hi - lo) / 2 + 1) hi (by omega) short behind high beyond
          · have ahead := mt split.mp (by simpa [before] using less)
            rw [if_neg less]
            exact ih lo (lo + (hi - lo) / 2) (by omega) (by omega) low (not_lt.mp ahead)
              fun _ => by omega
      · have last : lo = a.frontLength tiebreak key sector := by omega
        have same : hi = a.frontLength tiebreak key sector := by omega
        subst same
        rw [if_neg open_]
        refine ⟨false, by rw [last], iff_of_false (by simp) ?_⟩
        rintro ⟨inside, equal⟩
        have positive := beyond inside
        omega

theorem page_eq (a : NameArray) (count pos : Nat) :
    a.naPage count pos = (a.e.drop pos).take count := by
  induction count generalizing pos with
  | zero => simp [naPage]
  | succ count ih =>
      unfold naPage naNext
      by_cases inside : pos < a.e.length
      · rw [List.getElem?_eq_getElem inside, Option.map_some]
        dsimp only
        rw [ih, List.drop_eq_getElem_cons inside, List.take_succ_cons]
      · have past := not_lt.mp inside
        rw [List.getElem?_eq_none past, List.drop_eq_nil_of_le past]
        rfl

theorem rebuild_adds_eq {capacity : Nat} (contacts : List (List Byte × Nat)) (a : NameArray)
    (room : a.e.length + contacts.length ≤ capacity) :
    (rebuildAdds capacity a contacts).e =
      a.e ++ contacts.map fun contact => newEntry (niMakeKey contact.1) contact.2 := by
  induction contacts generalizing a with
  | nil => simp [rebuildAdds]
  | cons contact rest ih =>
      obtain ⟨name, sector⟩ := contact
      rw [List.length_cons] at room
      rw [rebuildAdds, naRebuildAdd, if_neg (by omega), ih _ (by
        simp only [List.length_append, List.length_singleton]
        omega)]
      simp

end Searches

end NameArray

end SdDatabase
