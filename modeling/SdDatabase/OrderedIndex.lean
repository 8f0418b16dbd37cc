import SdDatabase.NameIndexCommon
import Mathlib.Data.List.Basic

/-!
# What a name index is for

The entries of an index in their order, and the calls on an index. Both candidates
answer as this list does.
-/

namespace SdDatabase

open Bytes

set_option autoImplicit false

/-- A call on an index. The searched name comes with what the callback makes of it. -/
inductive IndexCall (P : Type) where
  | insert (name : List Byte) (contactIndex : Nat)
  | insertKey (key : Fin 8 → Byte) (contactIndex : Nat)
  | remove (name : List Byte) (contactIndex : Nat)
  | find (name : List Byte) (probe : P)
  | setMessage (name : List Byte) (contactIndex messageIndex : Nat)
  | count
  | pageAtRank (rank n : Nat)
  | pageAtName (name : List Byte) (probe : P) (n : Nat)
  | rebuild (contacts : List (List Byte × Nat))

inductive IndexAnswer where
  | done (ok : Bool)
  | number (value : Nat)
  | page (inside : Bool) (entries : List SortedEntry)

def newEntry (key : Fin 8 → Byte) (contactIndex : Nat) : SortedEntry :=
  ⟨key, contactIndex, noMessage⟩

/-- The key and the sector of a contact in a rebuild. -/
def contactPlace (contact : List Byte × Nat) : (Fin 8 → Byte) × Nat :=
  (niMakeKey contact.1, contact.2)

/-- What callers promise: the sector of the probe is no contact, and a rebuild
names each contact once and counts them in sixteen bits. -/
def IndexCall.Allowed {P : Type} : IndexCall P → Prop
  | .insert _ contactIndex => contactIndex ≠ niProbeSector
  | .insertKey _ contactIndex => contactIndex ≠ niProbeSector
  | .remove _ contactIndex => contactIndex ≠ niProbeSector
  | .setMessage _ contactIndex _ => contactIndex ≠ niProbeSector
  | .rebuild contacts =>
      contacts.length < 65536 ∧ (∀ contact ∈ contacts, contact.2 ≠ niProbeSector) ∧
        (contacts.map contactPlace).Nodup
  | _ => True

section Index

variable {P K : Type} [LinearOrder K] (nameRank : Nat → K) (probeRank : P → K) (capacity : Nat)

def SortedEntry.rank (entry : SortedEntry) : EntryRank K :=
  entryRank nameRank entry.key entry.contactIndex

def SortedEntry.place (entry : SortedEntry) : List Nat ×ₗ K :=
  placeRank entry.key (nameRank entry.contactIndex)

/-- An index holds one entry of a rank. -/
def present (rank : EntryRank K) (entries : List SortedEntry) : Bool :=
  entries.any fun entry => entry.rank nameRank = rank

def indexInsert (key : Fin 8 → Byte) (contactIndex : Nat) (entries : List SortedEntry) :
    Bool × List SortedEntry :=
  let rank := entryRank nameRank key contactIndex
  if capacity ≤ entries.length ∨ present nameRank rank entries then (false, entries)
  else
    (true, entries.filter (fun entry => entry.rank nameRank < rank) ++
      newEntry key contactIndex :: entries.filter fun entry => rank < entry.rank nameRank)

def indexRemove (key : Fin 8 → Byte) (contactIndex : Nat) (entries : List SortedEntry) :
    Bool × List SortedEntry :=
  let rank := entryRank nameRank key contactIndex
  (present nameRank rank entries, entries.filter fun entry => entry.rank nameRank ≠ rank)

def indexFind (place : List Nat ×ₗ K) (entries : List SortedEntry) : Nat :=
  ((entries.find? fun entry => entry.place nameRank = place).map (·.contactIndex)).getD niNotFound

def indexSetMessage (key : Fin 8 → Byte) (contactIndex messageIndex : Nat)
    (entries : List SortedEntry) : Bool × List SortedEntry :=
  let rank := entryRank nameRank key contactIndex
  (present nameRank rank entries, entries.map fun entry =>
    if entry.rank nameRank = rank then { entry with messageIndex } else entry)

def sortedContacts (contacts : List (List Byte × Nat)) : List SortedEntry :=
  (contacts.map fun contact => newEntry (niMakeKey contact.1) contact.2).mergeSort
    fun first second => first.rank nameRank ≤ second.rank nameRank

def indexStep (entries : List SortedEntry) : IndexCall P → IndexAnswer × List SortedEntry
  | .insert name contactIndex =>
      let (ok, next) := indexInsert nameRank capacity (niMakeKey name) contactIndex entries
      (.done ok, next)
  | .insertKey key contactIndex =>
      let (ok, next) := indexInsert nameRank capacity key contactIndex entries
      (.done ok, next)
  | .remove name contactIndex =>
      let (ok, next) := indexRemove nameRank (niMakeKey name) contactIndex entries
      (.done ok, next)
  | .find name probe =>
      (.number (indexFind nameRank (placeRank (niMakeKey name) (probeRank probe)) entries), entries)
  | .setMessage name contactIndex messageIndex =>
      let (ok, next) := indexSetMessage nameRank (niMakeKey name) contactIndex messageIndex entries
      (.done ok, next)
  | .count => (.number entries.length, entries)
  | .pageAtRank rank n =>
      (.page (decide (rank < entries.length)) ((entries.drop rank).take n), entries)
  | .pageAtName name probe n =>
      (.page true ((entries.dropWhile fun entry =>
        entry.place nameRank < placeRank (niMakeKey name) (probeRank probe)).take n), entries)
  | .rebuild contacts =>
      if capacity < contacts.length then (.done false, [])
      else (.done true, sortedContacts nameRank contacts)

def indexRun (entries : List SortedEntry) : List (IndexCall P) → List IndexAnswer × List SortedEntry
  | [] => ([], entries)
  | call :: rest =>
      let (answer, next) := indexStep nameRank probeRank capacity entries call
      let (answers, last) := indexRun next rest
      (answer :: answers, last)

structure IndexOrder (entries : List SortedEntry) : Prop where
  sorted : entries.Pairwise fun first second => first.rank nameRank < second.rank nameRank
  real : ∀ entry ∈ entries, entry.contactIndex ≠ niProbeSector
  room : entries.length ≤ capacity

variable {nameRank probeRank capacity} {entries : List SortedEntry}

theorem present_iff {rank : EntryRank K} :
    present nameRank rank entries = true ↔ ∃ entry ∈ entries, entry.rank nameRank = rank := by
  simp [present]

theorem insert_perm {rank : EntryRank K} (fresh : SortedEntry)
    (absent : ¬present nameRank rank entries = true) :
    (entries.filter (fun entry => entry.rank nameRank < rank) ++
      fresh :: entries.filter fun entry => rank < entry.rank nameRank).Perm (fresh :: entries) := by
  have same : entries.filter (fun entry => rank < entry.rank nameRank) =
      entries.filter fun entry => !decide (entry.rank nameRank < rank) := by
    apply List.filter_congr
    intro entry member
    have different : entry.rank nameRank ≠ rank := fun equal =>
      absent (present_iff.mpr ⟨entry, member, equal⟩)
    rw [← decide_not, decide_eq_decide, not_lt]
    exact ⟨le_of_lt, fun low => lt_of_le_of_ne low different.symm⟩
  rw [same]
  exact List.perm_middle.trans ((List.filter_append_perm _ entries).cons fresh)

theorem IndexOrder.insert (inOrder : IndexOrder nameRank capacity entries) {key : Fin 8 → Byte}
    {contactIndex : Nat} (real : contactIndex ≠ niProbeSector) :
    IndexOrder nameRank capacity (indexInsert nameRank capacity key contactIndex entries).2 := by
  unfold indexInsert
  dsimp only
  split
  · exact inOrder
  · rename_i possible
    obtain ⟨room, absent⟩ := not_or.mp possible
    have perm := insert_perm (newEntry key contactIndex) absent
    constructor
    · rw [List.pairwise_append, List.pairwise_cons]
      refine ⟨inOrder.sorted.filter _, ⟨?_, inOrder.sorted.filter _⟩, ?_⟩
      · intro entry member
        exact of_decide_eq_true (List.mem_filter.mp member).2
      · intro low lowIn high highIn
        have below : low.rank nameRank < entryRank nameRank key contactIndex :=
          of_decide_eq_true (List.mem_filter.mp lowIn).2
        rcases List.mem_cons.mp highIn with rfl | above
        · exact below
        · exact below.trans (of_decide_eq_true (List.mem_filter.mp above).2)
    · intro entry member
      rcases List.mem_cons.mp (perm.mem_iff.mp member) with rfl | old
      · exact real
      · exact inOrder.real entry old
    · rw [perm.length_eq, List.length_cons]
      omega

theorem IndexOrder.sublist {fewer : List SortedEntry} (inOrder : IndexOrder nameRank capacity entries)
    (sublist : fewer.Sublist entries) : IndexOrder nameRank capacity fewer where
  sorted := inOrder.sorted.sublist sublist
  real entry member := inOrder.real entry (sublist.subset member)
  room := sublist.length_le.trans inOrder.room

theorem IndexOrder.map {change : SortedEntry → SortedEntry}
    (inOrder : IndexOrder nameRank capacity entries)
    (keys : ∀ entry, (change entry).key = entry.key)
    (sectors : ∀ entry, (change entry).contactIndex = entry.contactIndex) :
    IndexOrder nameRank capacity (entries.map change) where
  sorted := by
    rw [List.pairwise_map]
    apply inOrder.sorted.imp
    intro first second less
    simpa only [SortedEntry.rank, keys, sectors] using less
  real := by
    intro entry member
    obtain ⟨source, inside, rfl⟩ := List.mem_map.mp member
    rw [sectors]
    exact inOrder.real source inside
  room := by
    rw [List.length_map]
    exact inOrder.room

theorem new_entry_injective : ∀ first second : List Byte × Nat,
    (newEntry (niMakeKey first.1) first.2).rank nameRank =
      (newEntry (niMakeKey second.1) second.2).rank nameRank →
    contactPlace first = contactPlace second := by
  intro first second same
  obtain ⟨keys, sectors⟩ := entry_rank_injective same
  exact Prod.ext keys sectors

theorem sorted_contacts_perm (contacts : List (List Byte × Nat)) :
    (sortedContacts nameRank contacts).Perm
      (contacts.map fun contact => newEntry (niMakeKey contact.1) contact.2) :=
  List.mergeSort_perm _ _

theorem sorted_contacts_sorted (contacts : List (List Byte × Nat)) :
    (sortedContacts nameRank contacts).Pairwise fun low high =>
      low.rank nameRank ≤ high.rank nameRank := by
  have ordered := @List.pairwise_mergeSort SortedEntry
    (fun first second => decide (first.rank nameRank ≤ second.rank nameRank))
    (fun a b c first second => by
      simp only [decide_eq_true_eq] at *
      exact first.trans second)
    (fun a b => by
      simp only [Bool.or_eq_true, decide_eq_true_eq]
      exact le_total _ _)
    (contacts.map fun contact => newEntry (niMakeKey contact.1) contact.2)
  exact ordered.imp fun less => by simpa using less

theorem sorted_contacts_order {contacts : List (List Byte × Nat)}
    (real : ∀ contact ∈ contacts, contact.2 ≠ niProbeSector)
    (once : (contacts.map contactPlace).Nodup) (room : contacts.length ≤ capacity) :
    IndexOrder nameRank capacity (sortedContacts nameRank contacts) := by
  have perm := @sorted_contacts_perm K _ nameRank contacts
  have weak := @sorted_contacts_sorted K _ nameRank contacts
  have distinct : (sortedContacts nameRank contacts).Pairwise fun first second =>
      first.rank nameRank ≠ second.rank nameRank := by
    rw [perm.pairwise_iff fun different => different.symm, List.pairwise_map]
    apply (List.pairwise_map.mp once).imp
    intro first second different same
    exact different (new_entry_injective first second same)
  constructor
  · exact (weak.and distinct).imp fun both => lt_of_le_of_ne both.1 both.2
  · intro entry member
    obtain ⟨contact, inside, rfl⟩ := List.mem_map.mp (perm.mem_iff.mp member)
    exact real contact inside
  · rw [perm.length_eq, List.length_map]
    exact room

theorem index_step_order (inOrder : IndexOrder nameRank capacity entries) {call : IndexCall P}
    (allowed : call.Allowed) :
    IndexOrder nameRank capacity (indexStep nameRank probeRank capacity entries call).2 := by
  cases call with
  | insert name contactIndex => exact inOrder.insert allowed
  | insertKey key contactIndex => exact inOrder.insert allowed
  | remove name contactIndex => exact inOrder.sublist List.filter_sublist
  | find name probe => exact inOrder
  | setMessage name contactIndex messageIndex =>
      apply inOrder.map
      · intro entry
        split <;> rfl
      · intro entry
        split <;> rfl
  | count => exact inOrder
  | pageAtRank rank n => exact inOrder
  | pageAtName name probe n => exact inOrder
  | rebuild contacts =>
      unfold indexStep
      dsimp only
      split
      · exact ⟨List.Pairwise.nil, fun _ member => absurd member List.not_mem_nil, Nat.zero_le _⟩
      · exact sorted_contacts_order allowed.2.1 allowed.2.2 (by omega)

theorem index_run_inserts (inOrder : IndexOrder nameRank capacity entries)
    (contacts : List (List Byte × Nat)) (real : ∀ contact ∈ contacts, contact.2 ≠ niProbeSector)
    (once : (contacts.map contactPlace).Nodup)
    (absent : ∀ contact ∈ contacts,
      ¬present nameRank (entryRank nameRank (niMakeKey contact.1) contact.2) entries = true)
    (room : entries.length + contacts.length ≤ capacity) :
    ∃ last, @indexRun P K _ nameRank probeRank capacity entries
        (contacts.map fun contact => .insert contact.1 contact.2) =
        (List.replicate contacts.length (.done true), last) ∧
      last.Perm (entries ++ contacts.map fun contact =>
        newEntry (niMakeKey contact.1) contact.2) ∧
      IndexOrder nameRank capacity last := by
  induction contacts generalizing entries with
  | nil => exact ⟨entries, rfl, by simp, inOrder⟩
  | cons contact rest ih =>
      rw [List.length_cons] at room
      rw [List.map_cons, List.nodup_cons] at once
      obtain ⟨next, nextEq⟩ : ∃ next, next =
        (indexInsert nameRank capacity (niMakeKey contact.1) contact.2 entries).2 := ⟨_, rfl⟩
      have new := absent contact List.mem_cons_self
      have ordered : IndexOrder nameRank capacity next :=
        nextEq ▸ inOrder.insert (real contact List.mem_cons_self)
      have possible : ¬(capacity ≤ entries.length ∨
          present nameRank (entryRank nameRank (niMakeKey contact.1) contact.2) entries = true) :=
        not_or.mpr ⟨by omega, new⟩
      have inserted : indexInsert nameRank capacity (niMakeKey contact.1) contact.2 entries =
          (true, next) := by
        rw [nextEq, indexInsert, if_neg possible]
      have perm : next.Perm (newEntry (niMakeKey contact.1) contact.2 :: entries) := by
        rw [nextEq, indexInsert, if_neg possible]
        exact insert_perm (newEntry (niMakeKey contact.1) contact.2) new
      have stillAbsent : ∀ other ∈ rest,
          ¬present nameRank (entryRank nameRank (niMakeKey other.1) other.2) next = true := by
        intro other member there
        obtain ⟨entry, inside, same⟩ := present_iff.mp there
        rcases List.mem_cons.mp (perm.mem_iff.mp inside) with rfl | old
        · have places := new_entry_injective contact other same
          exact once.1 (places ▸ List.mem_map_of_mem member)
        · exact absent other (List.mem_cons_of_mem _ member) (present_iff.mpr ⟨entry, old, same⟩)
      obtain ⟨last, run, lastPerm, lastOrder⟩ := ih ordered
        (fun other member => real other (List.mem_cons_of_mem _ member)) once.2 stillAbsent
        (by rw [perm.length_eq, List.length_cons]; omega)
      refine ⟨last, ?_, ?_, lastOrder⟩
      · rw [List.map_cons, indexRun, indexStep, inserted]
        dsimp only
        rw [run]
        rfl
      · rw [List.map_cons]
        exact lastPerm.trans ((perm.append_right _).trans List.perm_middle.symm)

end Index

end SdDatabase
