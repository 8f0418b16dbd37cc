import SdDatabase.NameArray
import Mathlib.Data.List.TakeWhile

/-!
# The sorted array as an index

Every call on the array returns the answer of the ordered list and leaves its
entries.
-/

namespace SdDatabase

open Bytes SortedList

set_option autoImplicit false

section Step

variable {P : Type}

/-- What the callback takes for the searched name after a call. -/
def IndexCall.probeAfter (probe : P) : IndexCall P → P
  | .find _ searched => searched
  | .pageAtName _ searched _ => searched
  | _ => probe

namespace NameArray

variable (capacity : Nat) (tiebreak : P → Nat → Nat → Int)

/-- A call, with the callback as it was left before. -/
def naStep (probe : P) (a : NameArray) : IndexCall P → IndexAnswer × NameArray
  | .insert name contactIndex =>
      let (ok, a) := a.naInsert capacity (tiebreak probe) name contactIndex
      (.done ok, a)
  | .insertKey key contactIndex =>
      let (ok, a) := a.naInsertKey capacity (tiebreak probe) key contactIndex
      (.done ok, a)
  | .remove name contactIndex =>
      let (ok, a) := a.naRemove (tiebreak probe) name contactIndex
      (.done ok, a)
  | .find name searched => (.number (a.naFind (tiebreak searched) name), a)
  | .setMessage name contactIndex messageIndex =>
      let (ok, a) := a.naSetMessage (tiebreak probe) name contactIndex messageIndex
      (.done ok, a)
  | .count => (.number a.naCount, a)
  | .pageAtRank rank n =>
      let (inside, pos) := a.naSeekRank rank
      (.page inside (a.naPage n pos), a)
  | .pageAtName name searched n =>
      (.page true (a.naPage n (a.naSeek (tiebreak searched) name)), a)
  | .rebuild contacts =>
      let (ok, a) := naRebuild capacity (tiebreak probe) contacts
      (.done ok, a)

def naRun (probe : P) (a : NameArray) : List (IndexCall P) → List IndexAnswer × NameArray
  | [] => ([], a)
  | call :: rest =>
      let (answer, next) := a.naStep capacity tiebreak probe call
      let (answers, last) := naRun (call.probeAfter probe) next rest
      (answer :: answers, last)

end NameArray

end Step

section Ranks

variable {P K : Type} [LinearOrder K] {tiebreak : P → Nat → Nat → Int} {nameRank : Nat → K}
  {probeRank : P → K} {capacity : Nat} {entries : List SortedEntry} {key : Fin 8 → Byte}
  {sector : Nat} {a : NameArray}

open NameArray

theorem entry_cmp_rank (breaks : BreaksTies tiebreak nameRank probeRank) (probe : P)
    {entry : SortedEntry} (real : entry.contactIndex ≠ niProbeSector)
    (sectorReal : sector ≠ niProbeSector) :
    (NameArray.entryCmp (tiebreak probe) entry key sector < 0 ↔
      entry.rank nameRank < entryRank nameRank key sector) ∧
    (NameArray.entryCmp (tiebreak probe) entry key sector = 0 ↔
      entry.rank nameRank = entryRank nameRank key sector) :=
  ni_cmp_sign breaks probe entry.key key real sectorReal

theorem entry_cmp_place (breaks : BreaksTies tiebreak nameRank probeRank) (probe : P)
    {entry : SortedEntry} (real : entry.contactIndex ≠ niProbeSector) :
    (NameArray.entryCmp (tiebreak probe) entry key niProbeSector < 0 ↔
      entry.place nameRank < placeRank key (probeRank probe)) ∧
    (NameArray.entryCmp (tiebreak probe) entry key niProbeSector = 0 ↔
      entry.place nameRank = placeRank key (probeRank probe)) :=
  ni_cmp_probe breaks probe entry.key key real

theorem IndexOrder.places (inOrder : IndexOrder nameRank capacity entries) :
    entries.Pairwise fun first second => first.place nameRank ≤ second.place nameRank :=
  inOrder.sorted.imp fun less => place_rank_mono less

theorem IndexOrder.page_front (inOrder : IndexOrder nameRank capacity entries)
    {place : List Nat ×ₗ K} {keep : SortedEntry → Bool}
    (kept : ∀ entry ∈ entries, keep entry = true ↔ place ≤ entry.place nameRank) :
    (entries.dropWhile fun entry => entry.place nameRank < place) = entries.filter keep := by
  have front : Front (fun entry : SortedEntry => decide (entry.place nameRank < place)) entries :=
    inOrder.places.imp fun notLess low => by
      rw [decide_eq_true_eq] at low ⊢
      exact notLess.trans_lt low
  rw [front.dropWhile]
  apply List.filter_congr
  intro entry member
  rw [Bool.eq_iff_iff, kept entry member, ← decide_not, decide_eq_true_eq, not_lt]

/-- A lookup returns the first entry of a place. -/
theorem index_find_cases (place : List Nat ×ₗ K) (entries : List SortedEntry) :
    (∃ front entry rear, entries = front ++ entry :: rear ∧ entry.place nameRank = place ∧
      (∀ other ∈ front, other.place nameRank ≠ place) ∧
      indexFind nameRank place entries = entry.contactIndex) ∨
    (indexFind nameRank place entries = niNotFound ∧
      ∀ entry ∈ entries, entry.place nameRank ≠ place) := by
  unfold indexFind
  cases search : entries.find? fun entry => entry.place nameRank = place with
  | none =>
      refine Or.inr ⟨rfl, ?_⟩
      intro entry member same
      exact List.find?_eq_none.mp search entry member (decide_eq_true same)
  | some entry =>
      obtain ⟨found, front, rear, parts, passed⟩ := List.find?_eq_some_iff_append.mp search
      refine Or.inl ⟨front, entry, rear, parts, of_decide_eq_true found, ?_, rfl⟩
      intro other member same
      have skipped := passed other member
      rw [decide_eq_true same] at skipped
      cases skipped

theorem sharp_of_order (breaks : BreaksTies tiebreak nameRank probeRank) (probe : P)
    (inOrder : IndexOrder nameRank capacity entries) (real : sector ≠ niProbeSector) :
    Sharp (tiebreak probe) key sector entries := by
  apply inOrder.sorted.imp_of_mem
  intro first second firstIn secondIn less notAbove
  have earlier := @entry_cmp_rank _ _ _ _ _ _ key _ breaks probe first
    (inOrder.real first firstIn) real
  have later := @entry_cmp_rank _ _ _ _ _ _ key _ breaks probe second
    (inOrder.real second secondIn) real
  rw [earlier.1]
  rcases notAbove.lt_or_eq with below | equal
  · exact less.trans (later.1.mp below)
  · rw [← later.2.mp equal]
    exact less

theorem front_of_order (breaks : BreaksTies tiebreak nameRank probeRank) (probe : P)
    (inOrder : IndexOrder nameRank capacity entries) :
    Front (before (tiebreak probe) key niProbeSector) entries := by
  apply inOrder.places.imp_of_mem
  intro first second firstIn secondIn notLess low
  rw [before, decide_eq_true_eq] at low ⊢
  rw [(entry_cmp_place breaks probe (inOrder.real first firstIn)).1]
  exact notLess.trans_lt ((entry_cmp_place breaks probe (inOrder.real second secondIn)).1.mp low)

/-- What `search_exact` finds in an ordered array. -/
structure Located (a : NameArray) (nameRank : Nat → K) (key : Fin 8 → Byte) (sector : Nat)
    (found : Bool) (pos : Nat) : Prop where
  present : found = present nameRank (entryRank nameRank key sector) a.e
  front : a.e.take pos = a.e.filter fun entry => entry.rank nameRank < entryRank nameRank key sector
  here : found = true → ∃ entry, a.e.drop pos = entry :: a.e.drop (pos + 1) ∧
    entry.rank nameRank = entryRank nameRank key sector
  rear : found = false → a.e.drop pos =
    a.e.filter fun entry => entryRank nameRank key sector < entry.rank nameRank

theorem search_exact_located (breaks : BreaksTies tiebreak nameRank probeRank) (probe : P)
    (inOrder : IndexOrder nameRank capacity a.e) (real : sector ≠ niProbeSector) :
    ∃ found pos, a.searchExact (tiebreak probe) key sector = (found, pos) ∧
      Located a nameRank key sector found pos := by
  have sharp := @sharp_of_order _ _ _ _ _ _ _ _ key _ breaks probe inOrder real
  have front := sharp.front
  obtain ⟨found, run, met⟩ := search_exact_from_eq sharp a.e.length 0 a.e.length le_rfl le_rfl
    (Nat.zero_le _) front_length_le fun inside => absurd inside (lt_irrefl _)
  have ranks : ∀ entry ∈ a.e, _ := fun entry member =>
    @entry_cmp_rank _ _ _ _ _ _ key _ breaks probe entry (inOrder.real entry member) real
  have taken : a.e.take (a.frontLength (tiebreak probe) key sector) =
      a.e.filter fun entry => entry.rank nameRank < entryRank nameRank key sector := by
    rw [frontLength, take_front, front.takeWhile]
    apply List.filter_congr
    intro entry member
    rw [before, decide_eq_decide]
    exact (ranks entry member).1
  have presence : found = present nameRank (entryRank nameRank key sector) a.e := by
    rw [Bool.eq_iff_iff, present_iff, met]
    constructor
    · rintro ⟨inside, equal⟩
      exact ⟨_, List.getElem_mem inside, (ranks _ (List.getElem_mem inside)).2.mp equal⟩
    · rintro ⟨entry, member, equal⟩
      obtain ⟨index, inside, rfl⟩ := List.getElem_of_mem member
      have zero := (ranks _ member).2.mpr equal
      have notBehind := mt (front.lt_iff inside).mp (by simp [before, zero])
      rcases Nat.lt_or_ge (a.frontLength (tiebreak probe) key sector) index with less | more
      · have reached := less.trans inside
        have earlier := List.pairwise_iff_getElem.mp sharp _ _ reached inside less zero.le
        have inFront := (front.lt_iff reached).mpr (by simpa [before] using earlier)
        exact absurd inFront (lt_irrefl _)
      · have place := le_antisymm (not_lt.mp notBehind) more
        have reached : a.frontLength (tiebreak probe) key sector < a.e.length := by
          rw [show a.frontLength (tiebreak probe) key sector = index from place]
          exact inside
        refine ⟨reached, ?_⟩
        simpa only [show a.frontLength (tiebreak probe) key sector = index from place] using zero
  refine ⟨found, _, run, presence, taken, ?_, ?_⟩
  · intro true_
    obtain ⟨inside, equal⟩ := met.mp true_
    exact ⟨_, List.cons_getElem_drop_succ.symm, (ranks _ (List.getElem_mem inside)).2.mp equal⟩
  · intro false_
    rw [frontLength, drop_front, front.dropWhile]
    apply List.filter_congr
    intro entry member
    have different : entry.rank nameRank ≠ entryRank nameRank key sector := by
      intro equal
      have there := present_iff.mpr ⟨entry, member, equal⟩
      rw [← presence, false_] at there
      cases there
    rw [before, ← decide_not, decide_eq_decide, (ranks entry member).1, not_lt]
    exact ⟨fun low => lt_of_le_of_ne low different.symm, le_of_lt⟩

theorem insert_key_refines (breaks : BreaksTies tiebreak nameRank probeRank) (probe : P)
    (inOrder : IndexOrder nameRank capacity a.e) (real : sector ≠ niProbeSector) :
    ∃ ok next, a.naInsertKey capacity (tiebreak probe) key sector = (ok, next) ∧
      indexInsert nameRank capacity key sector a.e = (ok, next.e) := by
  obtain ⟨found, pos, run, located⟩ := @search_exact_located _ _ _ _ _ _ _ key _ _ breaks probe
    inOrder real
  unfold naInsertKey indexInsert
  by_cases full : capacity ≤ a.e.length
  · simp only [full, true_or, if_true]
    exact ⟨false, a, rfl, rfl⟩
  · simp only [full, if_false, run, false_or, ← located.present]
    cases found with
    | true => exact ⟨false, a, rfl, rfl⟩
    | false =>
        refine ⟨true, _, rfl, ?_⟩
        rw [located.front, located.rear rfl]
        rfl

theorem Located.without (inOrder : IndexOrder nameRank capacity a.e) {pos : Nat}
    (located : Located a nameRank key sector true pos) :
    ∃ entry, a.e.drop pos = entry :: a.e.drop (pos + 1) ∧
      entry.rank nameRank = entryRank nameRank key sector ∧
      (∀ other ∈ a.e.take pos, other.rank nameRank ≠ entryRank nameRank key sector) ∧
      ∀ other ∈ a.e.drop (pos + 1), other.rank nameRank ≠ entryRank nameRank key sector := by
  obtain ⟨entry, parts, equal⟩ := located.here rfl
  have sorted := inOrder.sorted
  rw [← List.take_append_drop pos a.e, parts, List.pairwise_append, List.pairwise_cons] at sorted
  refine ⟨entry, parts, equal, ?_, ?_⟩
  · intro other member
    rw [← equal]
    exact (sorted.2.2 other member entry List.mem_cons_self).ne
  · intro other member
    rw [← equal]
    exact (sorted.2.1.1 other member).ne'

theorem remove_refines (breaks : BreaksTies tiebreak nameRank probeRank) (probe : P)
    (inOrder : IndexOrder nameRank capacity a.e) (real : sector ≠ niProbeSector) (name : List Byte) :
    ∃ ok next, a.naRemove (tiebreak probe) name sector = (ok, next) ∧
      indexRemove nameRank (niMakeKey name) sector a.e = (ok, next.e) := by
  obtain ⟨found, pos, run, located⟩ := @search_exact_located _ _ _ _ _ _ _ (niMakeKey name) _ _
    breaks probe inOrder real
  unfold naRemove indexRemove
  simp only [run, ← located.present]
  cases found with
  | false =>
      refine ⟨false, a, rfl, ?_⟩
      rw [List.filter_eq_self.mpr]
      intro entry member
      rw [decide_eq_true_eq]
      intro equal
      have there := present_iff.mpr ⟨entry, member, equal⟩
      rw [← located.present] at there
      cases there
  | true =>
      obtain ⟨entry, parts, equal, front, rear⟩ := located.without inOrder
      refine ⟨true, _, rfl, ?_⟩
      have whole := (List.take_append_drop pos a.e).symm
      rw [parts] at whole
      have shown : (a.e.filter fun entry =>
          entry.rank nameRank ≠ entryRank nameRank (niMakeKey name) sector) =
          a.e.take pos ++ a.e.drop (pos + 1) := by
        conv_lhs => rw [whole]
        rw [List.filter_append, List.filter_cons_of_neg (by simpa using equal),
          List.filter_eq_self.mpr fun other member => by simpa using front other member,
          List.filter_eq_self.mpr fun other member => by simpa using rear other member]
      rw [shown]

theorem set_message_refines (breaks : BreaksTies tiebreak nameRank probeRank) (probe : P)
    (inOrder : IndexOrder nameRank capacity a.e) (real : sector ≠ niProbeSector) (name : List Byte)
    (messageIndex : Nat) :
    ∃ ok next, a.naSetMessage (tiebreak probe) name sector messageIndex = (ok, next) ∧
      indexSetMessage nameRank (niMakeKey name) sector messageIndex a.e = (ok, next.e) := by
  obtain ⟨found, pos, run, located⟩ := @search_exact_located _ _ _ _ _ _ _ (niMakeKey name) _ _
    breaks probe inOrder real
  have unchanged : ∀ entries : List SortedEntry,
      (∀ other ∈ entries, other.rank nameRank ≠ entryRank nameRank (niMakeKey name) sector) →
      (entries.map fun entry =>
        if entry.rank nameRank = entryRank nameRank (niMakeKey name) sector then
          { entry with messageIndex } else entry) = entries := by
    intro entries different
    rw [List.map_congr_left fun other member => if_neg (different other member), List.map_id']
  unfold naSetMessage indexSetMessage
  simp only [run, ← located.present]
  cases found with
  | false =>
      refine ⟨false, a, rfl, ?_⟩
      rw [unchanged]
      intro entry member equal
      have there := present_iff.mpr ⟨entry, member, equal⟩
      rw [← located.present] at there
      cases there
  | true =>
      obtain ⟨entry, parts, equal, front, rear⟩ := located.without inOrder
      refine ⟨true, _, rfl, ?_⟩
      have whole := (List.take_append_drop pos a.e).symm
      rw [parts] at whole
      have shown : (a.e.map fun entry =>
          if entry.rank nameRank = entryRank nameRank (niMakeKey name) sector then
            { entry with messageIndex } else entry) =
          a.e.modify pos fun entry => { entry with messageIndex } := by
        rw [List.modify_eq_take_drop, parts, List.modifyHead_cons]
        conv_lhs => rw [whole]
        rw [List.map_append, List.map_cons, unchanged _ front, unchanged _ rear, if_pos equal]
      rw [shown]

theorem find_refines (breaks : BreaksTies tiebreak nameRank probeRank) (probe : P)
    (inOrder : IndexOrder nameRank capacity a.e) (name : List Byte) :
    a.naFind (tiebreak probe) name =
      indexFind nameRank (placeRank (niMakeKey name) (probeRank probe)) a.e := by
  have front := @front_of_order _ _ _ _ _ _ _ _ (niMakeKey name) breaks probe inOrder
  have ranks : ∀ entry ∈ a.e, _ := fun entry member =>
    @entry_cmp_place _ _ _ _ _ _ (niMakeKey name) breaks probe entry (inOrder.real entry member)
  have parts := @List.takeWhile_append_dropWhile _
    (before (tiebreak probe) (niMakeKey name) niProbeSector) a.e
  have first : a.e[a.lowerBound (tiebreak probe) (niMakeKey name) niProbeSector]? =
      (a.e.dropWhile (before (tiebreak probe) (niMakeKey name) niProbeSector)).head? := by
    rw [lower_bound_eq front, frontLength, ← drop_front, List.head?_drop]
  have skipped : (a.e.takeWhile (before (tiebreak probe) (niMakeKey name) niProbeSector)).find?
      (fun entry => entry.place nameRank = placeRank (niMakeKey name) (probeRank probe)) = none := by
    rw [List.find?_eq_none]
    intro entry member
    have low := List.mem_takeWhile_imp member
    have less := (ranks entry ((List.takeWhile_prefix _).subset member)).1.mp
      (of_decide_eq_true low)
    simpa using less.ne
  unfold naFind indexFind
  rw [first]
  conv_rhs => rw [← parts, List.find?_append, skipped, Option.none_or]
  cases rest : a.e.dropWhile (before (tiebreak probe) (niMakeKey name) niProbeSector) with
  | nil => rfl
  | cons entry later =>
      have member : entry ∈ a.e := (List.dropWhile_suffix _).subset (rest ▸ List.mem_cons_self)
      have notLess : ¬before (tiebreak probe) (niMakeKey name) niProbeSector entry = true := by
        have stopped := List.head?_dropWhile_not
          (before (tiebreak probe) (niMakeKey name) niProbeSector) a.e
        rw [rest] at stopped
        simpa using stopped
      rw [List.head?_cons]
      dsimp only
      by_cases equal : entry.place nameRank = placeRank (niMakeKey name) (probeRank probe)
      · rw [if_pos ((ranks entry member).2.mpr equal), List.find?_cons_of_pos (by simpa using equal)]
        rfl
      · have above : placeRank (niMakeKey name) (probeRank probe) < entry.place nameRank := by
          rw [before, decide_eq_true_eq, (ranks entry member).1, not_lt] at notLess
          exact lt_of_le_of_ne notLess (Ne.symm equal)
        have order := inOrder.places.sublist (List.dropWhile_sublist
          (before (tiebreak probe) (niMakeKey name) niProbeSector))
        rw [rest, List.pairwise_cons] at order
        have none_ : later.find? (fun other =>
            other.place nameRank = placeRank (niMakeKey name) (probeRank probe)) = none := by
          rw [List.find?_eq_none]
          intro other inLater
          simpa using (above.trans_le (order.1 other inLater)).ne'
        rw [if_neg (mt (ranks entry member).2.mp equal),
          List.find?_cons_of_neg (by simpa using equal), none_]
        rfl

theorem contacts_unique {contacts : List (List Byte × Nat)} {first second : List SortedEntry}
    (one : first.Perm (contacts.map fun contact => newEntry (niMakeKey contact.1) contact.2))
    (two : second.Perm (contacts.map fun contact => newEntry (niMakeKey contact.1) contact.2))
    (firstSorted : first.Pairwise fun low high => low.rank nameRank ≤ high.rank nameRank)
    (secondSorted : second.Pairwise fun low high => low.rank nameRank ≤ high.rank nameRank) :
    first = second := by
  apply List.Perm.eq_of_pairwise ?_ firstSorted secondSorted (one.trans two.symm)
  intro low high lowIn highIn notAbove notBelow
  obtain ⟨lowContact, _, rfl⟩ := List.mem_map.mp (one.mem_iff.mp lowIn)
  obtain ⟨highContact, _, rfl⟩ := List.mem_map.mp (two.mem_iff.mp highIn)
  obtain ⟨keys, sectors⟩ := entry_rank_injective (le_antisymm notAbove notBelow)
  exact congrArg₂ newEntry keys sectors

theorem rebuild_refines (breaks : BreaksTies tiebreak nameRank probeRank) (probe : P)
    {contacts : List (List Byte × Nat)} (real : ∀ contact ∈ contacts, contact.2 ≠ niProbeSector) :
    ∃ ok next, naRebuild capacity (tiebreak probe) contacts = (ok, next) ∧
      (if capacity < contacts.length then (false, []) else (true, sortedContacts nameRank contacts)) =
        (ok, next.e) := by
  unfold naRebuild
  by_cases full : capacity < contacts.length
  · simp only [if_pos full]
    exact ⟨false, ⟨[]⟩, rfl, rfl⟩
  · simp only [if_neg full]
    refine ⟨true, _, rfl, ?_⟩
    have adds := @rebuild_adds_eq capacity contacts ⟨[]⟩ (by simpa using full)
    rw [List.nil_append] at adds
    have members : ∀ entry ∈ (rebuildAdds capacity ⟨[]⟩ contacts).e,
        entry.contactIndex ≠ niProbeSector := by
      intro entry member
      rw [adds] at member
      obtain ⟨contact, inside, rfl⟩ := List.mem_map.mp member
      exact real contact inside
    obtain ⟨perm, sorted⟩ := @Heapsort.sortedBy_spec SortedEntry _ _ (SortedEntry.rank nameRank)
      (fun first second => NameArray.entryCmp (tiebreak probe) first second.key second.contactIndex)
      (rebuildAdds capacity ⟨[]⟩ contacts).e
      fun first firstIn second secondIn => (entry_cmp_rank breaks probe (members first firstIn)
        (members second secondIn)).1
    have whole := perm.trans (List.Perm.of_eq adds)
    have same := contacts_unique (sorted_contacts_perm contacts) whole
      (sorted_contacts_sorted contacts) sorted
    rw [same, naRebuildFinish]

theorem page_at_name_refines (breaks : BreaksTies tiebreak nameRank probeRank) (probe : P)
    (inOrder : IndexOrder nameRank capacity a.e) (name : List Byte) (n : Nat) :
    a.naPage n (a.naSeek (tiebreak probe) name) = (a.e.dropWhile fun entry =>
      entry.place nameRank < placeRank (niMakeKey name) (probeRank probe)).take n := by
  have front := @front_of_order _ _ _ _ _ _ _ _ (niMakeKey name) breaks probe inOrder
  have same : a.e.dropWhile (before (tiebreak probe) (niMakeKey name) niProbeSector) =
      a.e.dropWhile fun entry =>
        entry.place nameRank < placeRank (niMakeKey name) (probeRank probe) :=
    drop_while_congr fun entry member => decide_eq_decide.mpr
      (@entry_cmp_place _ _ _ _ _ _ (niMakeKey name) breaks probe entry
        (inOrder.real entry member)).1
  rw [naSeek, page_eq, lower_bound_eq front, frontLength, drop_front, same]

theorem na_step_refines (breaks : BreaksTies tiebreak nameRank probeRank) (probe : P)
    (inOrder : IndexOrder nameRank capacity a.e) {call : IndexCall P} (allowed : call.Allowed) :
    (a.naStep capacity tiebreak probe call).1 =
        (indexStep nameRank probeRank capacity a.e call).1 ∧
      (a.naStep capacity tiebreak probe call).2.e =
        (indexStep nameRank probeRank capacity a.e call).2 := by
  cases call with
  | insert name contactIndex =>
      obtain ⟨ok, next, run, same⟩ := @insert_key_refines _ _ _ _ _ _ _ (niMakeKey name) _ a breaks
        probe inOrder allowed
      simp only [naStep, indexStep, naInsert, run, same, and_self]
  | insertKey key contactIndex =>
      obtain ⟨ok, next, run, same⟩ := @insert_key_refines _ _ _ _ _ _ _ key _ a breaks probe inOrder
        allowed
      simp only [naStep, indexStep, run, same, and_self]
  | remove name contactIndex =>
      obtain ⟨ok, next, run, same⟩ := remove_refines breaks probe inOrder allowed name
      simp only [naStep, indexStep, run, same, and_self]
  | find name searched =>
      simp only [naStep, indexStep, find_refines breaks searched inOrder name, and_self]
  | setMessage name contactIndex messageIndex =>
      obtain ⟨ok, next, run, same⟩ := set_message_refines breaks probe inOrder allowed name
        messageIndex
      simp only [naStep, indexStep, run, same, and_self]
  | count => exact ⟨rfl, rfl⟩
  | pageAtRank rank n =>
      simp only [naStep, indexStep, naSeekRank, page_eq, and_self]
  | pageAtName name searched n =>
      simp only [naStep, indexStep, page_at_name_refines breaks searched inOrder name n, and_self]
  | rebuild contacts =>
      obtain ⟨ok, next, run, same⟩ := @rebuild_refines _ _ _ _ _ _ capacity breaks probe contacts
        allowed.2.1
      simp only [naStep, indexStep, run]
      by_cases full : capacity < contacts.length
      · rw [if_pos full] at same ⊢
        obtain ⟨rfl, entries⟩ := Prod.mk.inj same
        exact ⟨rfl, entries.symm⟩
      · rw [if_neg full] at same ⊢
        obtain ⟨rfl, entries⟩ := Prod.mk.inj same
        exact ⟨rfl, entries.symm⟩

theorem na_run_refines (breaks : BreaksTies tiebreak nameRank probeRank) (probe : P)
    (inOrder : IndexOrder nameRank capacity a.e) (calls : List (IndexCall P))
    (allowed : ∀ call ∈ calls, call.Allowed) :
    (a.naRun capacity tiebreak probe calls).1 =
        (indexRun nameRank probeRank capacity a.e calls).1 ∧
      (a.naRun capacity tiebreak probe calls).2.e =
        (indexRun nameRank probeRank capacity a.e calls).2 := by
  induction calls generalizing probe a with
  | nil => exact ⟨rfl, rfl⟩
  | cons call rest ih =>
      have now := allowed call List.mem_cons_self
      obtain ⟨answer, entries⟩ := na_step_refines breaks probe inOrder now
      have ordered := @index_step_order _ _ _ _ probeRank _ _ inOrder _ now
      rw [← entries] at ordered
      obtain ⟨answers, last⟩ := ih (call.probeAfter probe) ordered fun other member =>
        allowed other (List.mem_cons_of_mem _ member)
      rw [entries] at answers last
      rw [naRun, indexRun]
      exact ⟨congrArg₂ List.cons answer answers, last⟩

end Ranks

end SdDatabase
