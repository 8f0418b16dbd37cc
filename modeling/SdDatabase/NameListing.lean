import SdDatabase.AvlRuns

/-!
# Listings by full name

The candidates compare eight-byte keys and ask the callback on ties. If the keys
are those of the full names, entries stand in the order of the full names: without
regard to case, then by their bytes, then by sector. A lookup returns the first
sector of a name.
-/

namespace SdDatabase

open BinaryTree BalancedTree Bytes

set_option autoImplicit false

namespace NameTable

def sectorKey (table : NameTable) (sector : Nat) : Fin 8 → Byte :=
  niMakeKey (table.fullName (table.names sector))

/-- What callers pass: sectors with their names, and the name that the callback takes for the
searched one. -/
def Named (table : NameTable) : IndexCall NiName → Prop
  | .insert name contactIndex => name = table.fullName (table.names contactIndex)
  | .insertKey key contactIndex => key = table.sectorKey contactIndex
  | .find name searched => name = table.fullName searched
  | .pageAtName name searched _ => name = table.fullName searched
  | .rebuild contacts => ∀ contact ∈ contacts, contact.1 = table.fullName (table.names contact.2)
  | _ => True

def Keyed (table : NameTable) (entries : List SortedEntry) : Prop :=
  ∀ entry ∈ entries, entry.key = table.sectorKey entry.contactIndex

def sectorPlace (table : NameTable) (sector : Nat) : (List Nat ×ₗ List Nat) ×ₗ Nat :=
  toLex (table.sectorRank sector, sector)

/-- The first of some sectors with a name, or none of them has it. -/
def FirstNamed (table : NameTable) (name : NiName) (sectors : List Nat) (found : Nat) : Prop :=
  (found ∈ sectors ∧ table.fullName (table.names found) = table.fullName name ∧
    ∀ sector ∈ sectors, table.fullName (table.names sector) = table.fullName name →
      found ≤ sector) ∨
  (found = niNotFound ∧
    ∀ sector ∈ sectors, table.fullName (table.names sector) ≠ table.fullName name)

section Orders

variable {table : NameTable} (text : TextWords table)

include text

theorem key_below {a b : NiName}
    (less : keyBytes (niMakeKey (table.fullName a)) < keyBytes (niMakeKey (table.fullName b))) :
    table.fullRank a < table.fullRank b := by
  have first : keyBytes (niMakeKey (table.fullName a)) =
      paddedKey 8 (comparedBytes true (table.fullName a)) := key_bytes (table.fullName a)
  have second : keyBytes (niMakeKey (table.fullName b)) =
      paddedKey 8 (comparedBytes true (table.fullName b)) := key_bytes (table.fullName b)
  rw [first, second] at less
  have folded := padded_key_lt (folded_nonzero (text.full a)) less
  rw [fullRank, fullRank, Prod.Lex.toLex_lt_toLex]
  exact Or.inl folded

omit text in
theorem full_rank_eq_iff {a b : NiName} :
    table.fullRank a = table.fullRank b ↔ table.fullName a = table.fullName b := by
  constructor
  · intro same
    exact compared_bytes_exact (congrArg (fun rank => (ofLex rank).2) same)
  · intro same
    rw [fullRank, fullRank, same]

theorem place_lt_iff (a b : NiName) :
    placeRank (niMakeKey (table.fullName a)) (table.fullRank a) <
        placeRank (niMakeKey (table.fullName b)) (table.fullRank b) ↔
      table.fullRank a < table.fullRank b := by
  rw [placeRank, placeRank, Prod.Lex.toLex_lt_toLex]
  constructor
  · intro less
    rcases less with keys | ⟨_, names⟩
    · exact key_below text keys
    · exact names
  · intro less
    rcases lt_trichotomy (keyBytes (niMakeKey (table.fullName a)))
      (keyBytes (niMakeKey (table.fullName b))) with below | same | above
    · exact Or.inl below
    · exact Or.inr ⟨same, less⟩
    · exact absurd (key_below text above) less.asymm

omit text in
theorem place_eq_iff (a b : NiName) :
    placeRank (niMakeKey (table.fullName a)) (table.fullRank a) =
        placeRank (niMakeKey (table.fullName b)) (table.fullRank b) ↔
      table.fullName a = table.fullName b := by
  constructor
  · intro same
    exact full_rank_eq_iff.mp (congrArg (fun place => (ofLex place).2) same)
  · intro same
    rw [same, full_rank_eq_iff.mpr same]

theorem sector_place_lt {a b : Nat}
    (less : entryRank table.sectorRank (table.sectorKey a) a <
      entryRank table.sectorRank (table.sectorKey b) b) :
    table.sectorPlace a < table.sectorPlace b := by
  rw [entryRank, entryRank, Prod.Lex.toLex_lt_toLex] at less
  rcases less with keys | ⟨_, names⟩
  · have ranks : table.sectorRank a < table.sectorRank b := key_below text keys
    rw [sectorPlace, sectorPlace, Prod.Lex.toLex_lt_toLex]
    exact Or.inl ranks
  · exact names

end Orders

section Runs

variable {table : NameTable} {capacity : Nat} {entries : List SortedEntry}

theorem step_keyed (keyed : table.Keyed entries) {call : IndexCall NiName}
    (named : table.Named call) :
    table.Keyed (indexStep table.sectorRank table.fullRank capacity entries call).2 := by
  have inserted : ∀ key contactIndex, key = table.sectorKey contactIndex →
      table.Keyed (indexInsert table.sectorRank capacity key contactIndex entries).2 := by
    intro key contactIndex own
    unfold indexInsert
    dsimp only
    split
    · exact keyed
    · intro entry member
      rcases List.mem_append.mp member with front | rear
      · exact keyed entry (List.mem_filter.mp front).1
      · rcases List.mem_cons.mp rear with rfl | behind
        · exact own
        · exact keyed entry (List.mem_filter.mp behind).1
  cases call with
  | insert name contactIndex =>
      apply inserted
      rw [named, sectorKey]
  | insertKey key contactIndex => exact inserted key contactIndex named
  | remove name contactIndex =>
      intro entry member
      exact keyed entry (List.mem_filter.mp member).1
  | find name probe => exact keyed
  | setMessage name contactIndex messageIndex =>
      intro entry member
      obtain ⟨source, inside, rfl⟩ := List.mem_map.mp member
      have own := keyed source inside
      split <;> exact own
  | count => exact keyed
  | pageAtRank rank n => exact keyed
  | pageAtName name probe n => exact keyed
  | rebuild contacts =>
      unfold indexStep
      dsimp only
      split
      · exact fun _ member => absurd member List.not_mem_nil
      · intro entry member
        obtain ⟨contact, inside, rfl⟩ := List.mem_map.mp
          ((sorted_contacts_perm contacts).mem_iff.mp member)
        change niMakeKey contact.1 = table.sectorKey contact.2
        rw [named contact inside, sectorKey]

theorem run_keyed (keyed : table.Keyed entries) (calls : List (IndexCall NiName))
    (named : ∀ call ∈ calls, table.Named call) :
    table.Keyed (indexRun table.sectorRank table.fullRank capacity entries calls).2 := by
  induction calls generalizing entries with
  | nil => exact keyed
  | cons call rest ih =>
      exact ih (step_keyed keyed (named call List.mem_cons_self)) fun other member =>
        named other (List.mem_cons_of_mem _ member)

end Runs

section Listings

variable {table : NameTable} {capacity : Nat} {entries : List SortedEntry}

theorem keyed_place (keyed : table.Keyed entries) {entry : SortedEntry} (member : entry ∈ entries) :
    entry.place table.sectorRank =
      placeRank (niMakeKey (table.fullName (table.names entry.contactIndex)))
        (table.fullRank (table.names entry.contactIndex)) := by
  rw [SortedEntry.place, keyed entry member]
  rfl

theorem listed_in_order (text : TextWords table) (keyed : table.Keyed entries)
    (inOrder : IndexOrder table.sectorRank capacity entries) :
    entries.Pairwise fun first second =>
      table.sectorPlace first.contactIndex < table.sectorPlace second.contactIndex := by
  apply inOrder.sorted.imp_of_mem
  intro first second firstIn secondIn less
  rw [SortedEntry.rank, SortedEntry.rank, keyed first firstIn, keyed second secondIn] at less
  exact sector_place_lt text less

/-- A lookup finds the first sector of a name. -/
theorem find_first_named (text : TextWords table) (keyed : table.Keyed entries)
    (inOrder : IndexOrder table.sectorRank capacity entries) (name : NiName) :
    table.FirstNamed name (entries.map (·.contactIndex))
      (indexFind table.sectorRank (placeRank (niMakeKey (table.fullName name))
        (table.fullRank name)) entries) := by
  have order := listed_in_order text keyed inOrder
  have sameName : ∀ entry ∈ entries,
      (entry.place table.sectorRank = placeRank (niMakeKey (table.fullName name))
        (table.fullRank name) ↔
      table.fullName (table.names entry.contactIndex) = table.fullName name) := by
    intro entry member
    rw [keyed_place keyed member]
    exact place_eq_iff _ _
  rcases @index_find_cases _ _ table.sectorRank (placeRank (niMakeKey (table.fullName name))
    (table.fullRank name)) entries with
    ⟨front, entry, rear, parts, found, passed, value⟩ | ⟨value, none_⟩
  · have inside : entry ∈ entries := parts ▸ List.mem_append_right _ List.mem_cons_self
    have here := (sameName entry inside).mp found
    rw [value]
    refine Or.inl ⟨List.mem_map_of_mem inside, here, ?_⟩
    intro sector member same
    obtain ⟨other, otherIn, rfl⟩ := List.mem_map.mp member
    have otherPlace := (sameName other otherIn).mpr same
    rw [parts] at otherIn order
    rcases List.mem_append.mp otherIn with early | late
    · exact absurd otherPlace (passed other early)
    · rcases List.mem_cons.mp late with rfl | later
      · exact le_rfl
      · have less := (List.pairwise_cons.mp (List.pairwise_append.mp order).2.1).1 other later
        rw [sectorPlace, sectorPlace, Prod.Lex.toLex_lt_toLex] at less
        have equal : table.sectorRank entry.contactIndex = table.sectorRank other.contactIndex :=
          full_rank_eq_iff.mpr (here.trans same.symm)
        rcases less with smaller | ⟨_, sectors⟩
        · rw [equal] at smaller
          exact absurd smaller (lt_irrefl _)
        · exact sectors.le
  · rw [value]
    refine Or.inr ⟨rfl, ?_⟩
    intro sector member same
    obtain ⟨entry, inside, rfl⟩ := List.mem_map.mp member
    exact none_ entry inside ((sameName entry inside).mpr same)

theorem place_le_iff (text : TextWords table) (keyed : table.Keyed entries) (name : NiName)
    {entry : SortedEntry} (member : entry ∈ entries) :
    placeRank (niMakeKey (table.fullName name)) (table.fullRank name) ≤
        entry.place table.sectorRank ↔
      table.fullRank name ≤ table.sectorRank entry.contactIndex := by
  rw [keyed_place keyed member, ← not_lt, place_lt_iff text, not_lt]
  rfl

end Listings

/-- After every run both candidates list their entries in the order of the full names, and find
the first sector of every name. -/
theorem names_listed {table : NameTable} (text : TextWords table) {capacity : Nat}
    (fits : AvlTree.FitsPool capacity) (probe : NiName) (t : AvlTree)
    (calls : List (IndexCall NiName)) (allowed : ∀ call ∈ calls, call.Allowed)
    (named : ∀ call ∈ calls, table.Named call) :
    ∃ answers last array,
      (t.avlInit capacity).avlRun capacity
        (fun searched => nbTiebreak { table with probe := searched }) probe calls =
          some (answers, last) ∧
      NameArray.naInit.naRun capacity (fun searched => nbTiebreak { table with probe := searched })
        probe calls = (answers, array) ∧
      array.e = last.allEntries ∧
      (array.e.Pairwise fun first second =>
        table.sectorPlace first.contactIndex < table.sectorPlace second.contactIndex) ∧
      ∀ name,
        (∃ found, table.FirstNamed name (array.e.map (·.contactIndex)) found ∧
          last.avlFind capacity (nbTiebreak { table with probe := name }) (table.fullName name) =
            some found ∧
          array.naFind (nbTiebreak { table with probe := name }) (table.fullName name) = found) ∧
        ∃ stack, last.avlSeek capacity (nbTiebreak { table with probe := name })
            (table.fullName name) = some (true, stack) ∧
          ∀ n, last.avlPage n stack = (array.e.filter fun entry =>
              table.fullRank name ≤ table.sectorRank entry.contactIndex).take n ∧
            array.naPage n (array.naSeek (nbTiebreak { table with probe := name })
              (table.fullName name)) = last.avlPage n stack := by
  have breaks := nb_tiebreak_breaks text
  obtain ⟨last, run, becomes, inOrder⟩ := AvlTree.avl_run_refines fits breaks probe
    (@AvlTree.init_pool t capacity fits) AvlTree.index_order_nil calls allowed
  obtain ⟨arrayAnswers, arrayEntries⟩ := @na_run_refines _ _ _ _ _ _ capacity NameArray.naInit breaks
    probe AvlTree.index_order_nil calls allowed
  obtain ⟨tree, free, pool, entries, _⟩ := becomes
  obtain ⟨array, arrayEq⟩ : ∃ array, array =
    (NameArray.naInit.naRun capacity (fun searched => nbTiebreak { table with probe := searched })
      probe calls).2 := ⟨_, rfl⟩
  have keyed : table.Keyed array.e := by
    rw [arrayEq, arrayEntries]
    exact run_keyed (fun _ member => absurd member List.not_mem_nil) calls named
  rw [← arrayEq] at arrayEntries
  have same : last.entriesOf tree = array.e := entries.trans arrayEntries.symm
  have poolOrder : IndexOrder table.sectorRank capacity (last.entriesOf tree) := entries ▸ inOrder
  have arrayOrder : IndexOrder table.sectorRank capacity array.e := same ▸ poolOrder
  refine ⟨_, last, array, run, Prod.ext arrayAnswers arrayEq.symm, ?_,
    listed_in_order text keyed arrayOrder, fun name => ⟨?_, ?_⟩⟩
  · rw [pool.all_entries fits, same]
  · have treeFinds := AvlTree.find_pool breaks name pool poolOrder (table.fullName name)
    have arrayFinds := find_refines breaks name arrayOrder (table.fullName name)
    rw [same] at treeFinds
    exact ⟨_, find_first_named text keyed arrayOrder name, treeFinds, arrayFinds⟩
  · obtain ⟨stack, seek, pages⟩ := AvlTree.page_at_name_pool fits breaks name pool poolOrder
      (table.fullName name)
    have from_ := arrayOrder.page_front fun entry member =>
      decide_eq_true_iff.trans (place_le_iff text keyed name member).symm
    refine ⟨stack, seek, fun n => ⟨?_, ?_⟩⟩
    · rw [pages n, same, from_]
    · rw [pages n, same]
      exact page_at_name_refines breaks name arrayOrder (table.fullName name) n

theorem pair_calls_named : ∀ call ∈ AvlTree.pairCalls, AvlTree.pairTable.Named call := by
  intro call member
  simp only [AvlTree.pairCalls, List.mem_cons, List.not_mem_nil, or_false] at member
  rcases member with rfl | rfl | rfl | rfl | rfl | rfl | rfl | rfl | rfl | rfl | rfl | rfl
  all_goals simp [Named, AvlTree.annLee, AvlTree.bobLee, AvlTree.pairTable]

theorem names_listed_example :
    ∃ answers last array,
      (AvlTree.blankTree.avlInit 3).avlRun 3 (fun searched =>
        nbTiebreak { AvlTree.pairTable with probe := searched }) ⟨0, 0⟩ AvlTree.pairCalls =
          some (answers, last) ∧
      NameArray.naInit.naRun 3 (fun searched =>
        nbTiebreak { AvlTree.pairTable with probe := searched }) ⟨0, 0⟩ AvlTree.pairCalls =
          (answers, array) ∧
      array.e = last.allEntries ∧
      (array.e.Pairwise fun first second =>
        AvlTree.pairTable.sectorPlace first.contactIndex <
          AvlTree.pairTable.sectorPlace second.contactIndex) ∧
      ∀ name,
        (∃ found, AvlTree.pairTable.FirstNamed name (array.e.map (·.contactIndex)) found ∧
          last.avlFind 3 (nbTiebreak { AvlTree.pairTable with probe := name })
            (AvlTree.pairTable.fullName name) = some found ∧
          array.naFind (nbTiebreak { AvlTree.pairTable with probe := name })
            (AvlTree.pairTable.fullName name) = found) ∧
        ∃ stack, last.avlSeek 3 (nbTiebreak { AvlTree.pairTable with probe := name })
            (AvlTree.pairTable.fullName name) = some (true, stack) ∧
          ∀ n, last.avlPage n stack = (array.e.filter fun entry =>
              AvlTree.pairTable.fullRank name ≤
                AvlTree.pairTable.sectorRank entry.contactIndex).take n ∧
            array.naPage n (array.naSeek (nbTiebreak { AvlTree.pairTable with probe := name })
              (AvlTree.pairTable.fullName name)) = last.avlPage n stack :=
  names_listed AvlTree.pair_table_text AvlTree.three_fit ⟨0, 0⟩ AvlTree.blankTree AvlTree.pairCalls
    AvlTree.pair_calls_allowed pair_calls_named

end NameTable

end SdDatabase
