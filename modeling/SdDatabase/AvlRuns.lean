import SdDatabase.AvlRebuild

/-!
# Runs of the two candidates

Any run of calls on the node pool ends, answers as the ordered list of entries
does, and leaves a pool that holds this list. The sorted array answers the same.
-/

namespace SdDatabase

open BinaryTree BalancedTree Bytes

set_option autoImplicit false

namespace AvlTree

section Steps

variable {P : Type} (capacity : Nat) (tiebreak : P → Nat → Nat → Int)

/-- A call, with the callback as it was left before. -/
def avlStep (probe : P) (t : AvlTree) : IndexCall P → Option (IndexAnswer × AvlTree)
  | .insert name contactIndex =>
      (t.avlInsert capacity (tiebreak probe) name contactIndex).map fun (ok, t) => (.done ok, t)
  | .insertKey key contactIndex =>
      (t.avlInsertKey capacity (tiebreak probe) key contactIndex).map fun (ok, t) => (.done ok, t)
  | .remove name contactIndex =>
      (t.avlRemove capacity (tiebreak probe) name contactIndex).map fun (ok, t) => (.done ok, t)
  | .find name searched =>
      (t.avlFind capacity (tiebreak searched) name).map fun found => (.number found, t)
  | .setMessage name contactIndex messageIndex =>
      (t.avlSetMessage capacity (tiebreak probe) name contactIndex messageIndex).map
        fun (ok, t) => (.done ok, t)
  | .count => some (.number t.avlCount, t)
  | .pageAtRank rank n =>
      let (inside, stack) := t.avlSeekRank rank
      some (.page inside (t.avlPage n stack), t)
  | .pageAtName name searched n =>
      (t.avlSeek capacity (tiebreak searched) name).map fun (shallow, stack) =>
        (.page shallow (t.avlPage n stack), t)
  | .rebuild contacts =>
      (t.avlRebuild capacity (tiebreak probe) contacts).map fun (ok, t) => (.done ok, t)

def avlRun (probe : P) (t : AvlTree) :
    List (IndexCall P) → Option (List IndexAnswer × AvlTree)
  | [] => some ([], t)
  | call :: rest =>
      (t.avlStep capacity tiebreak probe call).bind fun (answer, next) =>
        (avlRun (call.probeAfter probe) next rest).map fun (answers, last) =>
          (answer :: answers, last)

end Steps

section Pages

variable {P K : Type} [LinearOrder K] {tiebreak : P → Nat → Nat → Int} {nameRank : Nat → K}
  {probeRank : P → K} {capacity : Nat} {t : AvlTree} {tree : BinaryTree Nat} {free : List Nat}

theorem Pool.shallow (pool : Pool capacity t tree free) (fits : FitsPool capacity) :
    tree.height ≤ avlIterDepth := by
  have low := pool.height fits
  unfold avlIterDepth
  omega

theorem page_at_rank_pool (fits : FitsPool capacity) (pool : Pool capacity t tree free)
    (rank n : Nat) :
    ∃ stack, t.avlSeekRank rank = (decide (rank < (t.entriesOf tree).length), stack) ∧
      t.avlPage n stack = ((t.entriesOf tree).drop rank).take n := by
  obtain ⟨rest, run, walking, shallow, behind⟩ := seek_rank_holds rank pool.holds pool.root
    (pool.shallow fits)
  refine ⟨stackOf rest, ?_, ?_⟩
  · rw [entriesOf, List.length_map]
    exact run
  · rw [page_holds n walking shallow, behind, entriesOf, List.map_take, List.map_drop]

theorem page_at_name_pool (fits : FitsPool capacity)
    (breaks : BreaksTies tiebreak nameRank probeRank) (probe : P)
    (pool : Pool capacity t tree free) (inOrder : IndexOrder nameRank capacity (t.entriesOf tree))
    (name : List Byte) :
    ∃ stack, t.avlSeek capacity (tiebreak probe) name = some (true, stack) ∧
      ∀ n, t.avlPage n stack = ((t.entriesOf tree).dropWhile fun entry =>
        entry.place nameRank < placeRank (niMakeKey name) (probeRank probe)).take n := by
  obtain ⟨_, reals⟩ := IndexOrder.indices inOrder
  obtain ⟨rest, run, walking, shallow, behind⟩ := seek_holds pool.holds pool.root
    (pool.shallow fits) pool.height_le_capacity (ascends_of_order breaks probe inOrder)
  refine ⟨_, run, fun n => ?_⟩
  have same : (inorder tree).dropWhile (fun i =>
      decide (t.probeOrder (tiebreak probe) (niMakeKey name) i < 0)) =
      (inorder tree).dropWhile fun i => decide ((t.n i).entry.place nameRank <
        placeRank (niMakeKey name) (probeRank probe)) :=
    SortedList.drop_while_congr fun i member =>
      decide_eq_decide.mpr (probe_order_place breaks probe (reals i member)).1
  rw [page_holds n walking shallow, behind, same, entriesOf, List.dropWhile_map, List.map_take]
  rfl

end Pages

section Validity

variable {capacity : Nat} {t : AvlTree} {tree : BinaryTree Nat} {free : List Nat}

theorem valid_rec_holds (fuel seen : Nat) (holds : Holds t.n tree) (balanced : Balanced tree)
    (inside : ∀ i ∈ inorder tree, i < capacity) (room : seen + tree.numNodes ≤ t.count)
    (narrow : t.count < 65536) (enough : tree.height < fuel) :
    t.validRec capacity fuel (rootIndex tree) seen =
      some ((tree.height : Int), seen + tree.numNodes) := by
  induction tree generalizing fuel seen with
  | nil =>
      obtain ⟨fuel, rfl⟩ := Nat.exists_eq_succ_of_ne_zero (Nat.ne_zero_of_lt enough)
      rfl
  | node i left right leftIh rightIh =>
      obtain ⟨fuel, rfl⟩ := Nat.exists_eq_succ_of_ne_zero (Nat.ne_zero_of_lt enough)
      obtain ⟨leftBalanced, rightBalanced, notLeft, notRight⟩ := balanced
      have links := holds.linked
      have here := inside i (by simp)
      rw [numNodes] at room
      rw [height] at enough
      have counted : uint16 (seen + 1) = seen + 1 := Nat.mod_eq_of_lt (by omega)
      have first := leftIh fuel (seen + 1) links.left leftBalanced
        (fun j member => inside j (by simp [member])) (by omega) (by omega)
      have second := rightIh fuel (seen + 1 + left.numNodes) links.right rightBalanced
        (fun j member => inside j (by simp [member])) (by omega) (by omega)
      have tall : (1 : Int) + (if (right.height : Int) < left.height then (left.height : Int)
          else right.height) = (BinaryTree.node i left right).height := by
        rw [height]
        split <;> omega
      unfold validRec
      rw [root_index_node, if_neg links.real, if_neg (by omega)]
      dsimp only
      rw [counted, if_neg (by omega), links.toLeft, first, Option.bind_some]
      dsimp only
      rw [links.toRight, second, Option.map_some]
      dsimp only
      rw [if_neg (by omega), tall, if_pos holds.2.2.2.1.symm, numNodes]
      congr 2
      omega

theorem Pool.valid (pool : Pool capacity t tree free) (fits : FitsPool capacity) :
    t.avlValid capacity = some true := by
  have total := pool.total
  have lower := pool.height_le_capacity
  have narrow := fits.narrow
  unfold niProbeSector at narrow
  have counted := pool.count
  have checked := @valid_rec_holds capacity t tree (capacity + 1) 0 pool.holds pool.balanced
    (fun i member => pool.inside i (List.mem_append_left _ member)) (by omega) (by omega) (by omega)
  unfold avlValid
  rw [pool.root, checked, Option.map_some, Nat.zero_add, ← counted]
  simp

end Validity

section Runs

variable {P K : Type} [LinearOrder K] {tiebreak : P → Nat → Nat → Int} {nameRank : Nat → K}
  {probeRank : P → K} {capacity : Nat} {t : AvlTree} {tree : BinaryTree Nat} {free : List Nat}

theorem Pool.becomes (pool : Pool capacity t tree free) :
    Becomes capacity t t (t.entriesOf tree) :=
  ⟨tree, free, pool, rfl, le_max_left _ _⟩

theorem avl_step_refines (fits : FitsPool capacity)
    (breaks : BreaksTies tiebreak nameRank probeRank) (probe : P)
    (pool : Pool capacity t tree free) (inOrder : IndexOrder nameRank capacity (t.entriesOf tree))
    {call : IndexCall P} (allowed : call.Allowed) :
    ∃ t', t.avlStep capacity tiebreak probe call =
        some ((indexStep nameRank probeRank capacity (t.entriesOf tree) call).1, t') ∧
      Becomes capacity t t' (indexStep nameRank probeRank capacity (t.entriesOf tree) call).2 := by
  cases call with
  | insert name contactIndex =>
      obtain ⟨ok, t', entries, run, same, becomes⟩ := @insert_key_pool _ _ _ _ _ _ _ _ _ _
        (niMakeKey name) _ fits breaks probe pool inOrder allowed
      simp only [avlStep, avlInsert, indexStep, run, same, Option.map_some]
      exact ⟨t', rfl, becomes⟩
  | insertKey key contactIndex =>
      obtain ⟨ok, t', entries, run, same, becomes⟩ := @insert_key_pool _ _ _ _ _ _ _ _ _ _
        key _ fits breaks probe pool inOrder allowed
      simp only [avlStep, indexStep, run, same, Option.map_some]
      exact ⟨t', rfl, becomes⟩
  | remove name contactIndex =>
      obtain ⟨ok, t', entries, run, same, becomes⟩ := remove_pool fits breaks probe pool inOrder
        allowed name
      simp only [avlStep, indexStep, run, same, Option.map_some]
      exact ⟨t', rfl, becomes⟩
  | find name searched =>
      simp only [avlStep, indexStep, find_pool breaks searched pool inOrder name, Option.map_some]
      exact ⟨t, rfl, pool.becomes⟩
  | setMessage name contactIndex messageIndex =>
      obtain ⟨ok, t', entries, run, same, becomes⟩ := set_message_pool breaks probe pool
        inOrder allowed name messageIndex
      simp only [avlStep, indexStep, run, same, Option.map_some]
      exact ⟨t', rfl, becomes⟩
  | count =>
      refine ⟨t, ?_, pool.becomes⟩
      rw [avlStep, avlCount, pool.count, ← entries_length t tree]
      rfl
  | pageAtRank rank n =>
      obtain ⟨stack, run, page⟩ := page_at_rank_pool fits pool rank n
      simp only [avlStep, indexStep, run, page]
      exact ⟨t, rfl, pool.becomes⟩
  | pageAtName name searched n =>
      obtain ⟨stack, run, page⟩ := page_at_name_pool fits breaks searched pool inOrder name
      simp only [avlStep, indexStep, run, page, Option.map_some]
      exact ⟨t, rfl, pool.becomes⟩
  | rebuild contacts =>
      simp only [avlStep, indexStep]
      by_cases full : capacity < contacts.length
      · have run : t.avlRebuild capacity (tiebreak probe) contacts =
            some (false, t.avlRebuildBegin.avlInit capacity) := by
          rw [avlRebuild]
          exact if_pos full
        rw [run, if_pos full, Option.map_some]
        exact ⟨_, rfl, .nil, _, init_pool fits, rfl, le_max_left _ _⟩
      · obtain ⟨t', run, rebuilt, entries, deep⟩ := @rebuild_pool _ _ _ _ _ _ _ t fits breaks probe _
          (not_lt.mp full) allowed.2.1
        rw [run, if_neg full, Option.map_some]
        exact ⟨t', rfl, _, _, rebuilt, entries, deep⟩

theorem Becomes.trans {s t' : AvlTree} {first second : List SortedEntry}
    (one : Becomes capacity t s first) (two : Becomes capacity s t' second) :
    Becomes capacity t t' second := by
  obtain ⟨_, _, _, _, before⟩ := one
  obtain ⟨tree', free', pool, entries, deep⟩ := two
  exact ⟨tree', free', pool, entries, by omega⟩

theorem avl_run_refines (fits : FitsPool capacity)
    (breaks : BreaksTies tiebreak nameRank probeRank) (probe : P)
    (pool : Pool capacity t tree free) (inOrder : IndexOrder nameRank capacity (t.entriesOf tree))
    (calls : List (IndexCall P)) (allowed : ∀ call ∈ calls, call.Allowed) :
    ∃ t', t.avlRun capacity tiebreak probe calls =
        some ((indexRun nameRank probeRank capacity (t.entriesOf tree) calls).1, t') ∧
      Becomes capacity t t' (indexRun nameRank probeRank capacity (t.entriesOf tree) calls).2 ∧
      IndexOrder nameRank capacity
        (indexRun nameRank probeRank capacity (t.entriesOf tree) calls).2 := by
  induction calls generalizing probe t tree free with
  | nil => exact ⟨t, rfl, pool.becomes, inOrder⟩
  | cons call rest ih =>
      have now := allowed call List.mem_cons_self
      obtain ⟨next, step, becomes⟩ := avl_step_refines fits breaks probe pool inOrder now
      have ordered := @index_step_order _ _ _ _ probeRank _ _ inOrder _ now
      obtain ⟨tree', free', pool', entries, deep⟩ := becomes
      rw [← entries] at ordered
      obtain ⟨t', run, later, last⟩ := ih (call.probeAfter probe) pool' ordered fun other member =>
        allowed other (List.mem_cons_of_mem _ member)
      rw [entries] at run later last
      refine ⟨t', ?_, Becomes.trans ⟨tree', free', pool', entries, deep⟩ later, last⟩
      rw [avlRun, step, Option.bind_some]
      dsimp only
      rw [run, Option.map_some]
      rfl

end Runs

/-- All entries, as an iterator from the first one shows them. -/
def allEntries (t : AvlTree) : List SortedEntry :=
  t.avlPage t.avlCount t.avlBegin.2

/-- What holds of the pool between two calls. -/
structure Sound {K : Type} [LinearOrder K] (capacity : Nat) (nameRank : Nat → K) (t : AvlTree) :
    Prop where
  valid : t.avlValid capacity = some true
  low : t.avlHeight < avlIterDepth
  begins : t.avlBegin.1 = true
  all : t.allEntries.length = t.avlCount
  ends : ∀ more, t.avlPage (t.avlCount + more) t.avlBegin.2 = t.allEntries
  order : IndexOrder nameRank capacity t.allEntries
  partition : ∃ tree free, Pool capacity t tree free ∧ t.entriesOf tree = t.allEntries

section Candidates

variable {P K : Type} [LinearOrder K] {tiebreak : P → Nat → Nat → Int} {nameRank : Nat → K}
  {probeRank : P → K} {capacity : Nat} {t : AvlTree} {tree : BinaryTree Nat} {free : List Nat}

theorem index_order_nil : IndexOrder nameRank capacity [] :=
  ⟨List.Pairwise.nil, fun _ member => absurd member List.not_mem_nil, Nat.zero_le _⟩

theorem Pool.iterates (fits : FitsPool capacity) (pool : Pool capacity t tree free) (n : Nat) :
    t.avlBegin.1 = true ∧ t.avlPage n t.avlBegin.2 = (t.entriesOf tree).take n := by
  have low := pool.shallow fits
  have begun := begin_holds pool.holds pool.root low
  have walking := @holds_walk_descend t [] _ pool.holds fun _ member =>
    absurd member List.not_mem_nil
  have shallow := @shallow_descend _ [] tree avlIterDepth trivial low
  have whole : pending (descend tree []) = inorder tree := by
    rw [pending_descend]
    exact List.append_nil _
  rw [begun]
  refine ⟨rfl, ?_⟩
  rw [page_holds n walking shallow, whole, entriesOf, List.map_take]

theorem Pool.all_entries (fits : FitsPool capacity) (pool : Pool capacity t tree free) :
    t.allEntries = t.entriesOf tree := by
  have length := entries_length t tree
  rw [allEntries, (pool.iterates fits t.avlCount).2, avlCount, pool.count, ← length]
  exact List.take_length

theorem Pool.sound (fits : FitsPool capacity) (pool : Pool capacity t tree free)
    (inOrder : IndexOrder nameRank capacity (t.entriesOf tree)) : Sound capacity nameRank t where
  valid := pool.valid fits
  low := by
    have height := h_eq pool.holds
    have low := pool.height fits
    rw [avlHeight, pool.root, height]
    unfold avlIterDepth
    omega
  begins := (pool.iterates fits 0).1
  all := by
    rw [pool.all_entries fits, entries_length, avlCount, pool.count]
  ends more := by
    have length := entries_length t tree
    have counted := pool.count
    rw [pool.all_entries fits, (pool.iterates fits _).2, avlCount]
    exact List.take_of_length_le (by omega)
  order := by
    rw [pool.all_entries fits]
    exact inOrder
  partition := ⟨tree, free, pool, (pool.all_entries fits).symm⟩

/-- Two names, one for the even and one for the odd sectors. -/
def pairTable : NameTable where
  firstWords word := if word = 0 then [65#8, 110#8, 110#8] else [66#8, 111#8, 98#8]
  lastWords _ := [76#8, 101#8, 101#8]
  names sector := ⟨sector % 2, 0⟩
  probe := ⟨0, 0⟩

theorem pair_table_text : NameTable.TextWords pairTable where
  first word := by
    unfold pairTable
    dsimp only
    split <;> decide
  last word := by
    change ∀ character ∈ [76#8, 101#8, 101#8], character ≠ 0#8
    decide

def annLee : List Byte := pairTable.fullName ⟨0, 0⟩

def bobLee : List Byte := pairTable.fullName ⟨1, 0⟩

/-- Calls on an index for three contacts, of which one is refused. -/
def pairCalls : List (IndexCall NiName) :=
  [.insert annLee 4, .insert bobLee 1, .insert annLee 2, .insert bobLee 3,
    .setMessage bobLee 1 7, .find annLee ⟨0, 0⟩, .pageAtName bobLee ⟨1, 0⟩ 2, .remove annLee 2,
    .pageAtRank 1 3, .rebuild [(bobLee, 5), (annLee, 0)], .find bobLee ⟨1, 0⟩, .count]

theorem pair_calls_allowed : ∀ call ∈ pairCalls, call.Allowed := by
  intro call member
  simp only [pairCalls, List.mem_cons, List.not_mem_nil, or_false] at member
  rcases member with rfl | rfl | rfl | rfl | rfl | rfl | rfl | rfl | rfl | rfl | rfl | rfl
  all_goals simp [IndexCall.Allowed, niProbeSector]
  decide

theorem three_fit : FitsPool 3 := ⟨by decide, by decide⟩

/-- The memory of a pool before its first use. -/
def blankTree : AvlTree where
  n _ := ⟨fun _ => 0#8, 0, 0, 0, 0, 0⟩
  root := 0
  freeHead := 0
  count := 0
  maxDepth := 0

/-- The tree and the array answer alike in every run, and as the ordered list does. -/
theorem candidates_agree (fits : FitsPool capacity)
    (breaks : BreaksTies tiebreak nameRank probeRank) (probe : P) (t : AvlTree)
    (calls : List (IndexCall P)) (allowed : ∀ call ∈ calls, call.Allowed) :
    ∃ answers last, (t.avlInit capacity).avlRun capacity tiebreak probe calls =
        some (answers, last) ∧
      (NameArray.naInit.naRun capacity tiebreak probe calls).1 = answers ∧
      (indexRun nameRank probeRank capacity [] calls).1 = answers := by
  obtain ⟨last, run, _, _⟩ := avl_run_refines fits breaks probe (@init_pool t capacity fits)
    index_order_nil calls allowed
  obtain ⟨array, _⟩ := @na_run_refines _ _ _ _ _ _ capacity NameArray.naInit breaks probe
    index_order_nil calls allowed
  exact ⟨_, last, run, array, rfl⟩

theorem candidates_agree_example :
    ∃ answers last, (blankTree.avlInit 3).avlRun 3 (fun probe =>
        NameTable.nbTiebreak { pairTable with probe }) ⟨0, 0⟩ pairCalls = some (answers, last) ∧
      (NameArray.naInit.naRun 3 (fun probe =>
        NameTable.nbTiebreak { pairTable with probe }) ⟨0, 0⟩ pairCalls).1 = answers ∧
      (indexRun pairTable.sectorRank pairTable.fullRank 3 [] pairCalls).1 = answers :=
  candidates_agree three_fit (NameTable.nb_tiebreak_breaks pair_table_text) ⟨0, 0⟩ blankTree
    pairCalls pair_calls_allowed

/-- In every run the tree stays valid and low, no node is lost, and iterators show all entries. -/
theorem avl_stays_sound (fits : FitsPool capacity)
    (breaks : BreaksTies tiebreak nameRank probeRank) (probe : P) (t : AvlTree)
    (calls : List (IndexCall P)) (allowed : ∀ call ∈ calls, call.Allowed) :
    ∃ answers last, (t.avlInit capacity).avlRun capacity tiebreak probe calls =
        some (answers, last) ∧
      Sound capacity nameRank last ∧ last.maxDepth ≤ max t.maxDepth 23 ∧
      last.allEntries = (indexRun nameRank probeRank capacity [] calls).2 := by
  obtain ⟨last, run, becomes, ordered⟩ := avl_run_refines fits breaks probe
    (@init_pool t capacity fits) index_order_nil calls allowed
  obtain ⟨tree, free, pool, entries, deep⟩ := becomes
  refine ⟨_, last, run, ?_, deep, ?_⟩
  · rw [← entries] at ordered
    exact pool.sound fits ordered
  · rw [pool.all_entries fits]
    exact entries

theorem avl_stays_sound_example :
    ∃ answers last, (blankTree.avlInit 3).avlRun 3 (fun probe =>
        NameTable.nbTiebreak { pairTable with probe }) ⟨0, 0⟩ pairCalls = some (answers, last) ∧
      Sound 3 pairTable.sectorRank last ∧ last.maxDepth ≤ max 0 23 ∧
      last.allEntries = (indexRun pairTable.sectorRank pairTable.fullRank 3 [] pairCalls).2 :=
  avl_stays_sound three_fit (NameTable.nb_tiebreak_breaks pair_table_text) ⟨0, 0⟩ blankTree
    pairCalls pair_calls_allowed

theorem inserts_hold (fits : FitsPool capacity) (breaks : BreaksTies tiebreak nameRank probeRank)
    (probe : P) (t : AvlTree) {contacts order : List (List Byte × Nat)}
    (permuted : order.Perm contacts) (room : contacts.length ≤ capacity)
    (real : ∀ contact ∈ contacts, contact.2 ≠ niProbeSector)
    (once : (contacts.map contactPlace).Nodup) :
    ∃ inserted tree free, (t.avlInit capacity).avlRun capacity tiebreak probe
        (order.map fun contact => .insert contact.1 contact.2) =
          some (List.replicate order.length (.done true), inserted) ∧
      Pool capacity inserted tree free ∧
      inserted.entriesOf tree = sortedContacts nameRank contacts := by
  have reals : ∀ contact ∈ order, contact.2 ≠ niProbeSector := fun contact member =>
    real contact (permuted.mem_iff.mp member)
  have sameLength := permuted.length_eq
  obtain ⟨entries, answers, perm, ordered⟩ := @index_run_inserts P K _ nameRank probeRank capacity []
    index_order_nil order reals ((permuted.map contactPlace).nodup_iff.mpr once)
    (fun contact _ there => by simp [present] at there)
    (by rw [List.length_nil]; omega)
  obtain ⟨inserted, run, becomes, _⟩ := avl_run_refines fits breaks probe (@init_pool t capacity fits)
    index_order_nil (order.map fun contact => .insert contact.1 contact.2) (by
      intro call member
      obtain ⟨contact, inside, rfl⟩ := List.mem_map.mp member
      exact reals contact inside)
  change avlRun _ _ _ _ _ = some ((indexRun nameRank probeRank capacity [] _).1, _) at run
  change Becomes _ _ _ (indexRun nameRank probeRank capacity [] _).2 at becomes
  rw [answers] at run becomes
  obtain ⟨tree, free, pool, insertedEntries, _⟩ := becomes
  have whole := perm.trans (permuted.map _)
  have same : entries = sortedContacts nameRank contacts :=
    contacts_unique whole (sorted_contacts_perm contacts)
      (ordered.sorted.imp le_of_lt) (sorted_contacts_sorted contacts)
  exact ⟨inserted, tree, free, run, pool, insertedEntries.trans same⟩

/-- A rebuild leaves the index that inserting the contacts in any order leaves, and its tree is
as low as a tree of so many entries can be. -/
theorem rebuild_as_inserts (fits : FitsPool capacity)
    (breaks : BreaksTies tiebreak nameRank probeRank) (probe : P) (s t : AvlTree)
    {contacts order : List (List Byte × Nat)} (permuted : order.Perm contacts)
    (room : contacts.length ≤ capacity) (real : ∀ contact ∈ contacts, contact.2 ≠ niProbeSector)
    (once : (contacts.map contactPlace).Nodup) (calls : List (IndexCall P))
    (allowed : ∀ call ∈ calls, call.Allowed) :
    ∃ rebuilt inserted, s.avlRebuild capacity (tiebreak probe) contacts = some (true, rebuilt) ∧
      (t.avlInit capacity).avlRun capacity tiebreak probe
        (order.map fun contact => .insert contact.1 contact.2) =
          some (List.replicate order.length (.done true), inserted) ∧
      rebuilt.allEntries = inserted.allEntries ∧
      rebuilt.avlHeight = contacts.length.size ∧ rebuilt.avlHeight ≤ inserted.avlHeight ∧
      ∃ answers final other,
        rebuilt.avlRun capacity tiebreak probe calls = some (answers, final) ∧
        inserted.avlRun capacity tiebreak probe calls = some (answers, other) := by
  obtain ⟨rebuilt, rebuild, rebuiltPool, rebuiltEntries, _⟩ := @rebuild_pool _ _ _ _ _ _ _ s fits
    breaks probe _ room real
  obtain ⟨inserted, tree, free, run, pool, insertedEntries⟩ := inserts_hold fits breaks probe t
    permuted room real once
  have ordered : IndexOrder nameRank capacity (sortedContacts nameRank contacts) :=
    sorted_contacts_order real once room
  have alike := rebuiltEntries.trans insertedEntries.symm
  have rebuiltHeight : rebuilt.avlHeight = contacts.length.size := by
    rw [avlHeight, rebuiltPool.root, h_eq rebuiltPool.holds, evenTree_height (by omega)]
  have lowest : contacts.length.size ≤ tree.height := by
    have bound := size_le_height tree
    rwa [← entries_length inserted, insertedEntries, (sorted_contacts_perm contacts).length_eq,
      List.length_map] at bound
  obtain ⟨final, rebuiltRun, _, _⟩ := avl_run_refines fits breaks probe rebuiltPool
    (rebuiltEntries ▸ ordered) calls allowed
  obtain ⟨other, insertedRun, _, _⟩ := avl_run_refines fits breaks probe pool
    (insertedEntries ▸ ordered) calls allowed
  refine ⟨rebuilt, inserted, rebuild, run, ?_, rebuiltHeight, ?_, _, final, other, rebuiltRun, ?_⟩
  · rw [rebuiltPool.all_entries fits, pool.all_entries fits, alike]
  · rw [rebuiltHeight, avlHeight, pool.root, h_eq pool.holds]
    exact_mod_cast lowest
  · rw [alike]
    exact insertedRun

theorem rebuild_as_inserts_example :
    ∃ rebuilt inserted, blankTree.avlRebuild 3 (NameTable.nbTiebreak pairTable)
        [(bobLee, 1), (annLee, 4), (annLee, 0)] = some (true, rebuilt) ∧
      (blankTree.avlInit 3).avlRun 3 (fun probe => NameTable.nbTiebreak { pairTable with probe })
        ⟨0, 0⟩ [.insert annLee 4, .insert bobLee 1, .insert annLee 0] =
          some (List.replicate 3 (.done true), inserted) ∧
      rebuilt.allEntries = inserted.allEntries ∧
      rebuilt.avlHeight = 2 ∧ rebuilt.avlHeight ≤ inserted.avlHeight ∧
      ∃ answers final other,
        rebuilt.avlRun 3 (fun probe => NameTable.nbTiebreak { pairTable with probe }) ⟨0, 0⟩
          pairCalls = some (answers, final) ∧
        inserted.avlRun 3 (fun probe => NameTable.nbTiebreak { pairTable with probe }) ⟨0, 0⟩
          pairCalls = some (answers, other) :=
  @rebuild_as_inserts _ _ _ _ _ _ 3 three_fit (NameTable.nb_tiebreak_breaks pair_table_text) ⟨0, 0⟩
    blankTree blankTree [(bobLee, 1), (annLee, 4), (annLee, 0)]
    [(annLee, 4), (bobLee, 1), (annLee, 0)] (List.Perm.swap _ _ _) (by decide) (by decide)
    (by decide) pairCalls pair_calls_allowed

end Candidates

end AvlTree

end SdDatabase
