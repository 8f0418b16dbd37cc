import SdDatabase.AvlIterator
import SdDatabase.ArrayIndex

/-!
# The node pool as an index

The nodes of the pool are those of a balanced tree and those of the free list. The
entries of the tree, in order, are the ordered list of the index, and every call
on the pool answers as this list does.
-/

namespace SdDatabase

open BinaryTree BalancedTree Bytes

set_option autoImplicit false

namespace AvlTree

def headIndex : List Nat → Nat
  | [] => treeNil
  | i :: _ => i

/-- The free list, chained through the left links. -/
def Chained (n : Nat → AvlNode) : List Nat → Prop
  | [] => True
  | i :: rest => (n i).left = headIndex rest ∧ Chained n rest

structure Pool (capacity : Nat) (t : AvlTree) (tree : BinaryTree Nat) (free : List Nat) : Prop where
  root : t.root = rootIndex tree
  holds : Holds t.n tree
  balanced : Balanced tree
  freeHead : t.freeHead = headIndex free
  chained : Chained t.n free
  whole : (inorder tree ++ free).Perm (List.range capacity)
  count : t.count = tree.numNodes

def entriesOf (t : AvlTree) (tree : BinaryTree Nat) : List SortedEntry :=
  (inorder tree).map fun i => (t.n i).entry

/-- The capacity leaves the two reserved sector numbers free. -/
structure FitsPool (capacity : Nat) : Prop where
  positive : 0 < capacity
  narrow : capacity < niProbeSector

section Pools

variable {capacity : Nat} {t t' : AvlTree} {tree : BinaryTree Nat} {free : List Nat}

theorem Chained.frame {n n' : Nat → AvlNode} (chained : Chained n free)
    (same : ∀ i ∈ free, n' i = n i) : Chained n' free := by
  induction free with
  | nil => trivial
  | cons i rest ih =>
      constructor
      · rw [same i List.mem_cons_self, chained.1]
      · exact ih chained.2 fun j member => same j (List.mem_cons_of_mem _ member)

theorem Pool.nodup (pool : Pool capacity t tree free) : (inorder tree ++ free).Nodup :=
  pool.whole.nodup_iff.mpr List.nodup_range

theorem Pool.treeNodup (pool : Pool capacity t tree free) : (inorder tree).Nodup :=
  (List.nodup_append.mp pool.nodup).1

theorem Pool.apart (pool : Pool capacity t tree free) : ∀ i ∈ free, i ∉ inorder tree :=
  fun i inFree inTree => (List.nodup_append.mp pool.nodup).2.2 i inTree i inFree rfl

theorem Pool.inside (pool : Pool capacity t tree free) :
    ∀ i ∈ inorder tree ++ free, i < capacity :=
  fun _ member => List.mem_range.mp (pool.whole.mem_iff.mp member)

theorem Pool.total (pool : Pool capacity t tree free) :
    tree.numNodes + free.length = capacity := by
  have lengths := pool.whole.length_eq
  rwa [List.length_append, inorder_length, List.length_range] at lengths

theorem index_real (fits : FitsPool capacity) {i : Nat} (inside : i < capacity) : i ≠ treeNil := by
  have narrow := fits.narrow
  unfold niProbeSector at narrow
  unfold treeNil
  omega

theorem Pool.height (pool : Pool capacity t tree free) (fits : FitsPool capacity) :
    tree.height ≤ 22 := by
  have many := fib_height_le pool.balanced
  have total := pool.total
  have narrow := fits.narrow
  unfold niProbeSector at narrow
  by_contra tall
  have grows : Nat.fib 25 ≤ Nat.fib (tree.height + 2) := Nat.fib_mono (by omega)
  have value : Nat.fib 25 = 75025 := by norm_num [Nat.fib]
  omega

theorem Pool.height_le_capacity (pool : Pool capacity t tree free) : tree.height ≤ capacity := by
  have total := pool.total
  have low := tree.height_le_numNodes
  omega

theorem entries_length (t : AvlTree) (tree : BinaryTree Nat) :
    (t.entriesOf tree).length = tree.numNodes := by
  rw [entriesOf, List.length_map, inorder_length]

theorem Pool.full_iff (pool : Pool capacity t tree free) :
    capacity ≤ (t.entriesOf tree).length ↔ free = [] := by
  have total := pool.total
  rw [entries_length]
  constructor
  · intro full
    exact List.length_eq_zero_iff.mp (by omega)
  · intro none_
    rw [none_, List.length_nil] at total
    omega

end Pools

section Orders

variable {P K : Type} [LinearOrder K] {tiebreak : P → Nat → Nat → Int} {nameRank : Nat → K}
  {probeRank : P → K} {capacity : Nat} {t : AvlTree} {tree : BinaryTree Nat} {free : List Nat}
  {key : Fin 8 → Byte} {sector : Nat}

theorem place_order_rank (breaks : BreaksTies tiebreak nameRank probeRank) (probe : P)
    (real : sector ≠ niProbeSector) {i : Nat}
    (nodeReal : (t.n i).entry.contactIndex ≠ niProbeSector) :
    (t.placeOrder (tiebreak probe) key sector i < 0 ↔
      entryRank nameRank key sector < (t.n i).entry.rank nameRank) ∧
    (t.placeOrder (tiebreak probe) key sector i = 0 ↔
      (t.n i).entry.rank nameRank = entryRank nameRank key sector) := by
  obtain ⟨below, equal⟩ := ni_cmp_sign breaks probe key (t.n i).key real nodeReal
  exact ⟨below, equal.trans eq_comm⟩

theorem IndexOrder.indices (inOrder : IndexOrder nameRank capacity (t.entriesOf tree)) :
    (inorder tree).Pairwise (fun i j =>
      (t.n i).entry.rank nameRank < (t.n j).entry.rank nameRank) ∧
    ∀ i ∈ inorder tree, (t.n i).entry.contactIndex ≠ niProbeSector := by
  have sorted := inOrder.sorted
  rw [entriesOf, List.pairwise_map] at sorted
  exact ⟨sorted, fun i member => inOrder.real _ (List.mem_map_of_mem member)⟩

theorem separates_of_order (breaks : BreaksTies tiebreak nameRank probeRank) (probe : P)
    (inOrder : IndexOrder nameRank capacity (t.entriesOf tree)) (real : sector ≠ niProbeSector) :
    Separates (t.placeOrder (tiebreak probe) key sector) (inorder tree) := by
  obtain ⟨sorted, reals⟩ := IndexOrder.indices inOrder
  apply sorted.imp_of_mem
  intro i j iIn jIn less
  have first := @place_order_rank _ _ _ _ _ _ t key _ breaks probe real i (reals i iIn)
  have second := @place_order_rank _ _ _ _ _ _ t key _ breaks probe real j (reals j jIn)
  by_cases below : entryRank nameRank key sector < (t.n j).entry.rank nameRank
  · exact Or.inl (second.1.mpr below)
  · have lower := less.trans_le (not_lt.mp below)
    have notBelow := mt first.1.mp (not_lt.mpr lower.le)
    have notEqual := mt first.2.mp lower.ne
    exact Or.inr (by omega)

theorem place_order_positive (breaks : BreaksTies tiebreak nameRank probeRank) (probe : P)
    (real : sector ≠ niProbeSector) {i : Nat}
    (nodeReal : (t.n i).entry.contactIndex ≠ niProbeSector) :
    0 < t.placeOrder (tiebreak probe) key sector i ↔
      (t.n i).entry.rank nameRank < entryRank nameRank key sector := by
  obtain ⟨below, equal⟩ := @place_order_rank _ _ _ _ _ _ t key _ breaks probe real i nodeReal
  constructor
  · intro positive
    exact lt_of_le_of_ne (not_lt.mp (mt below.mpr (by omega))) (mt equal.mpr (by omega))
  · intro less
    have notBelow := mt below.mp (not_lt.mpr less.le)
    have notEqual := mt equal.mp less.ne
    omega

theorem search_present (breaks : BreaksTies tiebreak nameRank probeRank) (probe : P)
    (inOrder : IndexOrder nameRank capacity (t.entriesOf tree)) (real : sector ≠ niProbeSector) :
    (search (t.placeOrder (tiebreak probe) key sector) tree).isSome =
      present nameRank (entryRank nameRank key sector) (t.entriesOf tree) := by
  obtain ⟨_, reals⟩ := IndexOrder.indices inOrder
  rw [Bool.eq_iff_iff, present_iff, search_eq (separates_of_order breaks probe inOrder real),
    List.find?_isSome]
  constructor
  · rintro ⟨i, member, equal⟩
    exact ⟨_, List.mem_map_of_mem member, (place_order_rank breaks probe real (reals i member)).2.mp
      (of_decide_eq_true equal)⟩
  · rintro ⟨entry, member, equal⟩
    obtain ⟨i, inside, rfl⟩ := List.mem_map.mp member
    exact ⟨i, inside, decide_eq_true
      ((place_order_rank breaks probe real (reals i inside)).2.mpr equal)⟩

theorem probe_order_place (breaks : BreaksTies tiebreak nameRank probeRank) (probe : P) {i : Nat}
    (nodeReal : (t.n i).entry.contactIndex ≠ niProbeSector) :
    (t.probeOrder (tiebreak probe) key i < 0 ↔
      (t.n i).entry.place nameRank < placeRank key (probeRank probe)) ∧
    (t.probeOrder (tiebreak probe) key i = 0 ↔
      (t.n i).entry.place nameRank = placeRank key (probeRank probe)) :=
  ni_cmp_probe breaks probe (t.n i).key key nodeReal

theorem ascends_of_order (breaks : BreaksTies tiebreak nameRank probeRank) (probe : P)
    (inOrder : IndexOrder nameRank capacity (t.entriesOf tree)) :
    Ascends (t.probeOrder (tiebreak probe) key) (inorder tree) := by
  obtain ⟨_, reals⟩ := IndexOrder.indices inOrder
  have places := IndexOrder.places inOrder
  rw [entriesOf, List.pairwise_map] at places
  apply places.imp_of_mem
  intro i j iIn jIn notLess
  have first := @probe_order_place _ _ _ _ _ _ t key breaks probe i (reals i iIn)
  have second := @probe_order_place _ _ _ _ _ _ t key breaks probe j (reals j jIn)
  constructor
  · intro below
    exact first.1.mpr (notLess.trans_lt (second.1.mp below))
  · intro notAbove
    have high : (t.n j).entry.place nameRank ≤ placeRank key (probeRank probe) := by
      rcases notAbove.lt_or_eq with below | equal
      · exact (second.1.mp below).le
      · exact (second.2.mp equal).le
    rcases (notLess.trans high).lt_or_eq with below | equal
    · exact (first.1.mpr below).le
    · exact (first.2.mpr equal).le

end Orders

/-- After a call the pool holds some entries, and its recursions stayed shallow. -/
def Becomes (capacity : Nat) (t t' : AvlTree) (entries : List SortedEntry) : Prop :=
  ∃ tree free, Pool capacity t' tree free ∧ t'.entriesOf tree = entries ∧
    t'.maxDepth ≤ max t.maxDepth 23

section Insertion

variable {P K : Type} [LinearOrder K] {tiebreak : P → Nat → Nat → Int} {nameRank : Nat → K}
  {probeRank : P → K} {capacity : Nat} {t t' : AvlTree} {tree : BinaryTree Nat} {free : List Nat}
  {key : Fin 8 → Byte} {sector : Nat}

theorem entries_congr {s : AvlTree} (same : ∀ i ∈ inorder tree, (s.n i).entry = (t.n i).entry) :
    s.entriesOf tree = t.entriesOf tree :=
  List.map_congr_left same

theorem entries_filter {p : Nat → Bool} {q : SortedEntry → Bool} (list : List Nat)
    (same : ∀ i ∈ list, p i = q (t.n i).entry) :
    (list.filter p).map (fun i => (t.n i).entry) = (list.map fun i => (t.n i).entry).filter q := by
  rw [List.filter_map]
  exact congrArg _ (List.filter_congr same)

/-- The first free node, made a leaf for a new entry. -/
def freshLeaf (t : AvlTree) (fresh : Nat) (rest : List Nat) (key : Fin 8 → Byte) (sector : Nat) :
    AvlTree :=
  { t with freeHead := headIndex rest }.setNode fresh ⟨key, sector, noMessage, treeNil, treeNil, 1⟩

theorem fresh_leaf_other {fresh : Nat} {rest : List Nat} {i : Nat} (different : i ≠ fresh) :
    (t.freshLeaf fresh rest key sector).n i = t.n i :=
  set_node_other _ _ different

theorem fresh_leaf_node (fresh : Nat) (rest : List Nat) :
    (t.freshLeaf fresh rest key sector).n fresh =
      ⟨key, sector, noMessage, treeNil, treeNil, 1⟩ :=
  set_node_same _ _ _

theorem Pool.fresh_out {fresh : Nat} {rest : List Nat}
    (pool : Pool capacity t tree (fresh :: rest)) : fresh ∉ inorder tree ∧ fresh ∉ rest :=
  ⟨pool.apart fresh List.mem_cons_self,
    (List.nodup_cons.mp (List.nodup_append.mp pool.nodup).2.1).1⟩

theorem insert_key_alloc (fits : FitsPool capacity) {fresh : Nat} {rest : List Nat}
    (pool : Pool capacity t tree (fresh :: rest)) (compare : Nat → Nat → Int) :
    t.avlInsertKey capacity compare key sector =
      (insertRec compare fresh (capacity + 1) (t.freshLeaf fresh rest key sector) t.root 1).map
        fun (t, root, ok) =>
          let t := { t with root }
          if !ok then (false, t.nodeFree fresh)
          else (true, { t with count := uint16 (t.count + 1) }) := by
  have real := index_real fits (pool.inside fresh (by simp))
  have next : (t.n fresh).left = headIndex rest := pool.chained.1
  have head : t.freeHead = fresh := pool.freeHead
  unfold avlInsertKey nodeAlloc
  simp only [head, ne_eq, real, not_false_eq_true, if_true, if_false, next]
  rfl

theorem insert_fresh_leaf (fits : FitsPool capacity) {fresh : Nat} {rest : List Nat}
    (pool : Pool capacity t tree (fresh :: rest)) (compare : Nat → Nat → Int) :
    ∃ t' root, insertRec compare fresh (capacity + 1) (t.freshLeaf fresh rest key sector) t.root 1 =
        some (t', root, (search ((t.freshLeaf fresh rest key sector).placeOrder compare key sector)
          tree).isNone) ∧
      Replaced (t.freshLeaf fresh rest key sector) t' (fresh :: inorder tree)
        (BalancedTree.insert ((t.freshLeaf fresh rest key sector).placeOrder compare key sector)
          fresh tree) root 23 := by
  obtain ⟨outTree, _⟩ := pool.fresh_out
  have low := pool.height fits
  have lower := pool.height_le_capacity
  have holds : Holds (t.freshLeaf fresh rest key sector).n tree :=
    pool.holds.frame fun i member => fresh_leaf_other fun same => outTree (same ▸ member)
  have leaf := @fresh_leaf_node t key sector fresh rest
  have detached : Detached (t.freshLeaf fresh rest key sector).n fresh :=
    ⟨index_real fits (pool.inside fresh (by simp)), by rw [leaf], by rw [leaf], by rw [leaf]⟩
  obtain ⟨t', root, run, replaced⟩ := @insert_rec_holds compare _ fresh tree (capacity + 1) 1 holds
    pool.treeNodup outTree detached pool.balanced (by omega) (by omega) (by omega)
  rw [leaf] at run replaced
  rw [pool.root]
  exact ⟨t', root, run, replaced.deeper (by omega)⟩

theorem inserted_entries (breaks : BreaksTies tiebreak nameRank probeRank) (probe : P)
    (inOrder : IndexOrder nameRank capacity (t.entriesOf tree)) (real : sector ≠ niProbeSector)
    {fresh : Nat} (leaf : (t.n fresh).entry = newEntry key sector)
    (same : ∀ i, (t'.n i).entry = (t.n i).entry)
    (absent : ∀ i ∈ inorder tree, t.placeOrder (tiebreak probe) key sector i ≠ 0) :
    t'.entriesOf (BalancedTree.insert (t.placeOrder (tiebreak probe) key sector) fresh tree) =
      (t.entriesOf tree).filter (fun entry =>
        entry.rank nameRank < entryRank nameRank key sector) ++
      newEntry key sector :: (t.entriesOf tree).filter fun entry =>
        entryRank nameRank key sector < entry.rank nameRank := by
  obtain ⟨_, reals⟩ := IndexOrder.indices inOrder
  have front := @entries_filter t (fun i => 0 < t.placeOrder (tiebreak probe) key sector i)
    (fun entry => entry.rank nameRank < entryRank nameRank key sector) (inorder tree)
    fun i member => decide_eq_decide.mpr (place_order_positive breaks probe real (reals i member))
  have rear := @entries_filter t (fun i => t.placeOrder (tiebreak probe) key sector i < 0)
    (fun entry => entryRank nameRank key sector < entry.rank nameRank) (inorder tree)
    fun i member => decide_eq_decide.mpr (place_order_rank breaks probe real (reals i member)).1
  rw [entries_congr fun i _ => same i, entriesOf,
    inorder_insert (separates_of_order breaks probe inOrder real) fresh absent, List.map_append,
    List.map_cons, front, rear, leaf]
  rfl

theorem fresh_leaf_rest {fresh : Nat} {rest : List Nat}
    (pool : Pool capacity t tree (fresh :: rest))
    (rewired : Rewired (t.freshLeaf fresh rest key sector) t' (fresh :: inorder tree)) :
    Chained t'.n rest ∧ t'.freeHead = headIndex rest ∧ t'.count = tree.numNodes ∧
      ∀ i ∈ inorder tree, (t'.n i).entry = (t.n i).entry := by
  obtain ⟨outTree, outRest⟩ := pool.fresh_out
  refine ⟨?_, rewired.freeHead, rewired.count.trans pool.count, ?_⟩
  · apply pool.chained.2.frame
    intro i member
    have different : i ≠ fresh := fun same => outRest (same ▸ member)
    have outside : i ∉ fresh :: inorder tree := by
      rw [List.mem_cons, not_or]
      exact ⟨different, pool.apart i (List.mem_cons_of_mem _ member)⟩
    rw [rewired.others i outside, fresh_leaf_other different]
  · intro i member
    have different : i ≠ fresh := fun same => outTree (same ▸ member)
    rw [rewired.entry i, fresh_leaf_other different]

theorem refused_leaf_pool {fresh root bound : Nat} {rest : List Nat}
    (pool : Pool capacity t tree (fresh :: rest))
    (replaced : Replaced (t.freshLeaf fresh rest key sector) t' (fresh :: inorder tree) tree root
      bound) :
    Pool capacity ({ t' with root }.nodeFree fresh) tree (fresh :: rest) ∧
      ({ t' with root }.nodeFree fresh).entriesOf tree = t.entriesOf tree := by
  obtain ⟨outTree, outRest⟩ := pool.fresh_out
  obtain ⟨chained, head, counted, entries⟩ := fresh_leaf_rest pool replaced.rewired
  constructor
  · constructor
    · exact replaced.root
    · exact node_free_frame replaced.holds outTree
    · exact pool.balanced
    · rfl
    · refine ⟨?_, chained.frame fun j member => node_free_other _ fun equal =>
        outRest (equal ▸ member)⟩
      rw [node_free_same]
      exact head
    · exact pool.whole
    · exact counted
  · apply entries_congr
    intro j member
    have different : j ≠ fresh := fun same => outTree (same ▸ member)
    rw [node_free_other _ different]
    exact entries j member

theorem grown_pool (fits : FitsPool capacity) {fresh root bound : Nat} {rest : List Nat}
    {grown : BinaryTree Nat} (pool : Pool capacity t tree (fresh :: rest))
    (replaced : Replaced (t.freshLeaf fresh rest key sector) t' (fresh :: inorder tree) grown root
      bound)
    (perm : (inorder grown).Perm (fresh :: inorder tree)) (balanced : Balanced grown) :
    Pool capacity { t' with root, count := uint16 (t'.count + 1) } grown rest := by
  obtain ⟨chained, head, counted, _⟩ := fresh_leaf_rest pool replaced.rewired
  have more : grown.numNodes = tree.numNodes + 1 := by
    rw [← inorder_length, perm.length_eq, List.length_cons, inorder_length]
  have total := pool.total
  have narrow := fits.narrow
  unfold niProbeSector at narrow
  rw [List.length_cons] at total
  constructor
  · exact replaced.root
  · exact replaced.holds
  · exact balanced
  · exact head
  · exact chained
  · exact (perm.append_right rest).trans (List.perm_middle.symm.trans pool.whole)
  · change uint16 (t'.count + 1) = _
    rw [counted, more]
    exact Nat.mod_eq_of_lt (by omega)

theorem insert_key_pool (fits : FitsPool capacity)
    (breaks : BreaksTies tiebreak nameRank probeRank) (probe : P)
    (pool : Pool capacity t tree free) (inOrder : IndexOrder nameRank capacity (t.entriesOf tree))
    (real : sector ≠ niProbeSector) :
    ∃ ok t' entries, t.avlInsertKey capacity (tiebreak probe) key sector = some (ok, t') ∧
      indexInsert nameRank capacity key sector (t.entriesOf tree) = (ok, entries) ∧
      Becomes capacity t t' entries := by
  cases free with
  | nil =>
      have full := pool.full_iff.mpr rfl
      have none_ : t.freeHead = treeNil := pool.freeHead
      refine ⟨false, t, t.entriesOf tree, ?_, ?_, tree, [], pool, rfl, le_max_left _ _⟩
      · simp [avlInsertKey, nodeAlloc, none_]
      · simp [indexInsert, full]
  | cons fresh rest =>
      obtain ⟨outTree, _⟩ := pool.fresh_out
      have notFull : ¬capacity ≤ (t.entriesOf tree).length := fun full => by
        cases pool.full_iff.mp full
      obtain ⟨s, sEq⟩ : ∃ s, s = t.freshLeaf fresh rest key sector := ⟨_, rfl⟩
      have kept : s.entriesOf tree = t.entriesOf tree := entries_congr fun i member => by
        have different : i ≠ fresh := fun same => outTree (same ▸ member)
        rw [sEq, fresh_leaf_other different]
      have sOrder : IndexOrder nameRank capacity (s.entriesOf tree) := kept ▸ inOrder
      have found := @search_present _ _ _ _ _ _ _ s _ key _ breaks probe sOrder real
      obtain ⟨t', root, run, replaced⟩ := @insert_fresh_leaf _ _ _ key sector fits _ _ pool
        (tiebreak probe)
      have deep : t'.maxDepth ≤ max t.maxDepth 23 := replaced.depth
      rw [insert_key_alloc fits pool, run, Option.map_some]
      rw [← sEq] at replaced ⊢
      unfold indexInsert
      cases there : search (s.placeOrder (tiebreak probe) key sector) tree with
      | some i =>
          rw [there, kept] at found
          rw [@insert_found _ _ _ pool.balanced fresh i there, sEq] at replaced
          obtain ⟨after, entries⟩ := refused_leaf_pool pool replaced
          refine ⟨false, _, t.entriesOf tree, rfl, ?_, tree, fresh :: rest, after, entries, deep⟩
          simp [← found]
      | none =>
          rw [there, kept] at found
          have absent := (search_none_iff (separates_of_order breaks probe sOrder real)).mp there
          have leaf : (s.n fresh).entry = newEntry key sector := by
            rw [sEq, fresh_leaf_node]
            rfl
          have entries := inserted_entries breaks probe sOrder real leaf replaced.rewired.entry absent
          rw [kept] at entries
          have after := @grown_pool capacity t t' tree key sector fits fresh root 23 rest _ pool
            (by rw [← sEq]; exact replaced) (inorder_insert_perm fresh there)
            (insert_balanced _ fresh pool.balanced).1
          refine ⟨true, _, _, rfl, ?_, _, rest, after, entries, deep⟩
          simp [notFull, ← found]

end Insertion

section Removal

variable {P K : Type} [LinearOrder K] {tiebreak : P → Nat → Nat → Int} {nameRank : Nat → K}
  {probeRank : P → K} {capacity : Nat} {t t' : AvlTree} {tree : BinaryTree Nat} {free : List Nat}
  {sector : Nat}

theorem unremoved_pool {root bound : Nat} {touched : List Nat}
    (pool : Pool capacity t tree free) (inside : touched ⊆ inorder tree)
    (replaced : Replaced t t' touched tree root bound) :
    Pool capacity { t' with root } tree free where
  root := replaced.root
  holds := replaced.holds
  balanced := pool.balanced
  freeHead := replaced.rewired.freeHead.trans pool.freeHead
  chained := pool.chained.frame fun i member =>
    replaced.rewired.others i fun touch => pool.apart i member (inside touch)
  whole := pool.whole
  count := replaced.rewired.count.trans pool.count

theorem removed_pool (fits : FitsPool capacity) {gone root bound : Nat}
    {shrunk : BinaryTree Nat} (pool : Pool capacity t tree free)
    (replaced : Replaced (t.nodeFree gone) t' (inorder shrunk) shrunk root bound)
    (perm : (inorder tree).Perm (gone :: inorder shrunk)) (balanced : Balanced shrunk) :
    Pool capacity { t' with root, count := uint16 (t'.count + 65535) } shrunk (gone :: free) := by
  have nodup := pool.treeNodup
  rw [perm.nodup_iff, List.nodup_cons] at nodup
  have member : gone ∈ inorder tree := perm.mem_iff.mpr List.mem_cons_self
  have fewer : tree.numNodes = shrunk.numNodes + 1 := by
    rw [← inorder_length, perm.length_eq, List.length_cons, inorder_length]
  have total := pool.total
  have narrow := fits.narrow
  unfold niProbeSector at narrow
  have kept : ∀ i ∈ free, t'.n i = t.n i := by
    intro i inFree
    have out := pool.apart i inFree
    have different : i ≠ gone := fun same => out (same ▸ member)
    rw [replaced.rewired.others i fun inside =>
      out (perm.mem_iff.mpr (List.mem_cons_of_mem _ inside)), node_free_other t different]
  constructor
  · exact replaced.root
  · exact replaced.holds
  · exact balanced
  · exact replaced.rewired.freeHead
  · refine ⟨?_, pool.chained.frame kept⟩
    change (t'.n gone).left = _
    rw [replaced.rewired.others gone nodup.1, node_free_same]
    exact pool.freeHead
  · exact List.perm_middle.trans ((perm.symm.append_right free).trans pool.whole)
  · change uint16 (t'.count + 65535) = _
    have counted : t'.count = tree.numNodes := replaced.rewired.count.trans pool.count
    unfold uint16
    omega

theorem removed_entries (breaks : BreaksTies tiebreak nameRank probeRank) (probe : P)
    (inOrder : IndexOrder nameRank capacity (t.entriesOf tree)) (real : sector ≠ niProbeSector)
    {key : Fin 8 → Byte} (same : ∀ i, (t'.n i).entry = (t.n i).entry) :
    t'.entriesOf (BalancedTree.remove (t.placeOrder (tiebreak probe) key sector) tree) =
      (t.entriesOf tree).filter fun entry =>
        entry.rank nameRank ≠ entryRank nameRank key sector := by
  obtain ⟨_, reals⟩ := IndexOrder.indices inOrder
  have filtered := @entries_filter t (fun i => t.placeOrder (tiebreak probe) key sector i ≠ 0)
    (fun entry => entry.rank nameRank ≠ entryRank nameRank key sector) (inorder tree)
    fun i member => decide_eq_decide.mpr
      (not_congr (place_order_rank breaks probe real (reals i member)).2)
  rw [← entriesOf] at filtered
  rw [entries_congr fun i _ => same i, ← filtered, entriesOf,
    inorder_remove (separates_of_order breaks probe inOrder real)]

theorem freed_entry (t : AvlTree) (gone : Option Nat) (i : Nat) :
    ((t.freed gone).n i).entry = (t.n i).entry := by
  cases gone with
  | none => rfl
  | some gone =>
      change ((t.nodeFree gone).n i).entry = _
      by_cases same : i = gone
      · rw [same, node_free_same]
        rfl
      · rw [node_free_other t same]

theorem remove_pool (fits : FitsPool capacity) (breaks : BreaksTies tiebreak nameRank probeRank)
    (probe : P) (pool : Pool capacity t tree free)
    (inOrder : IndexOrder nameRank capacity (t.entriesOf tree)) (real : sector ≠ niProbeSector)
    (name : List Byte) :
    ∃ ok t' entries, t.avlRemove capacity (tiebreak probe) name sector = some (ok, t') ∧
      indexRemove nameRank (niMakeKey name) sector (t.entriesOf tree) = (ok, entries) ∧
      Becomes capacity t t' entries := by
  have low := pool.height fits
  have lower := pool.height_le_capacity
  have found := @search_present _ _ _ _ _ _ _ t _ (niMakeKey name) _ breaks probe inOrder real
  obtain ⟨t', root, run, replaced⟩ := @remove_rec_holds (tiebreak probe) t tree (niMakeKey name)
    sector (capacity + 1) 1 pool.holds pool.treeNodup pool.balanced (by omega) (by omega) (by omega)
  have entries := @removed_entries _ _ _ _ _ _ _ t t' _ _ breaks probe inOrder real (niMakeKey name)
    fun i => (replaced.rewired.entry i).trans (freed_entry t _ i)
  have deep := replaced.deeper (by omega : _ ≤ 23)
  rw [← pool.root] at run
  unfold avlRemove
  rw [run, found, Option.map_some]
  refine ⟨_, _, _, rfl, rfl, ?_⟩
  rw [← entries, ← found]
  cases there : search (t.placeOrder (tiebreak probe) (niMakeKey name) sector) tree with
  | none =>
      rw [there] at replaced deep
      rw [remove_absent pool.balanced there] at replaced deep ⊢
      exact ⟨tree, free, unremoved_pool pool (fun _ member => member) replaced, rfl, deep.depth⟩
  | some gone =>
      rw [there] at replaced deep
      have after := @removed_pool capacity t t' tree free fits gone root _ _ pool replaced
        (inorder_remove_perm there) (remove_balanced _ pool.balanced).1
      exact ⟨_, gone :: free, after, rfl, deep.depth⟩

theorem Holds.relabel {n n' : Nat → AvlNode} (holds : Holds n tree)
    (left : ∀ i, (n' i).left = (n i).left) (right : ∀ i, (n' i).right = (n i).right)
    (height : ∀ i, (n' i).height = (n i).height) : Holds n' tree := by
  induction tree with
  | nil => trivial
  | node i first second firstIh secondIh =>
      obtain ⟨real, toLeft, toRight, fits, inFirst, inSecond⟩ := holds
      exact ⟨real, (left i).trans toLeft, (right i).trans toRight, (height i).trans fits,
        firstIh inFirst, secondIh inSecond⟩

theorem set_message_pool (breaks : BreaksTies tiebreak nameRank probeRank) (probe : P)
    (pool : Pool capacity t tree free) (inOrder : IndexOrder nameRank capacity (t.entriesOf tree))
    (real : sector ≠ niProbeSector) (name : List Byte) (messageIndex : Nat) :
    ∃ ok t' entries,
      t.avlSetMessage capacity (tiebreak probe) name sector messageIndex = some (ok, t') ∧
      indexSetMessage nameRank (niMakeKey name) sector messageIndex (t.entriesOf tree) =
        (ok, entries) ∧
      Becomes capacity t t' entries := by
  obtain ⟨sorted, reals⟩ := IndexOrder.indices inOrder
  have lower := pool.height_le_capacity
  have found := @search_present _ _ _ _ _ _ _ t _ (niMakeKey name) _ breaks probe inOrder real
  have run := @find_exact_holds (tiebreak probe) t tree (niMakeKey name) sector (capacity + 1)
    pool.holds (by omega)
  have ranks : ∀ i ∈ inorder tree, _ := fun i member =>
    (@place_order_rank _ _ _ _ _ _ t (niMakeKey name) _ breaks probe real i (reals i member)).2
  rw [← pool.root] at run
  unfold avlSetMessage indexSetMessage
  rw [run, Option.map_some]
  dsimp only
  rw [← found]
  cases there : search (t.placeOrder (tiebreak probe) (niMakeKey name) sector) tree with
  | none =>
      refine ⟨false, t, _, rfl, rfl, tree, free, pool, ?_, le_max_left _ _⟩
      have absent := (search_none_iff (separates_of_order breaks probe inOrder real)).mp there
      rw [entriesOf, List.map_map]
      apply List.map_congr_left
      intro i member
      rw [Function.comp_apply, if_neg (mt (ranks i member).mpr (absent i member))]
  | some i =>
      have member := search_mem there
      have node := holds_real pool.holds i member
      have equal : t.placeOrder (tiebreak probe) (niMakeKey name) sector i = 0 := by
        rw [search_eq (separates_of_order breaks probe inOrder real)] at there
        have zero := List.find?_some there
        simpa using zero
      have only : ∀ j ∈ inorder tree,
          (t.n j).entry.rank nameRank = entryRank nameRank (niMakeKey name) sector → j = i := by
        intro j inside same
        have distinct : ((inorder tree).map fun k => (t.n k).entry.rank nameRank).Nodup :=
          List.pairwise_map.mpr (sorted.imp fun less => less.ne)
        exact List.inj_on_of_nodup_map distinct inside member
          (same.trans ((ranks i member).mp equal).symm)
      have others : ∀ j, j ≠ i → (t.setNode i { t.n i with messageIndex }).n j = t.n j :=
        fun j different => set_node_other _ _ different
      have links : ∀ j, ((t.setNode i { t.n i with messageIndex }).n j).left = (t.n j).left ∧
          ((t.setNode i { t.n i with messageIndex }).n j).right = (t.n j).right ∧
          ((t.setNode i { t.n i with messageIndex }).n j).height = (t.n j).height := by
        intro j
        by_cases here : j = i
        · rw [here, set_node_same]
          exact ⟨rfl, rfl, rfl⟩
        · rw [others j here]
          exact ⟨rfl, rfl, rfl⟩
      rw [Option.getD_some, if_neg node]
      refine ⟨true, _, _, rfl, rfl, tree, free, ?_, ?_, le_max_left _ _⟩
      · constructor
        · exact pool.root
        · exact pool.holds.relabel (fun j => (links j).1) (fun j => (links j).2.1)
            fun j => (links j).2.2
        · exact pool.balanced
        · exact pool.freeHead
        · exact pool.chained.frame fun j inFree => others j fun same =>
            pool.apart j inFree (same ▸ member)
        · exact pool.whole
        · exact pool.count
      · rw [entriesOf, entriesOf, List.map_map]
        apply List.map_congr_left
        intro j inside
        rw [Function.comp_apply]
        by_cases here : j = i
        · rw [here, set_node_same, if_pos ((ranks i member).mp equal)]
          rfl
        · rw [others j here, if_neg (mt (only j inside) here)]

theorem find_pool (breaks : BreaksTies tiebreak nameRank probeRank) (probe : P)
    (pool : Pool capacity t tree free) (inOrder : IndexOrder nameRank capacity (t.entriesOf tree))
    (name : List Byte) :
    t.avlFind capacity (tiebreak probe) name =
      some (indexFind nameRank (placeRank (niMakeKey name) (probeRank probe))
        (t.entriesOf tree)) := by
  obtain ⟨_, reals⟩ := IndexOrder.indices inOrder
  have lower := pool.height_le_capacity
  have run := @find_holds (tiebreak probe) t tree (niMakeKey name) (capacity + 1) treeNil
    pool.holds (ascends_of_order breaks probe inOrder) (by omega)
  have same : (inorder tree).find? (fun i =>
      t.probeOrder (tiebreak probe) (niMakeKey name) i = 0) =
      (inorder tree).find? fun i =>
        (t.n i).entry.place nameRank = placeRank (niMakeKey name) (probeRank probe) := by
    rw [← List.head?_filter, ← List.head?_filter]
    apply congrArg List.head?
    apply List.filter_congr
    intro i member
    exact decide_eq_decide.mpr (probe_order_place breaks probe (reals i member)).2
  unfold avlFind indexFind
  rw [pool.root, run, same, entriesOf, List.find?_map, Option.map_some, Option.some.injEq]
  cases found : (inorder tree).find? fun i =>
      (t.n i).entry.place nameRank = placeRank (niMakeKey name) (probeRank probe) with
  | none => rw [Function.comp_def, found]; rfl
  | some i =>
      have node := holds_real pool.holds i (List.mem_of_find?_eq_some found)
      rw [Option.getD_some, if_neg node, Function.comp_def, found]
      rfl

end Removal

end AvlTree

end SdDatabase
