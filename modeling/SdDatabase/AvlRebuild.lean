import SdDatabase.AvlIndex

/-!
# Rebuilding the node pool

A rebuild appends the new entries to the first nodes, sorts these nodes and links
them into a tree that is as low as it can be. The other nodes go to the free list,
whatever the pool held before.
-/

namespace SdDatabase

open BinaryTree BalancedTree Bytes

set_option autoImplicit false

namespace AvlTree

section Adds

variable {capacity : Nat}

theorem rebuild_adds_pool (contacts : List (List Byte × Nat)) (t : AvlTree)
    (room : t.count + contacts.length ≤ capacity) (narrow : capacity < 65536) :
    (t.rebuildAdds capacity contacts).count = t.count + contacts.length ∧
      (t.rebuildAdds capacity contacts).maxDepth = t.maxDepth ∧
      (∀ i < t.count, (t.rebuildAdds capacity contacts).n i = t.n i) ∧
      ∀ index, (inside : index < contacts.length) →
        ((t.rebuildAdds capacity contacts).n (t.count + index)).entry =
          newEntry (niMakeKey contacts[index].1) contacts[index].2 := by
  induction contacts generalizing t with
  | nil =>
      exact ⟨rfl, rfl, fun _ _ => rfl, fun index inside => absurd inside (Nat.not_lt_zero _)⟩
  | cons contact rest ih =>
      obtain ⟨name, sector⟩ := contact
      rw [List.length_cons] at room
      obtain ⟨added, addedEq⟩ : ∃ added, added =
        (t.avlRebuildAdd capacity (niMakeKey name) sector).2 := ⟨_, rfl⟩
      have unfolded : added = { t.setNode t.count { t.n t.count with
          key := niMakeKey name, contactIndex := sector, messageIndex := noMessage } with
          count := uint16 (t.count + 1) } := by
        rw [addedEq, avlRebuildAdd, if_neg (by omega)]
      have counted : added.count = t.count + 1 := by
        rw [unfolded]
        exact Nat.mod_eq_of_lt (by omega)
      have placed : (added.n t.count).entry = newEntry (niMakeKey name) sector := by
        rw [unfolded]
        simp only [set_node_same]
        rfl
      have others : ∀ i, i ≠ t.count → added.n i = t.n i := by
        intro i different
        rw [unfolded]
        exact set_node_other _ _ different
      obtain ⟨count, depth, before, behind⟩ := ih added (by rw [counted]; omega)
      rw [rebuildAdds, ← addedEq]
      refine ⟨?_, ?_, ?_, ?_⟩
      · rw [count, counted, List.length_cons]
        omega
      · rw [depth, unfolded]
        rfl
      · intro i inside
        rw [before i (by omega), others i (by omega)]
      · intro index inside
        cases index with
        | zero =>
            rw [Nat.add_zero, before t.count (by omega)]
            exact placed
        | succ index =>
            have later := behind index (by simpa using inside)
            rw [counted] at later
            rw [show t.count + (index + 1) = t.count + 1 + index by omega, later]
            rfl

end Adds

section Linking

variable {t : AvlTree}

theorem Replaced.link_middle {s leftPool rightPool : AvlTree}
    {mid leftRoot rightRoot leftBound rightBound bound : Nat} {leftTree rightTree : BinaryTree Nat}
    (left : Replaced s leftPool (inorder leftTree) leftTree leftRoot leftBound)
    (right : Replaced (leftPool.setLeft mid leftRoot) rightPool (inorder rightTree) rightTree
      rightRoot rightBound)
    (real : mid ≠ treeNil) (nodup : (inorder (.node mid leftTree rightTree)).Nodup)
    (small : (BinaryTree.node mid leftTree rightTree).height < 128) (leftLow : leftBound ≤ bound)
    (rightLow : rightBound ≤ bound) :
    Replaced s ((rightPool.setRight mid rightRoot).updateHeight mid)
      (inorder (.node mid leftTree rightTree)) (.node mid leftTree rightTree) mid bound := by
  obtain ⟨_, _, outLeft, outRight, apart⟩ := node_apart nodup
  have leftKept : Holds rightPool.n leftTree := by
    apply right.rewired.frame
    · exact (set_left_rewired leftPool mid leftRoot).frame left.holds fun i member here =>
        outLeft (List.mem_singleton.mp here ▸ member)
    · exact apart
  have toLeft : (rightPool.n mid).left = rootIndex leftTree := by
    rw [right.rewired.others mid outRight, ← left.root]
    simp [setLeft]
  have linked := set_right_linked real toLeft leftKept right.holds outRight outLeft
  rw [← right.root] at linked
  refine ⟨rfl, linked.update_height nodup small, ?_, ?_⟩
  · have inside : [mid] ⊆ inorder (.node mid leftTree rightTree) := by simp
    have one := left.rewired.mono (by simp : _ ⊆ inorder (.node mid leftTree rightTree))
    have two := one.trans ((set_left_rewired leftPool mid leftRoot).mono inside)
    have three := two.trans (right.rewired.mono (by
      intro i member
      simp [member]))
    have four := three.trans ((set_right_rewired rightPool mid rightRoot).mono inside)
    exact four.trans ((update_height_rewired _ mid).mono inside)
  · have leftDepth := left.depth
    have rightDepth : rightPool.maxDepth ≤ max leftPool.maxDepth rightBound := right.depth
    change rightPool.maxDepth ≤ _
    omega

theorem Replaced.note_depth {s s' : AvlTree} {touched : List Nat} {tree : BinaryTree Nat}
    {root depth bound : Nat} (replaced : Replaced (s.noteDepth depth) s' touched tree root bound)
    (low : depth ≤ bound) : Replaced s s' touched tree root bound where
  root := replaced.root
  holds := replaced.holds
  rewired := (note_depth_rewired s depth).trans replaced.rewired
  depth := by
    have noted := replaced.depth
    rw [note_depth_max] at noted
    omega

theorem link_balanced_holds (fuel depth low count : Nat) (enough : count < fuel)
    (real : low + count ≤ treeNil) (shallow : depth + count.size < 256) (small : count.size < 100) :
    ∃ t' root, linkBalanced fuel t low ((low : Int) + count - 1) depth = some (t', root) ∧
      Replaced t t' (inorder (evenTree fuel low count)) (evenTree fuel low count) root
        (depth + count.size) := by
  induction fuel generalizing t depth low count with
  | zero => exact absurd enough (Nat.not_lt_zero _)
  | succ fuel ih =>
      by_cases none_ : count = 0
      · unfold linkBalanced evenTree
        rw [if_pos (by omega), if_pos none_]
        exact ⟨t, treeNil, rfl, rfl, trivial, Rewired.refl t _, le_max_left _ _⟩
      · have size := size_half none_
        have smaller : ((count - 1) / 2).size ≤ (count - 1 - (count - 1) / 2).size :=
          Nat.size_le_size (by omega)
        have tall := @evenTree_height (fuel + 1) low count (by omega)
        have nodup : (inorder (evenTree (fuel + 1) low count)).Nodup := by
          rw [inorder_evenTree (by omega)]
          exact List.nodup_range'
        have middle : (low : Int) + (low + count - 1 - low) / 2 =
            ((low + (count - 1) / 2 : Nat) : Int) := by omega
        unfold linkBalanced
        unfold evenTree at tall nodup ⊢
        rw [if_neg (by omega), middle, uint8_small (by omega)]
        rw [if_neg none_] at tall nodup ⊢
        dsimp only
        obtain ⟨first, firstEq⟩ : ∃ first, first = (count - 1) / 2 := ⟨_, rfl⟩
        rw [← firstEq] at size smaller tall nodup ⊢
        obtain ⟨second, secondEq⟩ : ∃ second, second = count - 1 - first := ⟨_, rfl⟩
        rw [← secondEq] at size smaller tall nodup ⊢
        obtain ⟨leftPool, leftRoot, leftRun, left⟩ := @ih (t.noteDepth depth) (depth + 1) low first
          (by omega) (by omega) (by omega) (by omega)
        obtain ⟨rightPool, rightRoot, rightRun, right⟩ := @ih
          (leftPool.setLeft (low + first) leftRoot) (depth + 1) (low + first + 1) second
          (by omega) (by omega) (by omega) (by omega)
        obtain ⟨mid, midEq⟩ : ∃ mid, mid = low + first := ⟨_, rfl⟩
        rw [← midEq] at right rightRun tall nodup ⊢
        have leftEnd : (mid : Int) - 1 = low + first - 1 := by omega
        have rightEnd : (low : Int) + count - 1 = (mid + 1 : Nat) + second - 1 := by omega
        have rightStart : (mid : Int) + 1 = (mid + 1 : Nat) := by omega
        rw [leftEnd, leftRun, Option.bind_some, Int.toNat_natCast, rightEnd, rightStart, rightRun,
          Option.map_some]
        have joined := left.link_middle right (by omega : mid ≠ treeNil) nodup
          (by rw [tall]; omega) (by omega : _ ≤ depth + count.size) (by omega)
        exact ⟨_, _, rfl, joined.note_depth (by omega)⟩

end Linking

section Freeing

variable {t : AvlTree}

theorem free_from_chained (n rest : Nat) (free : List Nat) (freeHead : t.freeHead = headIndex free)
    (chained : Chained t.n free) (behind : ∀ i ∈ free, n + rest ≤ i) :
    (freeFrom n (n + rest) t).freeHead = headIndex (List.range' n rest ++ free) ∧
      Chained (freeFrom n (n + rest) t).n (List.range' n rest ++ free) ∧
      (∀ i < n, (freeFrom n (n + rest) t).n i = t.n i) ∧
      (∀ i, ((freeFrom n (n + rest) t).n i).entry = (t.n i).entry) ∧
      (freeFrom n (n + rest) t).root = t.root ∧ (freeFrom n (n + rest) t).count = t.count ∧
      (freeFrom n (n + rest) t).maxDepth = t.maxDepth := by
  induction rest generalizing t free with
  | zero =>
      have same : freeFrom n (n + 0) t = t := by
        rw [Nat.add_zero]
        cases n with
        | zero => rfl
        | succ n => rw [freeFrom, if_pos (Nat.lt_succ_self n)]
      rw [same]
      exact ⟨freeHead, chained, fun _ _ => rfl, fun _ => rfl, rfl, rfl, rfl⟩
  | succ rest ih =>
      have step : freeFrom n (n + (rest + 1)) t = freeFrom n (n + rest) (t.nodeFree (n + rest)) := by
        rw [← Nat.add_assoc, freeFrom, if_neg (by omega)]
      have pushed : Chained (t.nodeFree (n + rest)).n ((n + rest) :: free) := by
        constructor
        · rw [node_free_same]
          exact freeHead
        · exact chained.frame fun i member => node_free_other t fun same => by
            have far := behind i member
            omega
      have ends : List.range' n (rest + 1) ++ free = List.range' n rest ++ (n + rest) :: free := by
        rw [List.range'_1_concat, List.append_assoc]
        rfl
      obtain ⟨head, links, before, entry, root, count, depth⟩ := @ih (t.nodeFree (n + rest))
        ((n + rest) :: free) rfl pushed fun i member => by
          rcases List.mem_cons.mp member with here | member
          · omega
          · have far := behind i member
            omega
      rw [step, ends]
      refine ⟨head, links, ?_, ?_, root, count, depth⟩
      · intro i low
        rw [before i low, node_free_other t (by omega)]
      · intro i
        rw [entry i]
        by_cases same : i = n + rest
        · rw [same, node_free_same]
          rfl
        · rw [node_free_other t same]

theorem init_chained (capacity low count : Nat) (whole : low + count = capacity) :
    Chained (t.avlInit capacity).n (List.range' low count) := by
  induction count generalizing low with
  | zero => trivial
  | succ count ih =>
      refine ⟨?_, ih (low + 1) (by omega)⟩
      cases count with
      | zero =>
          change (if low + 1 = capacity then _ else _ : AvlNode).left = treeNil
          rw [if_pos (by omega)]
      | succ count =>
          change (if low + 1 = capacity then _ else _ : AvlNode).left = low + 1
          rw [if_neg (by omega), if_pos (by omega)]

/-- `avl_init` leaves an empty tree, whatever the pool held before. -/
theorem init_pool {capacity : Nat} (fits : FitsPool capacity) :
    Pool capacity (t.avlInit capacity) .nil (List.range capacity) where
  root := rfl
  holds := trivial
  balanced := trivial
  freeHead := by
    obtain ⟨rest, capacityEq⟩ := Nat.exists_eq_succ_of_ne_zero fits.positive.ne'
    rw [capacityEq, List.range_eq_range', List.range'_succ]
    rfl
  chained := by
    rw [List.range_eq_range']
    exact init_chained capacity 0 capacity (Nat.zero_add _)
  whole := List.Perm.refl _
  count := rfl

end Freeing

section Rebuild

variable {P K : Type} [LinearOrder K] {tiebreak : P → Nat → Nat → Int} {nameRank : Nat → K}
  {probeRank : P → K} {capacity : Nat} {t : AvlTree}

theorem nodes_cmp_rank (breaks : BreaksTies tiebreak nameRank probeRank) (probe : P)
    {first second : AvlNode} (firstReal : first.entry.contactIndex ≠ niProbeSector)
    (secondReal : second.entry.contactIndex ≠ niProbeSector) :
    nodesCmp (tiebreak probe) first second < 0 ↔
      first.entry.rank nameRank < second.entry.rank nameRank :=
  (ni_cmp_sign breaks probe first.key second.key firstReal secondReal).1

def frontEntries (t : AvlTree) (count : Nat) : List SortedEntry :=
  (List.range count).map fun i => (t.n i).entry

theorem sort_nodes_entries (breaks : BreaksTies tiebreak nameRank probeRank) (probe : P)
    (real : ∀ i < t.count, (t.n i).entry.contactIndex ≠ niProbeSector) :
    ((t.sortNodes (tiebreak probe)).frontEntries t.count).Perm (t.frontEntries t.count) ∧
      ((t.sortNodes (tiebreak probe)).frontEntries t.count).Pairwise fun low high =>
        low.rank nameRank ≤ high.rank nameRank := by
  have agrees : ∀ first ∈ (List.range t.count).map t.n, ∀ second ∈ (List.range t.count).map t.n,
      nodesCmp (tiebreak probe) first second < 0 ↔
        first.entry.rank nameRank < second.entry.rank nameRank := by
    intro first firstIn second secondIn
    obtain ⟨i, iIn, rfl⟩ := List.mem_map.mp firstIn
    obtain ⟨j, jIn, rfl⟩ := List.mem_map.mp secondIn
    exact nodes_cmp_rank breaks probe (real i (List.mem_range.mp iIn))
      (real j (List.mem_range.mp jIn))
  obtain ⟨perm, sorted⟩ := @Heapsort.sortedBy_spec AvlNode _ _ (fun node => node.entry.rank nameRank)
    _ _ agrees
  obtain ⟨nodes, nodesEq⟩ : ∃ nodes, nodes =
    Heapsort.sortedBy (nodesCmp (tiebreak probe)) ((List.range t.count).map t.n) := ⟨_, rfl⟩
  rw [← nodesEq] at perm sorted
  have length : nodes.length = t.count := by
    rw [perm.length_eq, List.length_map, List.length_range]
  have same : (t.sortNodes (tiebreak probe)).frontEntries t.count = nodes.map AvlNode.entry := by
    apply List.ext_getElem
    · simp [frontEntries, length]
    · intro i inside _
      have low : i < nodes.length := by simpa [frontEntries, length] using inside
      simp [frontEntries, sortNodes, ← nodesEq, low]
  have before : t.frontEntries t.count = ((List.range t.count).map t.n).map AvlNode.entry := by
    rw [frontEntries, List.map_map]
    rfl
  rw [same, before]
  exact ⟨perm.map _, List.pairwise_map.mpr sorted⟩

theorem rebuild_finish_pool (fits : FitsPool capacity) (compare : Nat → Nat → Int)
    (room : t.count ≤ capacity) :
    ∃ t', t.avlRebuildFinish capacity compare = some t' ∧
      Pool capacity t' (evenTree (t.count + 1) 0 t.count)
        (List.range' t.count (capacity - t.count)) ∧
      t'.entriesOf (evenTree (t.count + 1) 0 t.count) =
        (t.sortNodes compare).frontEntries t.count ∧
      t'.maxDepth ≤ max t.maxDepth 23 := by
  have narrow := fits.narrow
  unfold niProbeSector at narrow
  have size : t.count.size ≤ 16 := Nat.size_le.mpr (by omega)
  obtain ⟨linked, root, run, replaced⟩ := @link_balanced_holds (t.sortNodes compare) (t.count + 1) 1
    0 t.count (Nat.lt_succ_self _) (by unfold treeNil; omega) (by omega) (by omega)
  have order := @inorder_evenTree (t.count + 1) 0 t.count (by omega)
  have whole : t.count + (capacity - t.count) = capacity := by omega
  obtain ⟨head, chained, before, entry, rootKept, countKept, depthKept⟩ := @free_from_chained
    { linked with root, freeHead := treeNil } t.count (capacity - t.count) [] rfl trivial
    fun _ member => absurd member List.not_mem_nil
  rw [whole] at head chained before entry rootKept countKept depthKept
  rw [List.append_nil] at head chained
  unfold avlRebuildFinish
  rw [Nat.cast_zero, zero_add] at run
  dsimp only
  rw [run, Option.map_some]
  refine ⟨_, rfl, ?_, ?_, ?_⟩
  · constructor
    · rw [rootKept]
      exact replaced.root
    · apply replaced.holds.frame
      intro i member
      rw [order] at member
      exact before i (by simpa using (List.mem_range'_1.mp member).2)
    · exact evenTree_balanced (by omega)
    · exact head
    · exact chained
    · have joined := @List.range'_append 0 t.count (capacity - t.count) 1
      rw [Nat.one_mul, whole, Nat.zero_add] at joined
      rw [order, joined, List.range_eq_range']
    · rw [countKept, ← inorder_length, order, List.length_range']
      exact replaced.rewired.count
  · rw [entriesOf, order, frontEntries, List.range_eq_range']
    apply List.map_congr_left
    intro i _
    rw [entry i]
    exact replaced.rewired.entry i
  · rw [depthKept]
    exact replaced.depth.trans (max_le_max le_rfl (by omega))

theorem rebuild_pool (fits : FitsPool capacity) (breaks : BreaksTies tiebreak nameRank probeRank)
    (probe : P) {contacts : List (List Byte × Nat)} (room : contacts.length ≤ capacity)
    (real : ∀ contact ∈ contacts, contact.2 ≠ niProbeSector) :
    ∃ t', t.avlRebuild capacity (tiebreak probe) contacts = some (true, t') ∧
      Pool capacity t' (evenTree (contacts.length + 1) 0 contacts.length)
        (List.range' contacts.length (capacity - contacts.length)) ∧
      t'.entriesOf (evenTree (contacts.length + 1) 0 contacts.length) =
        sortedContacts nameRank contacts ∧
      t'.maxDepth ≤ max t.maxDepth 23 := by
  have narrow := fits.narrow
  unfold niProbeSector at narrow
  obtain ⟨count, depth, _, added⟩ := rebuild_adds_pool contacts t.avlRebuildBegin
    (by simpa [avlRebuildBegin] using room) (by omega)
  obtain ⟨filled, filledEq⟩ : ∃ filled, filled = t.avlRebuildBegin.rebuildAdds capacity contacts :=
    ⟨_, rfl⟩
  rw [← filledEq] at count depth added
  change filled.count = 0 + contacts.length at count
  change ∀ index, (inside : index < contacts.length) → (filled.n (0 + index)).entry = _ at added
  rw [Nat.zero_add] at count
  have entries : filled.frontEntries filled.count =
      contacts.map fun contact => newEntry (niMakeKey contact.1) contact.2 := by
    apply List.ext_getElem
    · simp [frontEntries, count]
    · intro i _ inside
      have low : i < contacts.length := by simpa using inside
      have here := added i low
      rw [Nat.zero_add] at here
      simp [frontEntries, here]
  have reals : ∀ i < filled.count, (filled.n i).entry.contactIndex ≠ niProbeSector := by
    intro i low
    have member : (filled.n i).entry ∈ filled.frontEntries filled.count :=
      List.mem_map_of_mem (List.mem_range.mpr low)
    rw [entries] at member
    obtain ⟨contact, inside, same⟩ := List.mem_map.mp member
    rw [← same]
    exact real contact inside
  obtain ⟨perm, sorted⟩ := sort_nodes_entries breaks probe reals
  obtain ⟨t', run, pool, shown, deep⟩ := rebuild_finish_pool fits (tiebreak probe)
    (count ▸ room : filled.count ≤ capacity)
  rw [entries] at perm
  have final := contacts_unique perm (sorted_contacts_perm contacts) sorted
    (sorted_contacts_sorted contacts)
  unfold avlRebuild
  dsimp only
  rw [if_neg (by omega), ← filledEq, run, Option.map_some, ← count]
  refine ⟨t', rfl, pool, shown.trans final, ?_⟩
  rw [depth] at deep
  exact deep

end Rebuild

end AvlTree

end SdDatabase
