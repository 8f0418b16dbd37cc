import SdDatabase.AvlPool

/-!
# Insertion and removal in the node pool

The recursions of the pool return the roots of the trees that the operations on
trees give. Their depth is bounded by the height of the tree, so they have a
result, and they touch no node outside the tree.
-/

namespace SdDatabase

open BinaryTree BalancedTree

set_option autoImplicit false

namespace AvlTree

/-- From one pool to another: a subtree, its root and the depth of the recursion. -/
structure Replaced (s t : AvlTree) (touched : List Nat) (tree : BinaryTree Nat) (root bound : Nat) :
    Prop where
  root : root = rootIndex tree
  holds : Holds t.n tree
  rewired : Rewired s t touched
  depth : t.maxDepth ≤ max s.maxDepth bound

section Climbing

variable {s t : AvlTree} {touched whole : List Nat} {i child bound : Nat}
  {grown left right tree : BinaryTree Nat}

theorem Replaced.deeper {higher : Nat} (replaced : Replaced s t touched tree child bound)
    (more : bound ≤ higher) : Replaced s t touched tree child higher :=
  { replaced with depth := replaced.depth.trans (max_le_max le_rfl more) }

theorem replaced_rebalance (linked : Linked t.n i left right) (rewired : Rewired s t whole)
    (depth : t.maxDepth ≤ max s.maxDepth bound) (nodup : (inorder (.node i left right)).Nodup)
    (small : max left.height right.height < 126) (covers : inorder (.node i left right) ⊆ whole) :
    Replaced s (t.rebalance i).1 whole (BalancedTree.rebalance (.node i left right))
      (t.rebalance i).2 bound := by
  obtain ⟨root, holds, turned⟩ := rebalance_holds linked nodup small
  constructor
  · exact root
  · exact holds
  · exact rewired.trans (turned.mono covers)
  · rw [rebalance_maxDepth]
    exact depth

theorem Replaced.climb_left (replaced : Replaced s t touched grown child bound)
    (real : i ≠ treeNil) (toRight : (s.n i).right = rootIndex right) (inRight : Holds s.n right)
    (outside : i ∉ touched) (apart : ∀ j ∈ inorder right, j ∉ touched)
    (nodup : (inorder (.node i grown right)).Nodup) (small : max grown.height right.height < 126)
    (inside : touched ⊆ whole) (covers : inorder (.node i grown right) ⊆ whole) :
    Replaced s ((t.setLeft i child).rebalance i).1 whole
      (BalancedTree.rebalance (.node i grown right)) ((t.setLeft i child).rebalance i).2 bound := by
  obtain ⟨_, _, outGrown, outRight, _⟩ := node_apart nodup
  have kept : (t.n i).right = rootIndex right := by
    rw [replaced.rewired.others i outside, toRight]
  have linked := set_left_linked real kept (replaced.rewired.frame inRight apart) replaced.holds
    outGrown outRight
  rw [← replaced.root] at linked
  have set := (set_left_rewired t i child).mono
    (fun j member => covers (by rw [List.mem_singleton.mp member]; simp) : [i] ⊆ whole)
  exact replaced_rebalance linked ((replaced.rewired.mono inside).trans set) replaced.depth nodup
    small covers

theorem Replaced.climb_right (replaced : Replaced s t touched grown child bound)
    (real : i ≠ treeNil) (toLeft : (s.n i).left = rootIndex left) (inLeft : Holds s.n left)
    (outside : i ∉ touched) (apart : ∀ j ∈ inorder left, j ∉ touched)
    (nodup : (inorder (.node i left grown)).Nodup) (small : max left.height grown.height < 126)
    (inside : touched ⊆ whole) (covers : inorder (.node i left grown) ⊆ whole) :
    Replaced s ((t.setRight i child).rebalance i).1 whole
      (BalancedTree.rebalance (.node i left grown)) ((t.setRight i child).rebalance i).2 bound := by
  obtain ⟨_, _, outLeft, outGrown, _⟩ := node_apart nodup
  have kept : (t.n i).left = rootIndex left := by
    rw [replaced.rewired.others i outside, toLeft]
  have linked := set_right_linked real kept (replaced.rewired.frame inLeft apart) replaced.holds
    outGrown outLeft
  rw [← replaced.root] at linked
  have set := (set_right_rewired t i child).mono
    (fun j member => covers (by rw [List.mem_singleton.mp member]; simp) : [i] ⊆ whole)
  exact replaced_rebalance linked ((replaced.rewired.mono inside).trans set) replaced.depth nodup
    small covers

end Climbing

section Insertion

variable {tiebreak : Nat → Nat → Int} {t : AvlTree} {fresh : Nat} {tree : BinaryTree Nat}

/-- The order of the search for a key and a sector among the nodes. -/
def placeOrder (t : AvlTree) (tiebreak : Nat → Nat → Int) (key : Fin 8 → Bytes.Byte)
    (sector : Nat) : Nat → Int :=
  fun i => t.nodeCmp tiebreak key sector i

theorem uint8_small {value : Nat} (small : value < 256) : uint8 value = value :=
  Nat.mod_eq_of_lt small

/-- A node that is ready to become a leaf. -/
structure Detached (n : Nat → AvlNode) (fresh : Nat) : Prop where
  real : fresh ≠ treeNil
  left : (n fresh).left = treeNil
  right : (n fresh).right = treeNil
  height : (n fresh).height = 1

theorem Detached.holds {n : Nat → AvlNode} (detached : Detached n fresh) :
    Holds n (.node fresh .nil .nil) :=
  ⟨detached.real, detached.left, detached.right, detached.height, trivial, trivial⟩

theorem insert_nodup {order : Nat → Int} (balanced : Balanced tree)
    (nodup : (inorder tree).Nodup) (new : fresh ∉ inorder tree) :
    (inorder (BalancedTree.insert order fresh tree)).Nodup ∧
      inorder (BalancedTree.insert order fresh tree) ⊆ fresh :: inorder tree := by
  cases there : search order tree with
  | some found =>
      rw [insert_found balanced there]
      exact ⟨nodup, List.subset_cons_self _ _⟩
  | none =>
      have perm := @inorder_insert_perm _ order tree fresh there
      exact ⟨perm.nodup_iff.mpr (List.nodup_cons.mpr ⟨new, nodup⟩), perm.subset⟩

theorem insert_rec_holds (fuel depth : Nat) (holds : Holds t.n tree) (nodup : (inorder tree).Nodup)
    (new : fresh ∉ inorder tree) (detached : Detached t.n fresh) (balanced : Balanced tree)
    (small : tree.height < 100) (enough : tree.height < fuel) (shallow : depth + tree.height < 256) :
    ∃ t' root, insertRec tiebreak fresh fuel t (rootIndex tree) depth =
        some (t', root, (search (t.placeOrder tiebreak (t.n fresh).key (t.n fresh).contactIndex)
          tree).isNone) ∧
      Replaced t t' (fresh :: inorder tree)
        (BalancedTree.insert (t.placeOrder tiebreak (t.n fresh).key (t.n fresh).contactIndex)
          fresh tree) root (depth + tree.height) := by
  obtain ⟨order, orderEq⟩ : ∃ order, order = t.placeOrder tiebreak (t.n fresh).key
    (t.n fresh).contactIndex := ⟨_, rfl⟩
  rw [← orderEq]
  induction tree generalizing fuel depth with
  | nil =>
      obtain ⟨fuel, rfl⟩ := Nat.exists_eq_succ_of_ne_zero (Nat.ne_zero_of_lt enough)
      refine ⟨t.noteDepth depth, fresh, rfl, rfl, ?_, note_depth_rewired t depth, ?_⟩
      · rw [note_depth_n]
        exact detached.holds
      · rw [note_depth_max]
        exact le_rfl
  | node i left right leftIh rightIh =>
      obtain ⟨fuel, rfl⟩ := Nat.exists_eq_succ_of_ne_zero (Nat.ne_zero_of_lt enough)
      obtain ⟨leftNodup, rightNodup, outLeft, outRight, apart⟩ := node_apart nodup
      obtain ⟨leftBalanced, rightBalanced, _, _⟩ := id balanced
      have links := holds.linked
      have newLeft : fresh ∉ inorder left := fun member => new (by simp [member])
      have newRight : fresh ∉ inorder right := fun member => new (by simp [member])
      have different : i ≠ fresh := fun same => new (by simp [same])
      have value : t.nodeCmp tiebreak (t.n fresh).key (t.n fresh).contactIndex i = order i := by
        rw [orderEq]
        rfl
      obtain ⟨grownNodup, covers⟩ := @insert_nodup _ _ order balanced nodup new
      simp only [height] at small enough shallow
      unfold insertRec
      simp only [root_index_node, if_neg links.real, value, BalancedTree.insert, search]
      by_cases equal : order i = 0
      · simp only [if_pos equal]
        refine ⟨t.noteDepth depth, i, rfl, rfl, ?_, note_depth_rewired t depth, ?_⟩
        · rw [note_depth_n]
          exact holds
        · rw [note_depth_max]
          exact max_le_max le_rfl (Nat.le_add_right _ _)
      · simp only [if_neg equal]
        by_cases smaller : order i < 0
        · obtain ⟨t', child, run, replaced⟩ := leftIh fuel (depth + 1) links.left leftNodup newLeft
            leftBalanced (by omega) (by omega) (by omega)
          obtain ⟨_, _, grown⟩ := insert_balanced order fresh leftBalanced
          simp only [BalancedTree.insert, if_neg equal, if_pos smaller, inorder_rebalance]
            at grownNodup covers
          have outside : i ∉ fresh :: inorder left := by simp [different, outLeft]
          have others : ∀ j ∈ inorder right, j ∉ fresh :: inorder left := by
            intro j member
            rw [List.mem_cons, not_or]
            exact ⟨fun same => newRight (same ▸ member), fun inLeft => apart j inLeft member⟩
          have inside : fresh :: inorder left ⊆ fresh :: inorder (.node i left right) :=
            List.cons_subset_cons _ (List.subset_append_left _ _)
          have climbed := replaced.climb_left links.real links.toRight links.right outside others
            grownNodup (by omega) inside covers
          rw [if_pos smaller, uint8_small (by omega), links.toLeft, run]
          simp only [if_pos smaller, Option.map_some, height]
          exact ⟨_, _, rfl, climbed.deeper (by omega)⟩
        · obtain ⟨t', child, run, replaced⟩ := rightIh fuel (depth + 1) links.right rightNodup
            newRight rightBalanced (by omega) (by omega) (by omega)
          obtain ⟨_, _, grown⟩ := insert_balanced order fresh rightBalanced
          simp only [BalancedTree.insert, if_neg equal, if_neg smaller, inorder_rebalance]
            at grownNodup covers
          have outside : i ∉ fresh :: inorder right := by simp [different, outRight]
          have others : ∀ j ∈ inorder left, j ∉ fresh :: inorder right := by
            intro j member
            rw [List.mem_cons, not_or]
            exact ⟨fun same => newLeft (same ▸ member), fun inRight => apart j member inRight⟩
          have inside : fresh :: inorder right ⊆ fresh :: inorder (.node i left right) := by
            apply List.cons_subset_cons
            rw [inorder_node]
            exact List.subset_append_of_subset_right _ (List.subset_cons_self _ _)
          have climbed := replaced.climb_right links.real links.toLeft links.left outside others
            grownNodup (by omega) inside covers
          rw [if_neg smaller, uint8_small (by omega), links.toRight, run]
          simp only [if_neg smaller, Option.map_some, height]
          exact ⟨_, _, rfl, climbed.deeper (by omega)⟩

end Insertion

section Removal

variable {tiebreak : Nat → Nat → Int} {t : AvlTree} {i least : Nat}
  {left right tree rest : BinaryTree Nat}

theorem holds_real {n : Nat → AvlNode} (holds : Holds n tree) :
    ∀ j ∈ inorder tree, j ≠ treeNil := by
  induction tree with
  | nil => exact fun j member => absurd member List.not_mem_nil
  | node i left right leftIh rightIh =>
      intro j member
      rw [inorder_node, List.mem_append, List.mem_cons] at member
      rcases member with inLeft | rfl | inRight
      · exact leftIh holds.linked.left j inLeft
      · exact holds.1
      · exact rightIh holds.linked.right j inRight

theorem remove_min_rec_holds (fuel depth : Nat) (holds : Holds t.n tree)
    (nodup : (inorder tree).Nodup) (balanced : Balanced tree)
    (removed : removeMin tree = some (least, rest)) (small : tree.height < 100)
    (enough : tree.height ≤ fuel) (shallow : depth + tree.height < 256) :
    ∃ t' root, removeMinRec fuel t (rootIndex tree) depth = some (t', root, least) ∧
      Replaced t t' (inorder rest) rest root (depth + tree.height) := by
  induction tree generalizing fuel depth least rest with
  | nil => cases removed
  | node i left right leftIh rightIh =>
      simp only [height] at small enough shallow
      obtain ⟨fuel, rfl⟩ := Nat.exists_eq_succ_of_ne_zero (Nat.ne_zero_of_lt enough)
      obtain ⟨leftNodup, _, outLeft, _, apart⟩ := node_apart nodup
      have links := holds.linked
      have list := (removeMin_some removed).1
      unfold removeMin at removed
      unfold removeMinRec
      simp only [root_index_node, height, links.toLeft, root_index_nil links.left]
      cases inner : removeMin left with
      | none =>
          rw [inner] at removed
          obtain ⟨rfl, rfl⟩ := removed
          rw [if_pos (removeMin_none.mp inner)]
          refine ⟨t.noteDepth depth, (t.n i).right, rfl, links.toRight, ?_,
            note_depth_rewired t depth, ?_⟩
          · rw [note_depth_n]
            exact links.right
          · rw [note_depth_max]
            exact max_le_max le_rfl (Nat.le_add_right _ _)
      | some pair =>
          obtain ⟨first, shrunk⟩ := pair
          rw [inner] at removed
          obtain ⟨rfl, rfl⟩ := removed
          have some_ : left ≠ .nil := fun none_ => by
            rw [removeMin_none.mpr none_] at inner
            cases inner
          obtain ⟨leftList, heights⟩ := removeMin_some inner
          obtain ⟨_, low, high⟩ := heights balanced.1
          obtain ⟨t', child, run, replaced⟩ := leftIh fuel (depth + 1) links.left leftNodup
            balanced.1 inner (by omega) (by omega) (by omega)
          have fewer : inorder shrunk ⊆ inorder left := by
            rw [leftList]
            exact List.subset_cons_self _ _
          rw [inorder_rebalance] at list ⊢
          have restNodup : (inorder (.node i shrunk right)).Nodup := by
            rw [list] at nodup
            exact (List.nodup_cons.mp nodup).2
          have inside : inorder shrunk ⊆ inorder (.node i shrunk right) :=
            List.subset_append_left _ _
          have climbed := replaced.climb_left links.real links.toRight links.right
            (fun member => outLeft (fewer member))
            (fun j member inShrunk => apart j (fewer inShrunk) member) restNodup (by omega) inside
            (List.Subset.refl _)
          rw [if_neg some_, uint8_small (by omega), run]
          exact ⟨_, _, rfl, climbed.deeper (by omega)⟩

theorem set_both_linked (real : i ≠ treeNil) (inLeft : Holds t.n left) (inRight : Holds t.n right)
    (outLeft : i ∉ inorder left) (outRight : i ∉ inorder right) :
    Linked ((t.setLeft i (rootIndex left)).setRight i (rootIndex right)).n i left right := by
  have first := set_left_rewired t i (rootIndex left)
  have second := set_right_rewired (t.setLeft i (rootIndex left)) i (rootIndex right)
  have rewired := first.trans second
  constructor
  · exact real
  · simp [setLeft, setRight]
  · simp [setRight]
  · exact rewired.frame inLeft fun j member here =>
      outLeft (by rwa [List.mem_singleton.mp here] at member)
  · exact rewired.frame inRight fun j member here =>
      outRight (by rwa [List.mem_singleton.mp here] at member)

@[simp] theorem node_free_same (t : AvlTree) (i : Nat) :
    (t.nodeFree i).n i = { t.n i with left := t.freeHead } := by
  simp [nodeFree, setLeft]

theorem node_free_other (t : AvlTree) {i j : Nat} (different : j ≠ i) :
    (t.nodeFree i).n j = t.n j := by
  simp [nodeFree, setLeft, set_node_other, different]

theorem node_free_frame (holds : Holds t.n tree) (outside : i ∉ inorder tree) :
    Holds (t.nodeFree i).n tree :=
  holds.frame fun _ member => node_free_other t fun same => outside (same ▸ member)

theorem remove_node_holds (fuel depth : Nat) (holds : Holds t.n (.node i left right))
    (nodup : (inorder (.node i left right)).Nodup) (balanced : Balanced (.node i left right))
    (small : (BinaryTree.node i left right).height < 100)
    (enough : (BinaryTree.node i left right).height ≤ fuel + 1)
    (shallow : depth + (BinaryTree.node i left right).height < 256) :
    ∃ t' root, removeNode fuel t i depth = some (t', root) ∧
      Replaced (t.nodeFree i) t' (inorder (join left right)) (join left right) root
        (depth + (BinaryTree.node i left right).height) := by
  simp only [height] at small enough shallow
  obtain ⟨leftNodup, rightNodup, outLeft, outRight, apart⟩ := node_apart nodup
  have links := holds.linked
  have inLeft := node_free_frame links.left outLeft
  have inRight := node_free_frame links.right outRight
  have noted : ((t.nodeFree i).noteDepth depth).maxDepth ≤
      max (t.nodeFree i).maxDepth (depth + (BinaryTree.node i left right).height) := by
    rw [note_depth_max]
    exact max_le_max le_rfl (Nat.le_add_right _ _)
  unfold removeNode
  simp only [links.toLeft, links.toRight, root_index_nil links.left, root_index_nil links.right]
  cases left with
  | nil =>
      refine ⟨_, _, rfl, rfl, ?_, note_depth_rewired _ _, noted⟩
      rw [note_depth_n]
      exact inRight
  | node x a b =>
      rw [if_neg (by simp)]
      unfold join
      dsimp only
      cases removed : removeMin right with
      | none =>
          rw [if_pos (removeMin_none.mp removed)]
          refine ⟨_, _, rfl, rfl, ?_, note_depth_rewired _ _, noted⟩
          rw [note_depth_n]
          exact inLeft
      | some pair =>
          obtain ⟨least, rest⟩ := pair
          have some_ : right ≠ .nil := fun none_ => by
            rw [removeMin_none.mpr none_] at removed
            cases removed
          obtain ⟨list, heights⟩ := removeMin_some removed
          obtain ⟨_, low, high⟩ := heights balanced.2.1
          obtain ⟨t', child, run, replaced⟩ := remove_min_rec_holds fuel (depth + 1) inRight
            rightNodup balanced.2.1 removed (by omega) (by omega) (by omega)
          have inList : least ∈ inorder right := by simp [list]
          have restIn : ∀ j ∈ inorder rest, j ∈ inorder right := fun j member => by
            simp [list, member]
          rw [list] at rightNodup
          obtain ⟨outRest, restNodup⟩ := List.nodup_cons.mp rightNodup
          have leftKept : Holds t'.n (.node x a b) :=
            replaced.rewired.frame inLeft fun j member inRest => apart j member (restIn j inRest)
          have linked := set_both_linked (holds_real links.right least inList) leftKept
            replaced.holds (fun member => apart least member inList) outRest
          rw [← replaced.root] at linked
          have joinNodup : (inorder (.node least (.node x a b) rest)).Nodup := by
            rw [inorder_node, ← list]
            rw [inorder_node] at nodup
            exact nodup.sublist ((List.sublist_cons_self _ _).append_left _)
          have inside : inorder rest ⊆ inorder (.node least (.node x a b) rest) := by
            rw [inorder_node least]
            exact List.subset_append_of_subset_right _ (List.subset_cons_self _ _)
          have here : [least] ⊆ inorder (.node least (.node x a b) rest) := by simp
          have first := (set_left_rewired t' least (rootIndex (.node x a b))).mono here
          have second := (set_right_rewired (t'.setLeft least (rootIndex (.node x a b))) least
            child).mono here
          have joined := replaced_rebalance linked
            (((replaced.rewired.mono inside).trans first).trans second) replaced.depth joinNodup
            (by omega) (List.Subset.refl _)
          rw [if_neg some_, uint8_small (by omega), run, inorder_rebalance]
          exact ⟨_, _, rfl, joined.deeper (by simp only [height]; omega)⟩

/-- The pool once the node that a search found is given back. -/
def freed (t : AvlTree) (found : Option Nat) : AvlTree :=
  found.elim t t.nodeFree

theorem freed_other (t : AvlTree) {found : Option Nat} {j : Nat} (different : found ≠ some j) :
    (t.freed found).n j = t.n j := by
  cases found with
  | none => rfl
  | some i => exact node_free_other t fun same => different (same ▸ rfl)

theorem search_mem {order : Nat → Int} {found : Nat} (there : search order tree = some found) :
    found ∈ inorder tree :=
  (inorder_remove_perm there).mem_iff.mpr List.mem_cons_self

theorem remove_nodup {order : Nat → Int} (balanced : Balanced tree)
    (nodup : (inorder tree).Nodup) :
    (inorder (BalancedTree.remove order tree)).Nodup ∧
      inorder (BalancedTree.remove order tree) ⊆ inorder tree := by
  cases there : search order tree with
  | none =>
      rw [remove_absent balanced there]
      exact ⟨nodup, List.Subset.refl _⟩
  | some found =>
      have perm := inorder_remove_perm there
      exact ⟨(List.nodup_cons.mp (perm.nodup_iff.mp nodup)).2,
        fun j member => perm.mem_iff.mpr (List.mem_cons_of_mem _ member)⟩

theorem remove_rec_holds {key : Fin 8 → Bytes.Byte} {sector : Nat} (fuel depth : Nat)
    (holds : Holds t.n tree) (nodup : (inorder tree).Nodup) (balanced : Balanced tree)
    (small : tree.height < 100) (enough : tree.height < fuel)
    (shallow : depth + tree.height < 256) :
    ∃ t' root, removeRec tiebreak key sector fuel t (rootIndex tree) depth =
        some (t', root, (search (t.placeOrder tiebreak key sector) tree).isSome) ∧
      Replaced (t.freed (search (t.placeOrder tiebreak key sector) tree)) t'
        (inorder (BalancedTree.remove (t.placeOrder tiebreak key sector) tree))
        (BalancedTree.remove (t.placeOrder tiebreak key sector) tree) root
        (depth + tree.height) := by
  obtain ⟨order, orderEq⟩ : ∃ order, order = t.placeOrder tiebreak key sector := ⟨_, rfl⟩
  rw [← orderEq]
  induction tree generalizing fuel depth with
  | nil =>
      obtain ⟨fuel, rfl⟩ := Nat.exists_eq_succ_of_ne_zero (Nat.ne_zero_of_lt enough)
      refine ⟨t.noteDepth depth, treeNil, rfl, rfl, trivial, note_depth_rewired t depth, ?_⟩
      rw [note_depth_max]
      exact le_rfl
  | node i left right leftIh rightIh =>
      obtain ⟨fuel, rfl⟩ := Nat.exists_eq_succ_of_ne_zero (Nat.ne_zero_of_lt enough)
      obtain ⟨leftNodup, rightNodup, outLeft, outRight, apart⟩ := node_apart nodup
      have links := holds.linked
      have value : t.nodeCmp tiebreak key sector i = order i := by
        rw [orderEq]
        rfl
      obtain ⟨shrunkNodup, _⟩ := @remove_nodup _ order balanced nodup
      unfold removeRec
      simp only [root_index_node, if_neg links.real, value, search]
      by_cases smaller : order i < 0
      · simp only [height] at small enough shallow
        obtain ⟨t', child, run, replaced⟩ := leftIh fuel (depth + 1) links.left leftNodup
          balanced.1 (by omega) (by omega) (by omega)
        obtain ⟨_, low, _⟩ := remove_balanced order balanced.1
        obtain ⟨_, fewer⟩ := @remove_nodup _ order balanced.1 leftNodup
        have notHere : search order left ≠ some i := fun there => outLeft (search_mem there)
        have toRight : ((t.freed (search order left)).n i).right = rootIndex right := by
          rw [freed_other t notHere, links.toRight]
        have inRight : Holds (t.freed (search order left)).n right :=
          links.right.frame fun j member => freed_other t fun there =>
            apart j (search_mem there) member
        simp only [BalancedTree.remove, if_pos smaller, inorder_rebalance] at shrunkNodup ⊢
        have climbed := replaced.climb_left links.real toRight inRight
          (fun member => outLeft (fewer member))
          (fun j member inShrunk => apart j (fewer inShrunk) member) shrunkNodup (by omega)
          (List.subset_append_left _ _) (List.Subset.refl _)
        rw [if_neg smaller.ne, uint8_small (by omega), links.toLeft, run]
        exact ⟨_, _, rfl, climbed.deeper (by simp only [height]; omega)⟩
      · by_cases larger : 0 < order i
        · simp only [height] at small enough shallow
          obtain ⟨t', child, run, replaced⟩ := rightIh fuel (depth + 1) links.right rightNodup
            balanced.2.1 (by omega) (by omega) (by omega)
          obtain ⟨_, low, _⟩ := remove_balanced order balanced.2.1
          obtain ⟨_, fewer⟩ := @remove_nodup _ order balanced.2.1 rightNodup
          have notHere : search order right ≠ some i := fun there => outRight (search_mem there)
          have toLeft : ((t.freed (search order right)).n i).left = rootIndex left := by
            rw [freed_other t notHere, links.toLeft]
          have inLeft : Holds (t.freed (search order right)).n left :=
            links.left.frame fun j member => freed_other t fun there =>
              apart j member (search_mem there)
          simp only [BalancedTree.remove, if_neg smaller, if_pos larger, inorder_rebalance]
            at shrunkNodup ⊢
          have inside : inorder (BalancedTree.remove order right) ⊆
              inorder (.node i left (BalancedTree.remove order right)) := by
            rw [inorder_node]
            exact List.subset_append_of_subset_right _ (List.subset_cons_self _ _)
          have climbed := replaced.climb_right links.real toLeft inLeft
            (fun member => outRight (fewer member))
            (fun j member inShrunk => apart j member (fewer inShrunk)) shrunkNodup (by omega)
            inside (List.Subset.refl _)
          rw [if_neg larger.ne', uint8_small (by omega), links.toRight, run]
          exact ⟨_, _, rfl, climbed.deeper (by simp only [height]; omega)⟩
        · obtain ⟨t', root, run, replaced⟩ := remove_node_holds fuel depth holds nodup balanced
            small (by omega) shallow
          simp only [BalancedTree.remove, if_neg smaller, if_neg larger]
          rw [if_pos (by omega), run]
          exact ⟨t', root, rfl, replaced⟩

end Removal

section Lookups

variable {tiebreak : Nat → Nat → Int} {t : AvlTree} {tree : BinaryTree Nat}

theorem find_exact_holds {key : Fin 8 → Bytes.Byte} {sector : Nat} (fuel : Nat)
    (holds : Holds t.n tree) (enough : tree.height < fuel) :
    t.findExactFrom tiebreak key sector fuel (rootIndex tree) =
      some ((search (t.placeOrder tiebreak key sector) tree).getD treeNil) := by
  induction tree generalizing fuel with
  | nil =>
      obtain ⟨fuel, rfl⟩ := Nat.exists_eq_succ_of_ne_zero (Nat.ne_zero_of_lt enough)
      rfl
  | node i left right leftIh rightIh =>
      obtain ⟨fuel, rfl⟩ := Nat.exists_eq_succ_of_ne_zero (Nat.ne_zero_of_lt enough)
      have links := holds.linked
      have value : t.nodeCmp tiebreak key sector i = t.placeOrder tiebreak key sector i := rfl
      simp only [height] at enough
      unfold findExactFrom
      simp only [root_index_node, if_neg links.real, value, search]
      by_cases equal : t.placeOrder tiebreak key sector i = 0
      · rw [if_pos equal, if_pos equal]
        rfl
      · rw [if_neg equal, if_neg equal]
        by_cases smaller : t.placeOrder tiebreak key sector i < 0
        · rw [if_pos smaller, if_pos smaller, links.toLeft]
          exact leftIh fuel links.left (by omega)
        · rw [if_neg smaller, if_neg smaller, links.toRight]
          exact rightIh fuel links.right (by omega)

/-- The comparison of a node with the searched name. -/
def probeOrder (t : AvlTree) (tiebreak : Nat → Nat → Int) (key : Fin 8 → Bytes.Byte) : Nat → Int :=
  fun i => niCmp (t.n i).key (t.n i).contactIndex key niProbeSector tiebreak

/-- Nodes before the searched name come first, then those of that name. -/
def Ascends (order : Nat → Int) (list : List Nat) : Prop :=
  list.Pairwise fun earlier later =>
    (order later < 0 → order earlier < 0) ∧ (order later ≤ 0 → order earlier ≤ 0)

theorem find_holds {key : Fin 8 → Bytes.Byte} (fuel found : Nat) (holds : Holds t.n tree)
    (ascends : Ascends (t.probeOrder tiebreak key) (inorder tree)) (enough : tree.height < fuel) :
    t.findFrom tiebreak key fuel (rootIndex tree) found =
      some (((inorder tree).find? fun i => t.probeOrder tiebreak key i = 0).getD found) := by
  induction tree generalizing fuel found with
  | nil =>
      obtain ⟨fuel, rfl⟩ := Nat.exists_eq_succ_of_ne_zero (Nat.ne_zero_of_lt enough)
      rfl
  | node i left right leftIh rightIh =>
      obtain ⟨fuel, rfl⟩ := Nat.exists_eq_succ_of_ne_zero (Nat.ne_zero_of_lt enough)
      have links := holds.linked
      obtain ⟨leftAscends, rest, before⟩ := List.pairwise_append.mp ascends
      obtain ⟨behind, rightAscends⟩ := List.pairwise_cons.mp rest
      have value : niCmp (t.n i).key (t.n i).contactIndex key niProbeSector tiebreak =
          t.probeOrder tiebreak key i := rfl
      simp only [height] at enough
      unfold findFrom
      simp only [root_index_node, if_neg links.real, value]
      rw [inorder_node, List.find?_append]
      by_cases behindName : 0 ≤ t.probeOrder tiebreak key i
      · rw [if_pos behindName, links.toLeft, leftIh fuel _ links.left leftAscends (by omega)]
        cases inLeft : (inorder left).find? fun i => t.probeOrder tiebreak key i = 0 with
        | some first => rfl
        | none =>
            by_cases equal : t.probeOrder tiebreak key i = 0
            · rw [if_pos equal, List.find?_cons_of_pos (by simpa using equal)]
              rfl
            · have none_ : (inorder right).find? (fun i => t.probeOrder tiebreak key i = 0) =
                  none := by
                rw [List.find?_eq_none]
                intro j member same
                have order := (behind j member).2
                simp only [decide_eq_true_eq] at same
                omega
              rw [if_neg equal, List.find?_cons_of_neg (by simpa using equal), none_]
              rfl
      · have none_ : (inorder left).find? (fun i => t.probeOrder tiebreak key i = 0) = none := by
          rw [List.find?_eq_none]
          intro j member same
          have order := (before j member i List.mem_cons_self).1
          simp only [decide_eq_true_eq] at same
          omega
        rw [if_neg behindName, links.toRight, rightIh fuel _ links.right rightAscends (by omega),
          none_, List.find?_cons_of_neg (by simp only [decide_eq_true_eq]; omega), Option.none_or]

end Lookups

end AvlTree

end SdDatabase
