import SdDatabase.AvlRecursions
import SdDatabase.Lib.TreeWalk

/-!
# Iterators over the node pool

The stack of an iterator holds the nodes of a walk. It is deep enough for every
tree of the pool, so an iterator returns all entries in their order.
-/

namespace SdDatabase

open BinaryTree BalancedTree

set_option autoImplicit false

namespace AvlTree

def stackOf (walk : Walk Nat) : List Nat :=
  walk.map Prod.fst

def HoldsWalk (n : Nat → AvlNode) (walk : Walk Nat) : Prop :=
  ∀ frame ∈ walk, (n frame.1).right = rootIndex frame.2 ∧ Holds n frame.2

section Iterators

variable {t : AvlTree} {walk : Walk Nat} {tree : BinaryTree Nat} {bound : Nat}

theorem holds_walk_cons {i : Nat} {left right : BinaryTree Nat} (walking : HoldsWalk t.n walk)
    (links : Linked t.n i left right) : HoldsWalk t.n ((i, right) :: walk) := by
  intro frame member
  rcases List.mem_cons.mp member with rfl | later
  · exact ⟨links.toRight, links.right⟩
  · exact walking frame later

theorem holds_walk_descend (holds : Holds t.n tree) (walking : HoldsWalk t.n walk) :
    HoldsWalk t.n (descend tree walk) := by
  induction tree generalizing walk with
  | nil => exact walking
  | node i left right leftIh rightIh =>
      exact leftIh holds.linked.left (holds_walk_cons walking holds.linked)

theorem push_left_from_holds (room : Nat) (holds : Holds t.n tree) (enough : tree.height ≤ room) :
    t.pushLeftFrom room (stackOf walk) (rootIndex tree) = (true, stackOf (descend tree walk)) := by
  induction tree generalizing room walk with
  | nil => cases room <;> rfl
  | node i left right leftIh rightIh =>
      obtain ⟨room, rfl⟩ := Nat.exists_eq_succ_of_ne_zero (Nat.ne_zero_of_lt enough)
      simp only [height] at enough
      have links := holds.linked
      have next := @leftIh ((i, right) :: walk) room links.left (by omega)
      unfold pushLeftFrom
      rw [root_index_node, if_neg links.real, links.toLeft]
      exact next

theorem push_left_holds (holds : Holds t.n tree)
    (enough : tree.height + walk.length ≤ avlIterDepth) :
    t.pushLeft (stackOf walk) (rootIndex tree) = (true, stackOf (descend tree walk)) := by
  apply push_left_from_holds _ holds
  rw [stackOf, List.length_map]
  omega

theorem next_holds {frame : Nat × BinaryTree Nat} (walking : HoldsWalk t.n (frame :: walk))
    (shallow : Shallow avlIterDepth (frame :: walk)) :
    t.avlNext (stackOf (frame :: walk)) =
        some ((t.n frame.1).entry, stackOf (advance (frame :: walk))) ∧
      HoldsWalk t.n (advance (frame :: walk)) ∧ Shallow avlIterDepth (advance (frame :: walk)) := by
  obtain ⟨toRight, holds⟩ := walking frame List.mem_cons_self
  have others : HoldsWalk t.n walk := fun other member =>
    walking other (List.mem_cons_of_mem _ member)
  refine ⟨?_, holds_walk_descend holds others, shallow_advance shallow⟩
  have pushed := push_left_holds holds shallow.1.le
  rw [stackOf, List.map_cons, avlNext, toRight, ← stackOf, pushed]
  rfl

theorem page_holds (count : Nat) (walking : HoldsWalk t.n walk)
    (shallow : Shallow avlIterDepth walk) :
    t.avlPage count (stackOf walk) = ((pending walk).take count).map fun i => (t.n i).entry := by
  induction count generalizing walk with
  | zero => rfl
  | succ count ih =>
      cases walk with
      | nil => rfl
      | cons frame walk =>
          obtain ⟨next, walking, shallow⟩ := next_holds walking shallow
          have later := ih walking shallow
          rw [pending_advance] at later
          unfold avlPage
          rw [next]
          dsimp only
          rw [later]
          rfl

theorem seek_rank_from_holds (rank : Nat) (walking : HoldsWalk t.n walk)
    (shallow : Shallow avlIterDepth walk) :
    ∃ rest, t.seekRankFrom rank (stackOf walk) =
        (decide (rank < (pending walk).length), stackOf rest) ∧
      HoldsWalk t.n rest ∧ Shallow avlIterDepth rest ∧
      pending rest = (pending walk).drop rank := by
  induction rank generalizing walk with
  | zero =>
      refine ⟨walk, ?_, walking, shallow, rfl⟩
      cases walk <;> rfl
  | succ rank ih =>
      cases walk with
      | nil => exact ⟨[], rfl, walking, shallow, rfl⟩
      | cons frame walk =>
          obtain ⟨next, later, shallower⟩ := next_holds walking shallow
          obtain ⟨rest, run, restWalking, restShallow, restPending⟩ := ih later shallower
          have stack := (Prod.mk.inj (Option.some.inj next)).2
          refine ⟨rest, ?_, restWalking, restShallow, ?_⟩
          · rw [stackOf, List.map_cons, seekRankFrom, stack, run, pending_advance]
            simp [pending]
          · rw [restPending, pending_advance, List.drop_tail]

theorem begin_holds (holds : Holds t.n tree) (root : t.root = rootIndex tree)
    (low : tree.height ≤ avlIterDepth) : t.avlBegin = (true, stackOf (descend tree [])) := by
  rw [avlBegin, root]
  exact @push_left_holds _ [] _ holds low

theorem seek_rank_holds (rank : Nat) (holds : Holds t.n tree) (root : t.root = rootIndex tree)
    (low : tree.height ≤ avlIterDepth) :
    ∃ rest, t.avlSeekRank rank = (decide (rank < (inorder tree).length), stackOf rest) ∧
      HoldsWalk t.n rest ∧ Shallow avlIterDepth rest ∧
      pending rest = (inorder tree).drop rank := by
  have walking := @holds_walk_descend t [] _ holds fun _ member => absurd member List.not_mem_nil
  have shallow := @shallow_descend _ [] tree avlIterDepth trivial low
  have whole := pending_descend tree []
  rw [show pending ([] : Walk Nat) = [] from rfl, List.append_nil] at whole
  have found := seek_rank_from_holds rank walking shallow
  rw [whole] at found
  simpa only [avlSeekRank, begin_holds holds root low, Bool.not_true, Bool.false_eq_true,
    if_false] using found

/-- The walk that a seek starts at the first entry that is not before a name. -/
theorem seek_from_holds {tiebreak : Nat → Nat → Int} {key : Fin 8 → Bytes.Byte} (fuel : Nat)
    (holds : Holds t.n tree) (walking : HoldsWalk t.n walk) (enough : tree.height < fuel)
    (low : tree.height + walk.length ≤ avlIterDepth) :
    t.seekFrom tiebreak key fuel (stackOf walk) (rootIndex tree) =
        some (true, stackOf (descendTo (fun i => decide (t.probeOrder tiebreak key i < 0)) tree
          walk)) ∧
      HoldsWalk t.n (descendTo (fun i => decide (t.probeOrder tiebreak key i < 0)) tree walk) := by
  induction tree generalizing fuel walk with
  | nil =>
      obtain ⟨fuel, rfl⟩ := Nat.exists_eq_succ_of_ne_zero (Nat.ne_zero_of_lt enough)
      exact ⟨rfl, walking⟩
  | node i left right leftIh rightIh =>
      obtain ⟨fuel, rfl⟩ := Nat.exists_eq_succ_of_ne_zero (Nat.ne_zero_of_lt enough)
      have links := holds.linked
      have value : niCmp (t.n i).key (t.n i).contactIndex key niProbeSector tiebreak =
          t.probeOrder tiebreak key i := rfl
      simp only [height] at enough low
      unfold seekFrom descendTo
      rw [root_index_node, if_neg links.real, value]
      by_cases before : t.probeOrder tiebreak key i < 0
      · rw [if_neg (by omega), if_pos (by simpa using before), links.toRight]
        exact rightIh fuel links.right walking (by omega) (by omega)
      · have room : ¬avlIterDepth ≤ (stackOf walk).length := by
          rw [stackOf, List.length_map]
          omega
        rw [if_pos (by omega), if_neg room, if_neg (by simpa using before), links.toLeft]
        exact leftIh fuel links.left (holds_walk_cons walking links) (by omega) (by
          rw [List.length_cons]
          omega)

theorem seek_holds {tiebreak : Nat → Nat → Int} {name : List Bytes.Byte} {capacity : Nat}
    (holds : Holds t.n tree) (root : t.root = rootIndex tree) (low : tree.height ≤ avlIterDepth)
    (enough : tree.height ≤ capacity)
    (ascends : Ascends (t.probeOrder tiebreak (niMakeKey name)) (inorder tree)) :
    ∃ rest, t.avlSeek capacity tiebreak name = some (true, stackOf rest) ∧
      HoldsWalk t.n rest ∧ Shallow avlIterDepth rest ∧
      pending rest = (inorder tree).dropWhile fun i =>
        decide (t.probeOrder tiebreak (niMakeKey name) i < 0) := by
  obtain ⟨run, walking⟩ := @seek_from_holds t [] tree tiebreak (niMakeKey name) (capacity + 1)
    holds (fun _ member => absurd member List.not_mem_nil) (by omega) low
  refine ⟨_, ?_, walking, @shallow_descendTo _ [] tree avlIterDepth _ trivial low, ?_⟩
  · rw [avlSeek, root]
    exact run
  · rw [pending_descendTo (ascends.imp fun order => by simpa using order.1)]
    exact List.append_nil _

end Iterators

end AvlTree

end SdDatabase
