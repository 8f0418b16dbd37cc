import SdDatabase.Lib.BalancedTree

/-!
# In-order walks

A walk through a tree keeps the nodes whose left subtrees it is in on a stack,
with their right subtrees. What is still to come is the nodes of the stack, each
followed by its right subtree.
-/

namespace SdDatabase.BalancedTree

open BinaryTree

set_option autoImplicit false

variable {A : Type}

/-- The nodes to come back to, the next one first, with their right subtrees. -/
abbrev Walk (A : Type) := List (A × BinaryTree A)

def pending (walk : Walk A) : List A :=
  walk.flatMap fun frame => frame.1 :: inorder frame.2

/-- Go down the left links of a tree. -/
def descend : BinaryTree A → Walk A → Walk A
  | .nil, walk => walk
  | .node value left right, walk => descend left ((value, right) :: walk)

/-- Go down to the first value that is not below. -/
def descendTo (below : A → Bool) : BinaryTree A → Walk A → Walk A
  | .nil, walk => walk
  | .node value left right, walk =>
      if below value then descendTo below right walk
      else descendTo below left ((value, right) :: walk)

def advance : Walk A → Walk A
  | [] => []
  | (_, right) :: walk => descend right walk

/-- The walk through a tree of some height has at most that many nodes on its stack. -/
def Shallow (bound : Nat) : Walk A → Prop
  | [] => True
  | (_, right) :: walk => right.height + walk.length < bound ∧ Shallow bound walk

section Walks

variable {walk : Walk A} {tree : BinaryTree A} {bound : Nat}

theorem pending_descend (tree : BinaryTree A) (walk : Walk A) :
    pending (descend tree walk) = inorder tree ++ pending walk := by
  induction tree generalizing walk with
  | nil => rfl
  | node value left right leftIh rightIh =>
      rw [descend, leftIh]
      simp [pending]

theorem pending_advance (walk : Walk A) : pending (advance walk) = (pending walk).tail := by
  cases walk with
  | nil => rfl
  | cons frame walk => exact pending_descend frame.2 walk

theorem pending_descendTo {below : A → Bool}
    (closed : (inorder tree).Pairwise fun earlier later => below later = true → below earlier = true)
    (walk : Walk A) :
    pending (descendTo below tree walk) = (inorder tree).dropWhile below ++ pending walk := by
  induction tree generalizing walk with
  | nil => rfl
  | node value left right leftIh rightIh =>
      obtain ⟨leftClosed, rest, before⟩ := List.pairwise_append.mp closed
      obtain ⟨behind, rightClosed⟩ := List.pairwise_cons.mp rest
      unfold descendTo
      by_cases low : below value = true
      · have allLow : ∀ other ∈ inorder left, below other = true :=
          fun other member => before other member value List.mem_cons_self low
        rw [if_pos low, rightIh rightClosed, inorder_node, List.dropWhile_append_of_pos allLow,
          List.dropWhile_cons_of_pos low]
      · rw [if_neg low, leftIh leftClosed, inorder_node]
        have kept : (value :: inorder right).dropWhile below = value :: inorder right :=
          List.dropWhile_cons_of_neg low
        rw [List.dropWhile_append, kept]
        split
        · rename_i none_
          rw [List.isEmpty_iff.mp none_]
          rfl
        · rw [List.append_assoc]
          rfl

theorem shallow_descend (shallow : Shallow bound walk)
    (fits : tree.height + walk.length ≤ bound) : Shallow bound (descend tree walk) := by
  induction tree generalizing walk with
  | nil => exact shallow
  | node value left right leftIh rightIh =>
      simp only [height] at fits
      apply leftIh
      · exact ⟨by omega, shallow⟩
      · rw [List.length_cons]
        omega

theorem shallow_descendTo {below : A → Bool} (shallow : Shallow bound walk)
    (fits : tree.height + walk.length ≤ bound) : Shallow bound (descendTo below tree walk) := by
  induction tree generalizing walk with
  | nil => exact shallow
  | node value left right leftIh rightIh =>
      simp only [height] at fits
      unfold descendTo
      split
      · exact rightIh shallow (by omega)
      · apply leftIh
        · exact ⟨by omega, shallow⟩
        · rw [List.length_cons]
          omega

theorem shallow_advance (shallow : Shallow bound walk) : Shallow bound (advance walk) := by
  cases walk with
  | nil => trivial
  | cons frame walk => exact shallow_descend shallow.2 shallow.1.le

end Walks

end SdDatabase.BalancedTree
