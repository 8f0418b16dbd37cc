import Mathlib.Data.Tree.Basic
import Mathlib.Data.Nat.Fib.Basic
import Mathlib.Data.Nat.Size

/-!
# Balanced search trees

Trees whose subtrees differ in height by at most one. A comparison with the
searched value decides where to go at a node: the value is smaller than the node
if it is negative, and larger if it is positive. No order on the values is
needed, only that the comparison separates the in-order list.
-/

namespace SdDatabase.BalancedTree

open BinaryTree

set_option autoImplicit false

variable {A : Type}

def inorder : BinaryTree A → List A
  | .nil => []
  | .node value left right => inorder left ++ value :: inorder right

def Balanced : BinaryTree A → Prop
  | .nil => True
  | .node _ left right =>
      Balanced left ∧ Balanced right ∧
        left.height ≤ right.height + 1 ∧ right.height ≤ left.height + 1

def rotateRight : BinaryTree A → BinaryTree A
  | .node top (.node inner first second) third => .node inner first (.node top second third)
  | tree => tree

def rotateLeft : BinaryTree A → BinaryTree A
  | .node top first (.node inner second third) => .node inner (.node top first second) third
  | tree => tree

/-- Rotations that restore the balance of a node whose subtrees are balanced. -/
def rebalance : BinaryTree A → BinaryTree A
  | .nil => .nil
  | .node value left right =>
      if right.height + 1 < left.height then
        if left.left.height < left.right.height then
          rotateRight (.node value (rotateLeft left) right)
        else rotateRight (.node value left right)
      else if left.height + 1 < right.height then
        if right.right.height < right.left.height then
          rotateLeft (.node value left (rotateRight right))
        else rotateLeft (.node value left right)
      else .node value left right

/-- The value that compares as equal, if the search meets one. -/
def search (order : A → Int) : BinaryTree A → Option A
  | .nil => none
  | .node value left right =>
      if order value = 0 then some value
      else if order value < 0 then search order left
      else search order right

/-- A value that compares as equal keeps the new one out. -/
def insert (order : A → Int) (fresh : A) : BinaryTree A → BinaryTree A
  | .nil => .node fresh .nil .nil
  | .node value left right =>
      if order value = 0 then .node value left right
      else if order value < 0 then rebalance (.node value (insert order fresh left) right)
      else rebalance (.node value left (insert order fresh right))

def removeMin : BinaryTree A → Option (A × BinaryTree A)
  | .nil => none
  | .node value left right =>
      match removeMin left with
      | none => some (value, right)
      | some (least, rest) => some (least, rebalance (.node value rest right))

/-- Two trees that were the subtrees of one node. -/
def join (left right : BinaryTree A) : BinaryTree A :=
  match left with
  | .nil => right
  | .node .. =>
      match removeMin right with
      | none => left
      | some (least, rest) => rebalance (.node least left rest)

def remove (order : A → Int) : BinaryTree A → BinaryTree A
  | .nil => .nil
  | .node value left right =>
      if order value < 0 then rebalance (.node value (remove order left) right)
      else if 0 < order value then rebalance (.node value left (remove order right))
      else join left right

@[simp] theorem inorder_nil : inorder (.nil : BinaryTree A) = [] := rfl

@[simp] theorem inorder_node (value : A) (left right : BinaryTree A) :
    inorder (.node value left right) = inorder left ++ value :: inorder right := rfl

theorem inorder_length (tree : BinaryTree A) : (inorder tree).length = tree.numNodes := by
  induction tree with
  | nil => rfl
  | node value left right leftIh rightIh =>
      simp only [inorder_node, List.length_append, List.length_cons, numNodes, leftIh, rightIh]
      omega

@[simp] theorem inorder_rotateRight (tree : BinaryTree A) :
    inorder (rotateRight tree) = inorder tree := by
  cases tree with
  | nil => rfl
  | node top left right =>
      cases left with
      | nil => rfl
      | node inner first second => simp [rotateRight]

@[simp] theorem inorder_rotateLeft (tree : BinaryTree A) :
    inorder (rotateLeft tree) = inorder tree := by
  cases tree with
  | nil => rfl
  | node top left right =>
      cases right with
      | nil => rfl
      | node inner second third => simp [rotateLeft]

@[simp] theorem inorder_rebalance (tree : BinaryTree A) :
    inorder (rebalance tree) = inorder tree := by
  cases tree with
  | nil => rfl
  | node value left right =>
      simp only [rebalance]
      split
      · split <;> simp
      · split
        · split <;> simp
        · rfl

theorem rebalance_even {value : A} {left right : BinaryTree A}
    (leftLow : left.height ≤ right.height + 1) (rightLow : right.height ≤ left.height + 1) :
    rebalance (.node value left right) = .node value left right := by
  rw [rebalance, if_neg (by omega), if_neg (by omega)]

/-- What `rebalance` makes of two balanced trees that differ by at most two. -/
structure Rebalanced (left right result : BinaryTree A) : Prop where
  balanced : Balanced result
  low : max left.height right.height ≤ result.height
  high : result.height ≤ max left.height right.height + 1
  even : left.height ≤ right.height + 1 → right.height ≤ left.height + 1 →
    result.height = max left.height right.height + 1

theorem rebalance_left_heavy {value : A} {left right : BinaryTree A} (leftBalanced : Balanced left)
    (rightBalanced : Balanced right) (heavy : left.height = right.height + 2) :
    Rebalanced left right (rebalance (.node value left right)) := by
  rw [rebalance, if_pos (by omega)]
  cases left with
  | nil => exact absurd heavy (by simp)
  | node inner first second =>
      obtain ⟨firstBalanced, secondBalanced, firstLow, secondLow⟩ := leftBalanced
      simp only [height] at heavy
      by_cases zigzag : first.height < second.height
      · rw [if_pos (by simpa using zigzag)]
        cases second with
        | nil => exact absurd zigzag (by simp)
        | node middle inside outside =>
            obtain ⟨insideBalanced, outsideBalanced, insideLow, outsideLow⟩ := secondBalanced
            simp only [height] at heavy zigzag firstLow secondLow
            constructor
            · refine ⟨⟨firstBalanced, insideBalanced, by omega, by omega⟩,
                ⟨outsideBalanced, rightBalanced, by omega, by omega⟩, ?_, ?_⟩
              all_goals simp only [height]
              all_goals omega
            · simp only [rotateLeft, rotateRight, height]
              omega
            · simp only [rotateLeft, rotateRight, height]
              omega
            · simp only [height]
              omega
      · rw [if_neg (by simpa using zigzag)]
        constructor
        · refine ⟨firstBalanced, ⟨secondBalanced, rightBalanced, by omega, by omega⟩, ?_, ?_⟩
          all_goals simp only [height]
          all_goals omega
        · simp only [rotateRight, height]
          omega
        · simp only [rotateRight, height]
          omega
        · simp only [height]
          omega

theorem rebalance_right_heavy {value : A} {left right : BinaryTree A} (leftBalanced : Balanced left)
    (rightBalanced : Balanced right) (heavy : right.height = left.height + 2) :
    Rebalanced left right (rebalance (.node value left right)) := by
  rw [rebalance, if_neg (by omega), if_pos (by omega)]
  cases right with
  | nil => exact absurd heavy (by simp)
  | node inner second third =>
      obtain ⟨secondBalanced, thirdBalanced, secondLow, thirdLow⟩ := rightBalanced
      simp only [height] at heavy
      by_cases zigzag : third.height < second.height
      · rw [if_pos (by simpa using zigzag)]
        cases second with
        | nil => exact absurd zigzag (by simp)
        | node middle inside outside =>
            obtain ⟨insideBalanced, outsideBalanced, insideLow, outsideLow⟩ := secondBalanced
            simp only [height] at heavy zigzag secondLow thirdLow
            constructor
            · refine ⟨⟨leftBalanced, insideBalanced, by omega, by omega⟩,
                ⟨outsideBalanced, thirdBalanced, by omega, by omega⟩, ?_, ?_⟩
              all_goals simp only [height]
              all_goals omega
            · simp only [rotateLeft, rotateRight, height]
              omega
            · simp only [rotateLeft, rotateRight, height]
              omega
            · simp only [height]
              omega
      · rw [if_neg (by simpa using zigzag)]
        constructor
        · refine ⟨⟨leftBalanced, secondBalanced, by omega, by omega⟩, thirdBalanced, ?_, ?_⟩
          all_goals simp only [height]
          all_goals omega
        · simp only [rotateLeft, height]
          omega
        · simp only [rotateLeft, height]
          omega
        · simp only [height]
          omega

theorem rebalance_restores {value : A} {left right : BinaryTree A} (leftBalanced : Balanced left)
    (rightBalanced : Balanced right) (leftLow : left.height ≤ right.height + 2)
    (rightLow : right.height ≤ left.height + 2) :
    Rebalanced left right (rebalance (.node value left right)) := by
  by_cases leftHeavy : left.height = right.height + 2
  · exact rebalance_left_heavy leftBalanced rightBalanced leftHeavy
  · by_cases rightHeavy : right.height = left.height + 2
    · exact rebalance_right_heavy leftBalanced rightBalanced rightHeavy
    · rw [rebalance_even (by omega) (by omega)]
      constructor
      · exact ⟨leftBalanced, rightBalanced, by omega, by omega⟩
      · simp only [height]
        omega
      · exact le_rfl
      · exact fun _ _ => rfl

theorem insert_balanced (order : A → Int) (fresh : A) {tree : BinaryTree A}
    (balanced : Balanced tree) :
    Balanced (insert order fresh tree) ∧ tree.height ≤ (insert order fresh tree).height ∧
      (insert order fresh tree).height ≤ tree.height + 1 := by
  induction tree with
  | nil => exact ⟨⟨trivial, trivial, by simp, by simp⟩, by simp [insert], by simp [insert]⟩
  | node value left right leftIh rightIh =>
      obtain ⟨leftBalanced, rightBalanced, leftLow, rightLow⟩ := balanced
      unfold insert
      by_cases found : order value = 0
      · rw [if_pos found]
        exact ⟨⟨leftBalanced, rightBalanced, leftLow, rightLow⟩, le_rfl, Nat.le_succ _⟩
      · rw [if_neg found]
        by_cases smaller : order value < 0
        · obtain ⟨grown, low, high⟩ := leftIh leftBalanced
          have restored := @rebalance_restores _ value _ _ grown rightBalanced (by omega) (by omega)
          have resultLow := restored.low
          have resultHigh := restored.high
          have even := restored.even
          rw [if_pos smaller]
          simp only [height]
          exact ⟨restored.balanced, by omega, by omega⟩
        · obtain ⟨grown, low, high⟩ := rightIh rightBalanced
          have restored := @rebalance_restores _ value _ _ leftBalanced grown (by omega) (by omega)
          have resultLow := restored.low
          have resultHigh := restored.high
          have even := restored.even
          rw [if_neg smaller]
          simp only [height]
          exact ⟨restored.balanced, by omega, by omega⟩

theorem removeMin_none {tree : BinaryTree A} : removeMin tree = none ↔ tree = .nil := by
  cases tree with
  | nil => exact iff_of_true rfl rfl
  | node value left right =>
      unfold removeMin
      cases removeMin left <;> simp

/-- The first value goes, and with it at most one level. -/
theorem removeMin_some {tree rest : BinaryTree A} {least : A}
    (removed : removeMin tree = some (least, rest)) :
    inorder tree = least :: inorder rest ∧
      (Balanced tree → Balanced rest ∧ rest.height ≤ tree.height ∧
        tree.height ≤ rest.height + 1) := by
  induction tree generalizing least rest with
  | nil => cases removed
  | node value left right leftIh rightIh =>
      unfold removeMin at removed
      cases inner : removeMin left with
      | none =>
          rw [inner] at removed
          obtain ⟨rfl, rfl⟩ := removed
          rw [removeMin_none.mp inner]
          refine ⟨rfl, fun balanced => ⟨balanced.2.1, ?_, ?_⟩⟩
          all_goals simp
      | some pair =>
          obtain ⟨first, shrunk⟩ := pair
          rw [inner] at removed
          obtain ⟨rfl, rfl⟩ := removed
          obtain ⟨list, heights⟩ := leftIh inner
          constructor
          · rw [inorder_rebalance, inorder_node, inorder_node, list, List.cons_append]
          · intro balanced
            obtain ⟨leftBalanced, rightBalanced, leftLow, rightLow⟩ := balanced
            obtain ⟨shrunkBalanced, low, high⟩ := heights leftBalanced
            have restored := @rebalance_restores _ value _ _ shrunkBalanced rightBalanced (by omega)
              (by omega)
            have resultLow := restored.low
            have resultHigh := restored.high
            have even := restored.even
            simp only [height]
            exact ⟨restored.balanced, by omega, by omega⟩

theorem inorder_join (left right : BinaryTree A) :
    inorder (join left right) = inorder left ++ inorder right := by
  cases left with
  | nil => rfl
  | node value first second =>
      unfold join
      dsimp only
      cases removed : removeMin right with
      | none => rw [removeMin_none.mp removed, inorder_nil, List.append_nil]
      | some pair => rw [inorder_rebalance, inorder_node, (removeMin_some removed).1]

theorem join_balanced {left right : BinaryTree A} (leftBalanced : Balanced left)
    (rightBalanced : Balanced right) (leftLow : left.height ≤ right.height + 1)
    (rightLow : right.height ≤ left.height + 1) :
    Balanced (join left right) ∧ max left.height right.height ≤ (join left right).height ∧
      (join left right).height ≤ max left.height right.height + 1 := by
  cases left with
  | nil => exact ⟨rightBalanced, by simp [join], by simp [join]⟩
  | node value first second =>
      unfold join
      dsimp only
      cases removed : removeMin right with
      | none =>
          rw [removeMin_none.mp removed]
          exact ⟨leftBalanced, by simp, by simp⟩
      | some pair =>
          obtain ⟨least, rest⟩ := pair
          obtain ⟨shrunk, low, high⟩ := (removeMin_some removed).2 rightBalanced
          have restored := @rebalance_restores _ least _ _ leftBalanced shrunk (by omega) (by omega)
          have resultLow := restored.low
          have resultHigh := restored.high
          have even := restored.even
          dsimp only
          exact ⟨restored.balanced, by omega, by omega⟩

theorem remove_balanced (order : A → Int) {tree : BinaryTree A} (balanced : Balanced tree) :
    Balanced (remove order tree) ∧ (remove order tree).height ≤ tree.height ∧
      tree.height ≤ (remove order tree).height + 1 := by
  induction tree with
  | nil => exact ⟨trivial, le_rfl, Nat.le_succ _⟩
  | node value left right leftIh rightIh =>
      obtain ⟨leftBalanced, rightBalanced, leftLow, rightLow⟩ := balanced
      unfold remove
      simp only [height]
      by_cases smaller : order value < 0
      · obtain ⟨shrunk, low, high⟩ := leftIh leftBalanced
        have restored := @rebalance_restores _ value _ _ shrunk rightBalanced (by omega) (by omega)
        have resultLow := restored.low
        have resultHigh := restored.high
        have even := restored.even
        rw [if_pos smaller]
        exact ⟨restored.balanced, by omega, by omega⟩
      · rw [if_neg smaller]
        by_cases larger : 0 < order value
        · obtain ⟨shrunk, low, high⟩ := rightIh rightBalanced
          have restored := @rebalance_restores _ value _ _ leftBalanced shrunk (by omega) (by omega)
          have resultLow := restored.low
          have resultHigh := restored.high
          have even := restored.even
          rw [if_pos larger]
          exact ⟨restored.balanced, by omega, by omega⟩
        · obtain ⟨joined, low, high⟩ := join_balanced leftBalanced rightBalanced leftLow rightLow
          rw [if_neg larger]
          exact ⟨joined, by omega, by omega⟩

theorem fib_height_le {tree : BinaryTree A} (balanced : Balanced tree) :
    Nat.fib (tree.height + 2) ≤ tree.numNodes + 1 := by
  induction tree with
  | nil => simp [Nat.fib]
  | node value left right leftIh rightIh =>
      obtain ⟨leftBalanced, rightBalanced, leftLow, rightLow⟩ := balanced
      have leftMany := leftIh leftBalanced
      have rightMany := rightIh rightBalanced
      simp only [height, numNodes]
      rcases Nat.le_total left.height right.height with order | order
      · have lower : Nat.fib (right.height + 1) ≤ Nat.fib (left.height + 2) :=
          Nat.fib_mono (by omega)
        have sum : Nat.fib (right.height + 3) =
            Nat.fib (right.height + 1) + Nat.fib (right.height + 2) := Nat.fib_add_two
        rw [Nat.max_eq_right order, show right.height + 1 + 2 = right.height + 3 by omega, sum]
        omega
      · have lower : Nat.fib (left.height + 1) ≤ Nat.fib (right.height + 2) :=
          Nat.fib_mono (by omega)
        have sum : Nat.fib (left.height + 3) =
            Nat.fib (left.height + 1) + Nat.fib (left.height + 2) := Nat.fib_add_two
        rw [Nat.max_eq_left order, show left.height + 1 + 2 = left.height + 3 by omega, sum]
        omega

def Separates (order : A → Int) (list : List A) : Prop :=
  list.Pairwise fun earlier later => order later < 0 ∨ 0 < order earlier

section Searches

variable {order : A → Int} {value : A} {left right tree : BinaryTree A}

theorem Separates.front (separates : Separates order (inorder (.node value left right))) :
    Separates order (inorder left) :=
  (List.pairwise_append.mp separates).1

theorem Separates.rear (separates : Separates order (inorder (.node value left right))) :
    Separates order (inorder right) :=
  (List.pairwise_cons.mp (List.pairwise_append.mp separates).2.1).2

theorem Separates.above (separates : Separates order (inorder (.node value left right)))
    (notBelow : 0 ≤ order value) : ∀ other ∈ inorder left, 0 < order other := by
  intro other member
  have apart := (List.pairwise_append.mp separates).2.2 other member value List.mem_cons_self
  exact apart.resolve_left (not_lt.mpr notBelow)

theorem Separates.below (separates : Separates order (inorder (.node value left right)))
    (notAbove : order value ≤ 0) : ∀ other ∈ inorder right, order other < 0 := by
  intro other member
  have apart := (List.pairwise_cons.mp (List.pairwise_append.mp separates).2.1).1 other member
  exact apart.resolve_right (not_lt.mpr notAbove)

theorem search_eq (separates : Separates order (inorder tree)) :
    search order tree = (inorder tree).find? fun other => order other = 0 := by
  induction tree with
  | nil => rfl
  | node value left right leftIh rightIh =>
      unfold search
      rw [inorder_node, List.find?_append]
      by_cases found : order value = 0
      · have none_ : (inorder left).find? (fun other => order other = 0) = none := by
          rw [List.find?_eq_none]
          intro other member
          have positive := separates.above found.ge other member
          simp only [decide_eq_true_eq]
          omega
        rw [if_pos found, none_, List.find?_cons_of_pos (by simpa using found)]
        rfl
      · rw [if_neg found, List.find?_cons_of_neg (by simpa using found)]
        by_cases smaller : order value < 0
        · have none_ : (inorder right).find? (fun other => order other = 0) = none := by
            rw [List.find?_eq_none]
            intro other member
            have negative := separates.below smaller.le other member
            simp only [decide_eq_true_eq]
            omega
          rw [if_pos smaller, leftIh separates.front, none_, Option.or_none]
        · have none_ : (inorder left).find? (fun other => order other = 0) = none := by
            rw [List.find?_eq_none]
            intro other member
            have positive := separates.above (not_lt.mp smaller) other member
            simp only [decide_eq_true_eq]
            omega
          rw [if_neg smaller, rightIh separates.rear, none_, Option.none_or]

theorem search_none_iff (separates : Separates order (inorder tree)) :
    search order tree = none ↔ ∀ other ∈ inorder tree, order other ≠ 0 := by
  rw [search_eq separates, List.find?_eq_none]
  simp

theorem insert_found (balanced : Balanced tree) {fresh found : A}
    (there : search order tree = some found) : insert order fresh tree = tree := by
  induction tree with
  | nil => cases there
  | node value left right leftIh rightIh =>
      obtain ⟨leftBalanced, rightBalanced, leftLow, rightLow⟩ := balanced
      unfold search at there
      unfold insert
      by_cases equal : order value = 0
      · rw [if_pos equal]
      · rw [if_neg equal] at there ⊢
        by_cases smaller : order value < 0
        · rw [if_pos smaller] at there ⊢
          rw [leftIh leftBalanced there, rebalance_even leftLow rightLow]
        · rw [if_neg smaller] at there ⊢
          rw [rightIh rightBalanced there, rebalance_even leftLow rightLow]

theorem inorder_insert (separates : Separates order (inorder tree)) (fresh : A)
    (absent : ∀ other ∈ inorder tree, order other ≠ 0) :
    inorder (insert order fresh tree) =
      (inorder tree).filter (fun other => 0 < order other) ++
        fresh :: (inorder tree).filter fun other => order other < 0 := by
  induction tree with
  | nil => rfl
  | node value left right leftIh rightIh =>
      have different := absent value (by simp)
      have leftAbsent : ∀ other ∈ inorder left, order other ≠ 0 :=
        fun other member => absent other (by simp [member])
      have rightAbsent : ∀ other ∈ inorder right, order other ≠ 0 :=
        fun other member => absent other (by simp [member])
      unfold insert
      rw [if_neg different]
      by_cases smaller : order value < 0
      · have rightBelow := separates.below smaller.le
        have noneAbove : (inorder right).filter (fun other => 0 < order other) = [] := by
          rw [List.filter_eq_nil_iff]
          intro other member
          have negative := rightBelow other member
          simp only [decide_eq_true_eq]
          omega
        have allBelow : (inorder right).filter (fun other => order other < 0) = inorder right := by
          rw [List.filter_eq_self]
          intro other member
          simpa using rightBelow other member
        rw [if_pos smaller, inorder_rebalance, inorder_node, leftIh separates.front leftAbsent,
          inorder_node, List.filter_append, List.filter_append,
          List.filter_cons_of_neg (by simpa using smaller.le),
          List.filter_cons_of_pos (by simpa using smaller), noneAbove, allBelow, List.append_nil,
          List.append_assoc, List.cons_append]
      · have larger : 0 < order value := by omega
        have leftAbove := separates.above larger.le
        have noneBelow : (inorder left).filter (fun other => order other < 0) = [] := by
          rw [List.filter_eq_nil_iff]
          intro other member
          have positive := leftAbove other member
          simp only [decide_eq_true_eq]
          omega
        have allAbove : (inorder left).filter (fun other => 0 < order other) = inorder left := by
          rw [List.filter_eq_self]
          intro other member
          simpa using leftAbove other member
        rw [if_neg smaller, inorder_rebalance, inorder_node, rightIh separates.rear rightAbsent,
          inorder_node, List.filter_append, List.filter_append,
          List.filter_cons_of_pos (by simpa using larger),
          List.filter_cons_of_neg (by simpa using larger.le), noneBelow, allAbove, List.nil_append,
          List.append_assoc, List.cons_append]

theorem inorder_remove (separates : Separates order (inorder tree)) :
    inorder (remove order tree) = (inorder tree).filter fun other => order other ≠ 0 := by
  induction tree with
  | nil => rfl
  | node value left right leftIh rightIh =>
      have others : ∀ list : List A, (∀ other ∈ list, order other ≠ 0) →
          list.filter (fun other => decide (order other ≠ 0)) = list := by
        intro list different
        rw [List.filter_eq_self]
        intro other member
        simpa using different other member
      unfold remove
      by_cases smaller : order value < 0
      · have same := others (inorder right) fun other member =>
          (separates.below smaller.le other member).ne
        rw [if_pos smaller, inorder_rebalance, inorder_node, leftIh separates.front, inorder_node,
          List.filter_append, List.filter_cons_of_pos (by simpa using smaller.ne), same]
      · rw [if_neg smaller]
        by_cases larger : 0 < order value
        · have same := others (inorder left) fun other member =>
            (separates.above larger.le other member).ne'
          rw [if_pos larger, inorder_rebalance, inorder_node, rightIh separates.rear, inorder_node,
            List.filter_append, List.filter_cons_of_pos (by simpa using larger.ne'), same]
        · have equal : order value = 0 := by omega
          have before := others (inorder left) fun other member =>
            (separates.above equal.ge other member).ne'
          have behind := others (inorder right) fun other member =>
            (separates.below equal.le other member).ne
          rw [if_neg larger, inorder_join, inorder_node, List.filter_append,
            List.filter_cons_of_neg (by simpa using equal), before, behind]

theorem inorder_insert_perm (fresh : A) (absent : search order tree = none) :
    (inorder (insert order fresh tree)).Perm (fresh :: inorder tree) := by
  induction tree with
  | nil => exact List.Perm.refl _
  | node value left right leftIh rightIh =>
      unfold search at absent
      unfold insert
      by_cases equal : order value = 0
      · rw [if_pos equal] at absent
        cases absent
      · rw [if_neg equal] at absent ⊢
        by_cases smaller : order value < 0
        · rw [if_pos smaller] at absent ⊢
          rw [inorder_rebalance, inorder_node]
          exact (leftIh absent).append_right _
        · rw [if_neg smaller] at absent ⊢
          rw [inorder_rebalance, inorder_node, inorder_node]
          have moved : (inorder left ++ value :: fresh :: inorder right).Perm
              (fresh :: (inorder left ++ value :: inorder right)) := by
            have grouped := @List.perm_middle _ fresh (inorder left ++ [value]) (inorder right)
            simpa using grouped
          exact (((rightIh absent).cons value).append_left _).trans moved

theorem remove_absent (balanced : Balanced tree) (absent : search order tree = none) :
    remove order tree = tree := by
  induction tree with
  | nil => rfl
  | node value left right leftIh rightIh =>
      obtain ⟨leftBalanced, rightBalanced, leftLow, rightLow⟩ := balanced
      unfold search at absent
      unfold remove
      by_cases equal : order value = 0
      · rw [if_pos equal] at absent
        cases absent
      · rw [if_neg equal] at absent
        by_cases smaller : order value < 0
        · rw [if_pos smaller] at absent ⊢
          rw [leftIh leftBalanced absent, rebalance_even leftLow rightLow]
        · rw [if_neg smaller] at absent ⊢
          rw [if_pos (by omega), rightIh rightBalanced absent, rebalance_even leftLow rightLow]

theorem inorder_remove_perm {found : A} (there : search order tree = some found) :
    (inorder tree).Perm (found :: inorder (remove order tree)) := by
  induction tree with
  | nil => cases there
  | node value left right leftIh rightIh =>
      unfold search at there
      unfold remove
      by_cases equal : order value = 0
      · rw [if_pos equal] at there
        obtain rfl := Option.some.inj there
        rw [if_neg (by omega), if_neg (by omega), inorder_join, inorder_node]
        exact List.perm_middle
      · rw [if_neg equal] at there
        by_cases smaller : order value < 0
        · rw [if_pos smaller] at there ⊢
          rw [inorder_rebalance, inorder_node, inorder_node]
          exact (leftIh there).append_right _
        · rw [if_neg smaller] at there ⊢
          rw [if_pos (by omega), inorder_rebalance, inorder_node, inorder_node]
          have moved : (inorder left ++ value :: found :: inorder (remove order right)).Perm
              (found :: (inorder left ++ value :: inorder (remove order right))) := by
            have grouped := @List.perm_middle _ found (inorder left ++ [value])
              (inorder (remove order right))
            simpa using grouped
          exact (((rightIh there).cons value).append_left _).trans moved

end Searches

/-- The numbers from `low` on, the middle one on top. -/
def evenTree : Nat → Nat → Nat → BinaryTree Nat
  | 0, _, _ => .nil
  | fuel + 1, low, count =>
      if count = 0 then .nil
      else
        .node (low + (count - 1) / 2) (evenTree fuel low ((count - 1) / 2))
          (evenTree fuel (low + (count - 1) / 2 + 1) (count - 1 - (count - 1) / 2))

theorem inorder_evenTree {fuel low count : Nat} (enough : count ≤ fuel) :
    inorder (evenTree fuel low count) = List.range' low count := by
  induction fuel generalizing low count with
  | zero =>
      obtain rfl := Nat.le_zero.mp enough
      rfl
  | succ fuel ih =>
      unfold evenTree
      by_cases none_ : count = 0
      · rw [if_pos none_, none_]
        rfl
      · have halves : count = (count - 1) / 2 + (count - 1 - (count - 1) / 2 + 1) := by omega
        have parts := @List.range'_append low ((count - 1) / 2) (count - 1 - (count - 1) / 2 + 1) 1
        rw [← halves, Nat.one_mul, List.range'_succ] at parts
        rw [if_neg none_, inorder_node, ih (by omega), ih (by omega), parts]

theorem size_half {count : Nat} (some_ : count ≠ 0) :
    (count - 1 - (count - 1) / 2).size + 1 = count.size := by
  have half : count - 1 - (count - 1) / 2 = count / 2 := by omega
  rw [half]
  apply le_antisymm
  · have low : ¬(count.size ≤ (count / 2).size) := by
      intro small
      have reached : count < 2 ^ (count / 2).size := Nat.size_le.mp small
      have positive : (count / 2).size ≠ 0 := fun zero => by
        rw [zero] at reached
        omega
      obtain ⟨exponent, size⟩ := Nat.exists_eq_succ_of_ne_zero positive
      rw [size, pow_succ] at reached
      have smaller : (count / 2).size ≤ exponent := Nat.size_le.mpr (by omega)
      omega
    omega
  · apply Nat.size_le.mpr
    have below := Nat.lt_size_self (count / 2)
    rw [pow_succ]
    omega

theorem evenTree_height {fuel low count : Nat} (enough : count ≤ fuel) :
    (evenTree fuel low count).height = count.size := by
  induction fuel generalizing low count with
  | zero =>
      obtain rfl := Nat.le_zero.mp enough
      rfl
  | succ fuel ih =>
      unfold evenTree
      by_cases none_ : count = 0
      · rw [if_pos none_, none_]
        rfl
      · have order : ((count - 1) / 2).size ≤ (count - 1 - (count - 1) / 2).size :=
          Nat.size_le_size (by omega)
        rw [if_neg none_, height, ih (by omega), ih (by omega), Nat.max_eq_right order,
          size_half none_]

theorem numNodes_lt_pow {A : Type} (tree : BinaryTree A) : tree.numNodes < 2 ^ tree.height := by
  induction tree with
  | nil => exact Nat.one_pos
  | node i left right leftIh rightIh =>
      have leftMore : 2 ^ left.height ≤ 2 ^ max left.height right.height :=
        Nat.pow_le_pow_right two_pos (le_max_left _ _)
      have rightMore : 2 ^ right.height ≤ 2 ^ max left.height right.height :=
        Nat.pow_le_pow_right two_pos (le_max_right _ _)
      rw [numNodes, height, pow_succ]
      omega

theorem size_le_height {A : Type} (tree : BinaryTree A) : tree.numNodes.size ≤ tree.height :=
  Nat.size_le.mpr (numNodes_lt_pow tree)

theorem size_succ_le (count : Nat) : (count + 1).size ≤ count.size + 1 := by
  apply Nat.size_le.mpr
  have below := Nat.lt_size_self count
  rw [pow_succ]
  omega

theorem evenTree_balanced {fuel low count : Nat} (enough : count ≤ fuel) :
    Balanced (evenTree fuel low count) := by
  induction fuel generalizing low count with
  | zero => trivial
  | succ fuel ih =>
      unfold evenTree
      by_cases none_ : count = 0
      · rw [if_pos none_]
        trivial
      · have order : ((count - 1) / 2).size ≤ (count - 1 - (count - 1) / 2).size :=
          Nat.size_le_size (by omega)
        have close : (count - 1 - (count - 1) / 2).size ≤ ((count - 1) / 2).size + 1 :=
          (Nat.size_le_size (by omega)).trans (size_succ_le _)
        rw [if_neg none_]
        refine ⟨ih (by omega), ih (by omega), ?_, ?_⟩
        · rw [evenTree_height (by omega), evenTree_height (by omega)]
          omega
        · rw [evenTree_height (by omega), evenTree_height (by omega)]
          exact close

end SdDatabase.BalancedTree
