import SdDatabase.AvlTree
import SdDatabase.Lib.BalancedTree

/-!
# Trees in the node pool

A pool holds a tree of node indices if the links and heights of these nodes are
those of the tree. The rotations and recursions of the pool do to it what the
operations on trees do, and change no other node and no entry.
-/

namespace SdDatabase

open BinaryTree BalancedTree

set_option autoImplicit false

namespace AvlTree

def rootIndex : BinaryTree Nat → Nat
  | .nil => treeNil
  | .node i _ _ => i

@[simp] theorem root_index_node (i : Nat) (left right : BinaryTree Nat) :
    rootIndex (.node i left right) = i := rfl

def Holds (n : Nat → AvlNode) : BinaryTree Nat → Prop
  | .nil => True
  | .node i left right =>
      i ≠ treeNil ∧ (n i).left = rootIndex left ∧ (n i).right = rootIndex right ∧
        (n i).height = (BinaryTree.node i left right).height ∧ Holds n left ∧ Holds n right

/-- A node whose links are right; its height may be stale. -/
structure Linked (n : Nat → AvlNode) (i : Nat) (left right : BinaryTree Nat) : Prop where
  real : i ≠ treeNil
  toLeft : (n i).left = rootIndex left
  toRight : (n i).right = rootIndex right
  left : Holds n left
  right : Holds n right

/-- Links and heights of some nodes changed, and the depth that was noted. -/
structure Rewired (t t' : AvlTree) (touched : List Nat) : Prop where
  entry : ∀ i, (t'.n i).entry = (t.n i).entry
  others : ∀ i ∉ touched, t'.n i = t.n i
  root : t'.root = t.root
  freeHead : t'.freeHead = t.freeHead
  count : t'.count = t.count

section Frames

variable {n n' : Nat → AvlNode} {t first second third : AvlTree} {touched other : List Nat}
  {i : Nat} {left right tree : BinaryTree Nat}

theorem Holds.linked (holds : Holds n (.node i left right)) : Linked n i left right :=
  ⟨holds.1, holds.2.1, holds.2.2.1, holds.2.2.2.2.1, holds.2.2.2.2.2⟩

theorem root_index_nil (holds : Holds n tree) : rootIndex tree = treeNil ↔ tree = .nil := by
  cases tree with
  | nil => exact iff_of_true rfl rfl
  | node i left right => exact iff_of_false holds.1 (by simp)

theorem Holds.frame (holds : Holds n tree) (same : ∀ i ∈ inorder tree, n' i = n i) :
    Holds n' tree := by
  induction tree with
  | nil => trivial
  | node i left right leftIh rightIh =>
      obtain ⟨real, toLeft, toRight, fits, inLeft, inRight⟩ := holds
      have here := same i (by simp)
      refine ⟨real, ?_, ?_, ?_, ?_, ?_⟩
      · rw [here, toLeft]
      · rw [here, toRight]
      · rw [here, fits]
      · exact leftIh inLeft fun j member => same j (by simp [member])
      · exact rightIh inRight fun j member => same j (by simp [member])

theorem Rewired.refl (t : AvlTree) (touched : List Nat) : Rewired t t touched :=
  ⟨fun _ => rfl, fun _ _ => rfl, rfl, rfl, rfl⟩

theorem Rewired.trans (one : Rewired first second touched) (two : Rewired second third touched) :
    Rewired first third touched where
  entry i := (two.entry i).trans (one.entry i)
  others i outside := (two.others i outside).trans (one.others i outside)
  root := two.root.trans one.root
  freeHead := two.freeHead.trans one.freeHead
  count := two.count.trans one.count

theorem Rewired.mono (rewired : Rewired first second touched) (more : touched ⊆ other) :
    Rewired first second other :=
  { rewired with others := fun i outside => rewired.others i fun member => outside (more member) }

theorem Linked.frame (linked : Linked n i left right)
    (same : ∀ j ∈ inorder (.node i left right), n' j = n j) : Linked n' i left right where
  real := linked.real
  toLeft := by rw [same i (by simp), linked.toLeft]
  toRight := by rw [same i (by simp), linked.toRight]
  left := linked.left.frame fun j member => same j (by simp [member])
  right := linked.right.frame fun j member => same j (by simp [member])

theorem Rewired.frame (rewired : Rewired first second touched) (holds : Holds first.n tree)
    (apart : ∀ i ∈ inorder tree, i ∉ touched) : Holds second.n tree :=
  holds.frame fun i member => rewired.others i (apart i member)

@[simp] theorem set_node_same (t : AvlTree) (i : Nat) (node : AvlNode) :
    (t.setNode i node).n i = node := by
  simp [setNode]

theorem set_node_other (t : AvlTree) {i j : Nat} (node : AvlNode) (different : j ≠ i) :
    (t.setNode i node).n j = t.n j := by
  simp [setNode, different]

/-- A node that keeps its entry was only rewired. -/
theorem set_node_rewired (t : AvlTree) (i : Nat) {node : AvlNode}
    (same : node.entry = (t.n i).entry) : Rewired t (t.setNode i node) [i] where
  entry j := by
    by_cases here : j = i
    · rw [here, set_node_same, same]
    · rw [set_node_other t node here]
  others j outside := set_node_other t node fun here => outside (by simp [here])
  root := rfl
  freeHead := rfl
  count := rfl

theorem set_left_rewired (t : AvlTree) (i child : Nat) : Rewired t (t.setLeft i child) [i] :=
  set_node_rewired t i rfl

theorem set_right_rewired (t : AvlTree) (i child : Nat) : Rewired t (t.setRight i child) [i] :=
  set_node_rewired t i rfl

theorem update_height_rewired (t : AvlTree) (i : Nat) : Rewired t (t.updateHeight i) [i] :=
  set_node_rewired t i rfl

theorem note_depth_rewired (t : AvlTree) (depth : Nat) : Rewired t (t.noteDepth depth) touched := by
  unfold noteDepth
  split
  · exact ⟨fun _ => rfl, fun _ _ => rfl, rfl, rfl, rfl⟩
  · exact Rewired.refl t touched

@[simp] theorem note_depth_n (t : AvlTree) (depth : Nat) : (t.noteDepth depth).n = t.n := by
  unfold noteDepth
  split <;> rfl

theorem note_depth_max (t : AvlTree) (depth : Nat) :
    (t.noteDepth depth).maxDepth = max t.maxDepth depth := by
  unfold noteDepth
  by_cases deeper : t.maxDepth < depth
  · rw [if_pos deeper]
    exact (Nat.max_eq_right deeper.le).symm
  · rw [if_neg deeper]
    exact (Nat.max_eq_left (not_lt.mp deeper)).symm

theorem set_left_linked (real : i ≠ treeNil) (toRight : (t.n i).right = rootIndex right)
    (inRight : Holds t.n right) (holds : Holds t.n tree) (outTree : i ∉ inorder tree)
    (outRight : i ∉ inorder right) : Linked (t.setLeft i (rootIndex tree)).n i tree right where
  real := real
  toLeft := by simp [setLeft]
  toRight := by simpa [setLeft] using toRight
  left := (set_left_rewired t i _).frame holds fun j member here =>
    outTree (by rwa [List.mem_singleton.mp here] at member)
  right := (set_left_rewired t i _).frame inRight fun j member here =>
    outRight (by rwa [List.mem_singleton.mp here] at member)

theorem set_right_linked (real : i ≠ treeNil) (toLeft : (t.n i).left = rootIndex left)
    (inLeft : Holds t.n left) (holds : Holds t.n tree) (outTree : i ∉ inorder tree)
    (outLeft : i ∉ inorder left) : Linked (t.setRight i (rootIndex tree)).n i left tree where
  real := real
  toLeft := by simpa [setRight] using toLeft
  toRight := by simp [setRight]
  left := (set_right_rewired t i _).frame inLeft fun j member here =>
    outLeft (by rwa [List.mem_singleton.mp here] at member)
  right := (set_right_rewired t i _).frame holds fun j member here =>
    outTree (by rwa [List.mem_singleton.mp here] at member)

end Frames

section Heights

variable {t : AvlTree} {i : Nat} {left right : BinaryTree Nat}

theorem int8_small {value : Int} (low : 0 ≤ value) (high : value < 128) : int8 value = value := by
  unfold int8 Int.bmod
  rw [Int.emod_eq_of_lt low (by omega)]
  norm_num
  omega

theorem h_eq {tree : BinaryTree Nat} (holds : Holds t.n tree) :
    t.h (rootIndex tree) = tree.height := by
  cases tree with
  | nil => rfl
  | node i left right =>
      unfold h rootIndex
      rw [if_neg holds.1, holds.2.2.2.1]

theorem Linked.update_height (linked : Linked t.n i left right)
    (nodup : (inorder (.node i left right)).Nodup)
    (small : (BinaryTree.node i left right).height < 128) :
    Holds (t.updateHeight i).n (.node i left right) := by
  have apart := List.nodup_append.mp nodup
  have outLeft : i ∉ inorder left := fun member => apart.2.2 i member i List.mem_cons_self rfl
  have outRight : i ∉ inorder right := (List.nodup_cons.mp apart.2.1).1
  have rewired := update_height_rewired t i
  have value : int8 (1 + if t.h (t.n i).right < t.h (t.n i).left then t.h (t.n i).left
      else t.h (t.n i).right) = (BinaryTree.node i left right).height := by
    rw [linked.toLeft, linked.toRight, h_eq linked.left, h_eq linked.right]
    simp only [height] at small ⊢
    split
    · rw [int8_small (by omega) (by omega)]
      omega
    · rw [int8_small (by omega) (by omega)]
      omega
  refine ⟨linked.real, ?_, ?_, ?_, ?_, ?_⟩
  · simpa [updateHeight] using linked.toLeft
  · simpa [updateHeight] using linked.toRight
  · simpa only [updateHeight, set_node_same] using value
  · exact rewired.frame linked.left fun j member here =>
      outLeft (by rwa [List.mem_singleton.mp here] at member)
  · exact rewired.frame linked.right fun j member here =>
      outRight (by rwa [List.mem_singleton.mp here] at member)

end Heights

section Rotations

variable {t : AvlTree} {x y : Nat} {a b c : BinaryTree Nat}

theorem rotate_right_holds (linked : Linked t.n y (.node x a b) c)
    (nodup : (inorder (.node y (.node x a b) c)).Nodup)
    (small : (BinaryTree.node x a (.node y b c)).height < 128) :
    (t.rotateRight y).2 = x ∧ Holds (t.rotateRight y).1.n (.node x a (.node y b c)) ∧
      Rewired t (t.rotateRight y).1 [y, x] := by
  have child : (t.n y).left = x := linked.toLeft
  have inner := linked.left.linked
  have turned : (inorder (.node x a (.node y b c))).Nodup := by simpa using nodup
  have innerNodup : (inorder (.node y b c)).Nodup :=
    (List.nodup_cons.mp (List.nodup_append.mp turned).2.1).2
  have xOut : x ∉ inorder (.node y b c) :=
    (List.nodup_cons.mp (List.nodup_append.mp turned).2.1).1
  have xApart : x ∉ inorder a := fun member =>
    (List.nodup_append.mp turned).2.2 x member x List.mem_cons_self rfl
  have yApart : y ∉ inorder a := fun member =>
    (List.nodup_append.mp turned).2.2 y member y (by simp) rfl
  have yOut : y ∉ inorder b ∧ y ∉ inorder c := by
    obtain ⟨_, rest, apart⟩ := List.nodup_append.mp innerNodup
    exact ⟨fun member => apart y member y List.mem_cons_self rfl, (List.nodup_cons.mp rest).1⟩
  have different : x ≠ y := fun same => xOut (by simp [same])
  have smaller : (BinaryTree.node y b c).height < 128 := by
    simp only [height] at small ⊢
    omega
  have first := set_left_linked linked.real linked.toRight linked.right inner.right yOut.1 yOut.2
  rw [← inner.toRight] at first
  have second : Linked ((t.setLeft y (t.n x).right).setRight x y).n y b c :=
    first.frame fun j member => (set_right_rewired _ x y).others j fun here =>
      xOut (by rwa [List.mem_singleton.mp here] at member)
  have third := second.update_height innerNodup smaller
  have xLinks : Linked ((((t.setLeft y (t.n x).right).setRight x y).updateHeight y).n) x a
      (.node y b c) := by
    have kept := (update_height_rewired ((t.setLeft y (t.n x).right).setRight x y) y).others x
      (by simp [different])
    refine ⟨inner.real, ?_, ?_, ?_, third⟩
    · rw [kept]
      simpa [setRight, setLeft, set_node_other _ _ different] using inner.toLeft
    · rw [kept]
      simp [setRight, rootIndex]
    · apply inner.left.frame
      intro j member
      have notX : j ≠ x := fun here => xApart (here ▸ member)
      have notY : j ≠ y := fun here => yApart (here ▸ member)
      simp [updateHeight, setRight, setLeft, set_node_other, notX, notY]
  have fourth := xLinks.update_height turned small
  have rewired : Rewired t ((((t.setLeft y (t.n x).right).setRight x y).updateHeight y).updateHeight
      x) [y, x] := by
    have start := (set_left_rewired t y (t.n x).right).mono (by simp : [y] ⊆ [y, x])
    have next := (set_right_rewired (t.setLeft y (t.n x).right) x y).mono (by simp : [x] ⊆ [y, x])
    have later := (update_height_rewired ((t.setLeft y (t.n x).right).setRight x y) y).mono
      (by simp : [y] ⊆ [y, x])
    have last := (update_height_rewired (((t.setLeft y (t.n x).right).setRight x y).updateHeight y)
      x).mono (by simp : [x] ⊆ [y, x])
    exact ((start.trans next).trans later).trans last
  unfold rotateRight
  rw [child]
  exact ⟨rfl, fourth, rewired⟩

theorem rotate_left_holds (linked : Linked t.n x a (.node y b c))
    (nodup : (inorder (.node x a (.node y b c))).Nodup)
    (small : (BinaryTree.node y (.node x a b) c).height < 128) :
    (t.rotateLeft x).2 = y ∧ Holds (t.rotateLeft x).1.n (.node y (.node x a b) c) ∧
      Rewired t (t.rotateLeft x).1 [x, y] := by
  have child : (t.n x).right = y := linked.toRight
  have inner := linked.right.linked
  have turned : (inorder (.node y (.node x a b) c)).Nodup := by simpa using nodup
  obtain ⟨innerNodup, rest, apart⟩ := List.nodup_append.mp turned
  have yApart : y ∉ inorder c := (List.nodup_cons.mp rest).1
  have yOut : y ∉ inorder (.node x a b) := fun member =>
    apart y member y List.mem_cons_self rfl
  have xApart : x ∉ inorder c := fun member =>
    apart x (by simp) x (List.mem_cons_of_mem _ member) rfl
  have xOut : x ∉ inorder a ∧ x ∉ inorder b := by
    obtain ⟨_, behind, before⟩ := List.nodup_append.mp innerNodup
    exact ⟨fun member => before x member x List.mem_cons_self rfl, (List.nodup_cons.mp behind).1⟩
  have different : y ≠ x := fun same => yOut (by simp [same])
  have smaller : (BinaryTree.node x a b).height < 128 := by
    simp only [height] at small ⊢
    omega
  have first := set_right_linked linked.real linked.toLeft linked.left inner.left xOut.2 xOut.1
  rw [← inner.toLeft] at first
  have second : Linked ((t.setRight x (t.n y).left).setLeft y x).n x a b :=
    first.frame fun j member => (set_left_rewired _ y x).others j fun here =>
      yOut (by rwa [List.mem_singleton.mp here] at member)
  have third := second.update_height innerNodup smaller
  have yLinks : Linked ((((t.setRight x (t.n y).left).setLeft y x).updateHeight x).n) y
      (.node x a b) c := by
    have kept := (update_height_rewired ((t.setRight x (t.n y).left).setLeft y x) x).others y
      (by simp [different])
    refine ⟨inner.real, ?_, ?_, third, ?_⟩
    · rw [kept]
      simp [setLeft, rootIndex]
    · rw [kept]
      simpa [setRight, setLeft, set_node_other _ _ different] using inner.toRight
    · apply inner.right.frame
      intro j member
      have notX : j ≠ x := fun here => xApart (here ▸ member)
      have notY : j ≠ y := fun here => yApart (here ▸ member)
      simp [updateHeight, setRight, setLeft, set_node_other, notX, notY]
  have fourth := yLinks.update_height turned small
  have rewired : Rewired t ((((t.setRight x (t.n y).left).setLeft y x).updateHeight x).updateHeight
      y) [x, y] := by
    have start := (set_right_rewired t x (t.n y).left).mono (by simp : [x] ⊆ [x, y])
    have next := (set_left_rewired (t.setRight x (t.n y).left) y x).mono (by simp : [y] ⊆ [x, y])
    have later := (update_height_rewired ((t.setRight x (t.n y).left).setLeft y x) x).mono
      (by simp : [x] ⊆ [x, y])
    have last := (update_height_rewired (((t.setRight x (t.n y).left).setLeft y x).updateHeight x)
      y).mono (by simp : [y] ⊆ [x, y])
    exact ((start.trans next).trans later).trans last
  unfold rotateLeft
  rw [child]
  exact ⟨rfl, fourth, rewired⟩

end Rotations

section Rebalancing

variable {t : AvlTree} {i x y : Nat} {a c d left right : BinaryTree Nat}

theorem node_apart (nodup : (inorder (.node i left right)).Nodup) :
    (inorder left).Nodup ∧ (inorder right).Nodup ∧ i ∉ inorder left ∧ i ∉ inorder right ∧
      ∀ j ∈ inorder left, j ∉ inorder right := by
  obtain ⟨leftNodup, rest, apart⟩ := List.nodup_append.mp nodup
  obtain ⟨outRight, rightNodup⟩ := List.nodup_cons.mp rest
  exact ⟨leftNodup, rightNodup, fun member => apart i member i List.mem_cons_self rfl, outRight,
    fun j inLeft inRight => apart j inLeft j (List.mem_cons_of_mem _ inRight) rfl⟩

theorem rotate_left_right_holds (linked : Linked t.n i (.node x a (.node y c d)) right)
    (nodup : (inorder (.node i (.node x a (.node y c d)) right)).Nodup)
    (small : max (BinaryTree.node x a (.node y c d)).height right.height < 126) :
    (((t.rotateLeft x).1.setLeft i (t.rotateLeft x).2).rotateRight i).2 = y ∧
      Holds (((t.rotateLeft x).1.setLeft i (t.rotateLeft x).2).rotateRight i).1.n
        (.node y (.node x a c) (.node i d right)) ∧
      Rewired t (((t.rotateLeft x).1.setLeft i (t.rotateLeft x).2).rotateRight i).1
        (inorder (.node i (.node x a (.node y c d)) right)) := by
  obtain ⟨leftNodup, _, outLeft, outRight, apart⟩ := node_apart nodup
  simp only [height] at small
  obtain ⟨top, held, turned⟩ := rotate_left_holds linked.left.linked leftNodup
    (by simp only [height]; omega)
  have inside : [x, y] ⊆ inorder (.node x a (.node y c d)) := by simp
  have here : i ∉ [x, y] := fun member => outLeft (inside member)
  have toRight : ((t.rotateLeft x).1.n i).right = rootIndex right := by
    rw [turned.others i here, linked.toRight]
  have inRight : Holds (t.rotateLeft x).1.n right :=
    turned.frame linked.right fun j member touched => apart j (inside touched) member
  have links := set_left_linked linked.real toRight inRight held (by simpa using outLeft) outRight
  obtain ⟨result, final, last⟩ := rotate_right_holds links (by simpa using nodup)
    (by simp only [height]; omega)
  have first := turned.mono (by simp : [x, y] ⊆ inorder (.node i (.node x a (.node y c d)) right))
  have second := (set_left_rewired (t.rotateLeft x).1 i y).mono
    (by simp : [i] ⊆ inorder (.node i (.node x a (.node y c d)) right))
  have third := last.mono (by simp : [i, y] ⊆ inorder (.node i (.node x a (.node y c d)) right))
  rw [top]
  exact ⟨result, final, (first.trans second).trans third⟩

theorem rotate_right_left_holds (linked : Linked t.n i left (.node x (.node y c d) a))
    (nodup : (inorder (.node i left (.node x (.node y c d) a))).Nodup)
    (small : max left.height (BinaryTree.node x (.node y c d) a).height < 126) :
    (((t.rotateRight x).1.setRight i (t.rotateRight x).2).rotateLeft i).2 = y ∧
      Holds (((t.rotateRight x).1.setRight i (t.rotateRight x).2).rotateLeft i).1.n
        (.node y (.node i left c) (.node x d a)) ∧
      Rewired t (((t.rotateRight x).1.setRight i (t.rotateRight x).2).rotateLeft i).1
        (inorder (.node i left (.node x (.node y c d) a))) := by
  obtain ⟨_, rightNodup, outLeft, outRight, apart⟩ := node_apart nodup
  simp only [height] at small
  obtain ⟨top, held, turned⟩ := rotate_right_holds linked.right.linked rightNodup
    (by simp only [height]; omega)
  have inside : [x, y] ⊆ inorder (.node x (.node y c d) a) := by simp
  have here : i ∉ [x, y] := fun member => outRight (inside member)
  have toLeft : ((t.rotateRight x).1.n i).left = rootIndex left := by
    rw [turned.others i here, linked.toLeft]
  have inLeft : Holds (t.rotateRight x).1.n left :=
    turned.frame linked.left fun j member touched => apart j member (inside touched)
  have links := set_right_linked linked.real toLeft inLeft held (by simpa using outRight) outLeft
  obtain ⟨result, final, last⟩ := rotate_left_holds links (by simpa using nodup)
    (by simp only [height]; omega)
  have first := turned.mono (by simp : [x, y] ⊆ inorder (.node i left (.node x (.node y c d) a)))
  have second := (set_right_rewired (t.rotateRight x).1 i y).mono
    (by simp : [i] ⊆ inorder (.node i left (.node x (.node y c d) a)))
  have third := last.mono (by simp : [i, y] ⊆ inorder (.node i left (.node x (.node y c d) a)))
  rw [top]
  exact ⟨result, final, (first.trans second).trans third⟩

theorem rebalance_holds (linked : Linked t.n i left right)
    (nodup : (inorder (.node i left right)).Nodup) (small : max left.height right.height < 126) :
    (t.rebalance i).2 = rootIndex (BalancedTree.rebalance (.node i left right)) ∧
      Holds (t.rebalance i).1.n (BalancedTree.rebalance (.node i left right)) ∧
      Rewired t (t.rebalance i).1 (inorder (.node i left right)) := by
  have fits : (BinaryTree.node i left right).height < 128 := by
    simp only [height]
    omega
  have updated := linked.update_height nodup fits
  have links := updated.linked
  have start := (update_height_rewired t i).mono (by simp : [i] ⊆ inorder (.node i left right))
  have leftHeight := h_eq links.left
  have rightHeight := h_eq links.right
  rw [← links.toLeft] at leftHeight
  rw [← links.toRight] at rightHeight
  unfold rebalance
  simp only [leftHeight, rightHeight, BalancedTree.rebalance]
  by_cases leftHeavy : right.height + 1 < left.height
  · rw [if_pos (by omega), if_pos leftHeavy]
    cases left with
    | nil => exact absurd leftHeavy (by simp)
    | node x a b =>
        have inner := links.left.linked
        have child : ((t.updateHeight i).n i).left = x := links.toLeft
        have aHeight := h_eq inner.left
        have bHeight := h_eq inner.right
        rw [← inner.toLeft] at aHeight
        rw [← inner.toRight] at bHeight
        rw [child, aHeight, bHeight]
        by_cases zigzag : a.height < b.height
        · rw [if_pos (by omega), if_pos (by simpa using zigzag)]
          cases b with
          | nil => exact absurd zigzag (by simp)
          | node y c d =>
              obtain ⟨top, held, turned⟩ := rotate_left_right_holds links nodup small
              exact ⟨top, held, start.trans turned⟩
        · rw [if_neg (by omega), if_neg (by simpa using zigzag)]
          obtain ⟨top, held, turned⟩ := rotate_right_holds links nodup (by
            simp only [height] at small ⊢
            omega)
          exact ⟨top, held, start.trans (turned.mono (by simp))⟩
  · rw [if_neg (by omega), if_neg leftHeavy]
    by_cases rightHeavy : left.height + 1 < right.height
    · rw [if_pos (by omega), if_pos rightHeavy]
      cases right with
      | nil => exact absurd rightHeavy (by simp)
      | node x b a =>
          have inner := links.right.linked
          have child : ((t.updateHeight i).n i).right = x := links.toRight
          have bHeight := h_eq inner.left
          have aHeight := h_eq inner.right
          rw [← inner.toLeft] at bHeight
          rw [← inner.toRight] at aHeight
          rw [child, aHeight, bHeight]
          by_cases zigzag : a.height < b.height
          · rw [if_pos (by omega), if_pos (by simpa using zigzag)]
            cases b with
            | nil => exact absurd zigzag (by simp)
            | node y c d =>
                obtain ⟨top, held, turned⟩ := rotate_right_left_holds links nodup small
                exact ⟨top, held, start.trans turned⟩
          · rw [if_neg (by omega), if_neg (by simpa using zigzag)]
            obtain ⟨top, held, turned⟩ := rotate_left_holds links nodup (by
              simp only [height] at small ⊢
              omega)
            exact ⟨top, held, start.trans (turned.mono (by simp))⟩
    · rw [if_neg (by omega), if_neg rightHeavy]
      exact ⟨rfl, updated, start⟩

theorem rebalance_maxDepth (t : AvlTree) (i : Nat) : (t.rebalance i).1.maxDepth = t.maxDepth := by
  unfold rebalance
  simp only
  split
  · split <;> rfl
  · split
    · split <;> rfl
    · rfl

end Rebalancing

end AvlTree

end SdDatabase
