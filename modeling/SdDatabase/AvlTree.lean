import SdDatabase.NameIndexCommon
import SdDatabase.Lib.Heapsort

/-!
# AVL tree of the name index

`avl_tree.c`: a balanced search tree in a pool of nodes that are addressed by
index. Free nodes are chained through their left links. Recursions take a bound
on their depth, and have no result if it is not enough.
-/

namespace SdDatabase

open Bytes

set_option autoImplicit false

def treeNil : Nat := 65535

def avlIterDepth : Nat := 24

/-- Conversions to the narrow integers of the nodes. -/
def int8 (value : Int) : Int := value.bmod 256

def uint8 (value : Nat) : Nat := value % 256

def uint16 (value : Nat) : Nat := value % 65536

structure AvlNode where
  key : Fin 8 → Byte
  contactIndex : Nat
  messageIndex : Nat
  left : Nat
  right : Nat
  height : Int

def AvlNode.entry (node : AvlNode) : SortedEntry :=
  ⟨node.key, node.contactIndex, node.messageIndex⟩

/-- The pool, and the deepest recursion so far (`avl_max_depth`). -/
structure AvlTree where
  n : Nat → AvlNode
  root : Nat
  freeHead : Nat
  count : Nat
  maxDepth : Nat

namespace AvlTree

def setNode (t : AvlTree) (i : Nat) (node : AvlNode) : AvlTree :=
  { t with n := Function.update t.n i node }

def setLeft (t : AvlTree) (i child : Nat) : AvlTree :=
  t.setNode i { t.n i with left := child }

def setRight (t : AvlTree) (i child : Nat) : AvlTree :=
  t.setNode i { t.n i with right := child }

def h (t : AvlTree) (i : Nat) : Int :=
  if i = treeNil then 0 else (t.n i).height

def updateHeight (t : AvlTree) (i : Nat) : AvlTree :=
  let hl := t.h (t.n i).left
  let hr := t.h (t.n i).right
  t.setNode i { t.n i with height := int8 (1 + if hr < hl then hl else hr) }

def noteDepth (t : AvlTree) (depth : Nat) : AvlTree :=
  if t.maxDepth < depth then { t with maxDepth := depth } else t

def rotateRight (t : AvlTree) (y : Nat) : AvlTree × Nat :=
  let x := (t.n y).left
  let t := t.setLeft y (t.n x).right
  let t := t.setRight x y
  ((t.updateHeight y).updateHeight x, x)

def rotateLeft (t : AvlTree) (x : Nat) : AvlTree × Nat :=
  let y := (t.n x).right
  let t := t.setRight x (t.n y).left
  let t := t.setLeft y x
  ((t.updateHeight x).updateHeight y, y)

/-- `rebalance` with the new root of the subtree. -/
def rebalance (t : AvlTree) (i : Nat) : AvlTree × Nat :=
  let t := t.updateHeight i
  let bf := t.h (t.n i).left - t.h (t.n i).right
  if 1 < bf then
    let l := (t.n i).left
    if t.h (t.n l).left < t.h (t.n l).right then
      let (t, child) := t.rotateLeft l
      (t.setLeft i child).rotateRight i
    else t.rotateRight i
  else if bf < -1 then
    let r := (t.n i).right
    if t.h (t.n r).right < t.h (t.n r).left then
      let (t, child) := t.rotateRight r
      (t.setRight i child).rotateLeft i
    else t.rotateLeft i
  else (t, i)

def nodeAlloc (t : AvlTree) : Nat × AvlTree :=
  let i := t.freeHead
  if i ≠ treeNil then (i, { t with freeHead := (t.n i).left }) else (i, t)

def nodeFree (t : AvlTree) (i : Nat) : AvlTree :=
  { t.setLeft i t.freeHead with freeHead := i }

section Search

variable (tiebreak : Nat → Nat → Int)

def nodeCmp (t : AvlTree) (key : Fin 8 → Byte) (sector i : Nat) : Int :=
  niCmp key sector (t.n i).key (t.n i).contactIndex tiebreak

/-- `insert_rec`: the new root of the subtree and whether the node was new. -/
def insertRec (fresh : Nat) : Nat → AvlTree → Nat → Nat → Option (AvlTree × Nat × Bool)
  | 0, _, _, _ => none
  | fuel + 1, t, i, depth =>
      if i = treeNil then some (t.noteDepth depth, fresh, true)
      else
        let c := t.nodeCmp tiebreak (t.n fresh).key (t.n fresh).contactIndex i
        if c = 0 then some (t.noteDepth depth, i, false)
        else if c < 0 then
          (insertRec fresh fuel t (t.n i).left (uint8 (depth + 1))).map fun (t, child, ok) =>
            let (t, root) := (t.setLeft i child).rebalance i
            (t, root, ok)
        else
          (insertRec fresh fuel t (t.n i).right (uint8 (depth + 1))).map fun (t, child, ok) =>
            let (t, root) := (t.setRight i child).rebalance i
            (t, root, ok)

/-- `remove_min_rec`: the new root of the subtree and the node that left it. -/
def removeMinRec : Nat → AvlTree → Nat → Nat → Option (AvlTree × Nat × Nat)
  | 0, _, _, _ => none
  | fuel + 1, t, i, depth =>
      if (t.n i).left = treeNil then some (t.noteDepth depth, (t.n i).right, i)
      else
        (removeMinRec fuel t (t.n i).left (uint8 (depth + 1))).map fun (t, child, min) =>
          let (t, root) := (t.setLeft i child).rebalance i
          (t, root, min)

/-- The node that is found goes back to the pool and its successor takes its place. -/
def removeNode (fuel : Nat) (t : AvlTree) (i depth : Nat) : Option (AvlTree × Nat) :=
  let l := (t.n i).left
  let r := (t.n i).right
  let t := t.nodeFree i
  if l = treeNil then some (t.noteDepth depth, r)
  else if r = treeNil then some (t.noteDepth depth, l)
  else
    (removeMinRec fuel t r (uint8 (depth + 1))).map fun (t, r, succ) =>
      ((t.setLeft succ l).setRight succ r).rebalance succ

/-- `remove_rec`: the new root of the subtree and whether the place was there. -/
def removeRec (key : Fin 8 → Byte) (sector : Nat) :
    Nat → AvlTree → Nat → Nat → Option (AvlTree × Nat × Bool)
  | 0, _, _, _ => none
  | fuel + 1, t, i, depth =>
      if i = treeNil then some (t.noteDepth depth, treeNil, false)
      else
        let c := t.nodeCmp tiebreak key sector i
        if c < 0 then
          (removeRec key sector fuel t (t.n i).left (uint8 (depth + 1))).map fun (t, child, ok) =>
            let (t, root) := (t.setLeft i child).rebalance i
            (t, root, ok)
        else if 0 < c then
          (removeRec key sector fuel t (t.n i).right (uint8 (depth + 1))).map fun (t, child, ok) =>
            let (t, root) := (t.setRight i child).rebalance i
            (t, root, ok)
        else (removeNode fuel t i depth).map fun (t, root) => (t, root, true)

/-- The loop of `find_exact`. -/
def findExactFrom (t : AvlTree) (key : Fin 8 → Byte) (sector : Nat) : Nat → Nat → Option Nat
  | 0, _ => none
  | fuel + 1, i =>
      if i = treeNil then some treeNil
      else
        let c := t.nodeCmp tiebreak key sector i
        if c = 0 then some i
        else findExactFrom t key sector fuel (if c < 0 then (t.n i).left else (t.n i).right)

/-- The loop of `avl_find`. -/
def findFrom (t : AvlTree) (key : Fin 8 → Byte) : Nat → Nat → Nat → Option Nat
  | 0, _, _ => none
  | fuel + 1, i, found =>
      if i = treeNil then some found
      else
        let c := niCmp (t.n i).key (t.n i).contactIndex key niProbeSector tiebreak
        if 0 ≤ c then findFrom t key fuel (t.n i).left (if c = 0 then i else found)
        else findFrom t key fuel (t.n i).right found

end Search

section Calls

variable (capacity : Nat) (tiebreak : Nat → Nat → Int)

/-- `avl_init`: every node is on the free list. -/
def avlInit (t : AvlTree) : AvlTree where
  n i :=
    if i + 1 = capacity then { t.n i with left := treeNil }
    else if i < capacity then { t.n i with left := i + 1 }
    else t.n i
  root := treeNil
  freeHead := 0
  count := 0
  maxDepth := t.maxDepth

def avlInsertKey (t : AvlTree) (key : Fin 8 → Byte) (contactIndex : Nat) :
    Option (Bool × AvlTree) :=
  let (fresh, t) := t.nodeAlloc
  if fresh = treeNil then some (false, t)
  else
    let t := t.setNode fresh ⟨key, contactIndex, noMessage, treeNil, treeNil, 1⟩
    (insertRec tiebreak fresh (capacity + 1) t t.root 1).map fun (t, root, ok) =>
      let t := { t with root }
      if !ok then (false, t.nodeFree fresh)
      else (true, { t with count := uint16 (t.count + 1) })

def avlInsert (t : AvlTree) (name : List Byte) (contactIndex : Nat) : Option (Bool × AvlTree) :=
  t.avlInsertKey capacity tiebreak (niMakeKey name) contactIndex

def avlRemove (t : AvlTree) (name : List Byte) (contactIndex : Nat) : Option (Bool × AvlTree) :=
  (removeRec tiebreak (niMakeKey name) contactIndex (capacity + 1) t t.root 1).map
    fun (t, root, ok) =>
      let t := { t with root }
      (ok, if ok then { t with count := uint16 (t.count + 65535) } else t)

def avlFind (t : AvlTree) (name : List Byte) : Option Nat :=
  (t.findFrom tiebreak (niMakeKey name) (capacity + 1) t.root treeNil).map fun found =>
    if found = treeNil then niNotFound else (t.n found).contactIndex

def avlSetMessage (t : AvlTree) (name : List Byte) (contactIndex messageIndex : Nat) :
    Option (Bool × AvlTree) :=
  (t.findExactFrom tiebreak (niMakeKey name) contactIndex (capacity + 1) t.root).map fun i =>
    if i = treeNil then (false, t)
    else (true, t.setNode i { t.n i with messageIndex })

def avlCount (t : AvlTree) : Nat := t.count

def avlHeight (t : AvlTree) : Int := t.h t.root

/-- `valid_rec` with the nodes seen so far; `-1` is a failure. -/
def validRec (t : AvlTree) : Nat → Nat → Nat → Option (Int × Nat)
  | 0, _, _ => none
  | fuel + 1, i, seen =>
      if i = treeNil then some (0, seen)
      else if capacity ≤ i then some (-1, seen)
      else
        let seen := uint16 (seen + 1)
        if t.count < seen then some (-1, seen)
        else
          (validRec t fuel (t.n i).left seen).bind fun (hl, seen) =>
            (validRec t fuel (t.n i).right seen).map fun (hr, seen) =>
              if hl < 0 ∨ hr < 0 ∨ 1 < hl - hr ∨ 1 < hr - hl then (-1, seen)
              else
                let hi := 1 + if hr < hl then hl else hr
                (if hi = (t.n i).height then hi else -1, seen)

def avlValid (t : AvlTree) : Option Bool :=
  (t.validRec capacity (capacity + 1) t.root 0).map fun (height, seen) =>
    decide (0 ≤ height) && decide (seen = t.count)

end Calls

section Iterators

variable (capacity : Nat) (tiebreak : Nat → Nat → Int)

/-- `push_left` on a stack with so much room. -/
def pushLeftFrom (t : AvlTree) : Nat → List Nat → Nat → Bool × List Nat
  | 0, stack, i => (decide (i = treeNil), stack)
  | room + 1, stack, i =>
      if i = treeNil then (true, stack)
      else pushLeftFrom t room (i :: stack) (t.n i).left

def pushLeft (t : AvlTree) (stack : List Nat) (i : Nat) : Bool × List Nat :=
  t.pushLeftFrom (avlIterDepth - stack.length) stack i

def avlBegin (t : AvlTree) : Bool × List Nat :=
  t.pushLeft [] t.root

def avlNext (t : AvlTree) : List Nat → Option (SortedEntry × List Nat)
  | [] => none
  | i :: stack => some ((t.n i).entry, (t.pushLeft stack (t.n i).right).2)

/-- The loop of `avl_seek_rank`. -/
def seekRankFrom (t : AvlTree) : Nat → List Nat → Bool × List Nat
  | 0, stack => (!stack.isEmpty, stack)
  | _ + 1, [] => (false, [])
  | rank + 1, i :: stack => seekRankFrom t rank (t.pushLeft stack (t.n i).right).2

def avlSeekRank (t : AvlTree) (rank : Nat) : Bool × List Nat :=
  let (shallow, stack) := t.avlBegin
  if !shallow then (false, stack) else t.seekRankFrom rank stack

/-- The loop of `avl_seek`. -/
def seekFrom (t : AvlTree) (key : Fin 8 → Byte) : Nat → List Nat → Nat → Option (Bool × List Nat)
  | 0, _, _ => none
  | fuel + 1, stack, i =>
      if i = treeNil then some (true, stack)
      else if 0 ≤ niCmp (t.n i).key (t.n i).contactIndex key niProbeSector tiebreak then
        if avlIterDepth ≤ stack.length then some (false, stack)
        else seekFrom t key fuel (i :: stack) (t.n i).left
      else seekFrom t key fuel stack (t.n i).right

def avlSeek (t : AvlTree) (name : List Byte) : Option (Bool × List Nat) :=
  t.seekFrom tiebreak (niMakeKey name) (capacity + 1) [] t.root

/-- Up to so many entries from an iterator on. -/
def avlPage (t : AvlTree) : Nat → List Nat → List SortedEntry
  | 0, _ => []
  | count + 1, stack =>
      match t.avlNext stack with
      | none => []
      | some (entry, stack) => entry :: avlPage t count stack

end Iterators

section Rebuild

variable (capacity : Nat) (tiebreak : Nat → Nat → Int)

def avlRebuildBegin (t : AvlTree) : AvlTree :=
  { t with root := treeNil, count := 0 }

def avlRebuildAdd (t : AvlTree) (key : Fin 8 → Byte) (contactIndex : Nat) : Bool × AvlTree :=
  if capacity ≤ t.count then (false, t)
  else
    (true, { t.setNode t.count { t.n t.count with key, contactIndex, messageIndex := noMessage }
      with count := uint16 (t.count + 1) })

/-- Compare two nodes of the pool in `sift_down`. -/
def nodesCmp (first second : AvlNode) : Int :=
  niCmp first.key first.contactIndex second.key second.contactIndex tiebreak

def linkBalanced : Nat → AvlTree → Int → Int → Nat → Option (AvlTree × Nat)
  | 0, _, _, _, _ => none
  | fuel + 1, t, lo, hi, depth =>
      if hi < lo then some (t, treeNil)
      else
        let t := t.noteDepth depth
        let mid := lo + (hi - lo) / 2
        (linkBalanced fuel t lo (mid - 1) (uint8 (depth + 1))).bind fun (t, left) =>
          let t := t.setLeft mid.toNat left
          (linkBalanced fuel t (mid + 1) hi (uint8 (depth + 1))).map fun (t, right) =>
            ((t.setRight mid.toNat right).updateHeight mid.toNat, mid.toNat)

/-- The loop that frees the nodes `index - 1, ..., n`. -/
def freeFrom (n : Nat) : Nat → AvlTree → AvlTree
  | 0, t => t
  | index + 1, t => if index < n then t else freeFrom n index (t.nodeFree index)

def sortNodes (t : AvlTree) : AvlTree :=
  let sorted := Heapsort.sortedBy (nodesCmp tiebreak) ((List.range t.count).map t.n)
  { t with n := fun i => (sorted[i]?).getD (t.n i) }

def avlRebuildFinish (t : AvlTree) : Option AvlTree :=
  let n := t.count
  let t := t.sortNodes tiebreak
  (linkBalanced (n + 1) t 0 ((n : Int) - 1) 1).map fun (t, root) =>
    freeFrom n capacity { t with root, freeHead := treeNil }

/-- The loop of `avl_rebuild` over the names and their sectors. -/
def rebuildAdds (t : AvlTree) : List (List Byte × Nat) → AvlTree
  | [] => t
  | (name, sector) :: rest => rebuildAdds (t.avlRebuildAdd capacity (niMakeKey name) sector).2 rest

def avlRebuild (t : AvlTree) (contacts : List (List Byte × Nat)) : Option (Bool × AvlTree) :=
  let t := t.avlRebuildBegin
  if capacity < contacts.length then some (false, t.avlInit capacity)
  else
    ((t.rebuildAdds capacity contacts).avlRebuildFinish capacity tiebreak).map fun t => (true, t)

end Rebuild

end AvlTree

end SdDatabase
