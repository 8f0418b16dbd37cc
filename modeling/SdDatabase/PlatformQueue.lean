import SdDatabase.Lib.CircularWindow

/-!
# Queues between tasks

`platform_os_host.c`: a bounded queue of fixed size items, copied in and out by
value. Under its mutex a send or a receive is one step; where the source waits
on a condition variable the step is not possible yet.
-/

namespace SdDatabase

open CircularWindow

set_option autoImplicit false

/-- `indexable` keeps `head + count` within its 32 bits; the queues of the phone
hold five items at most. -/
structure PlatformQueue (A : Type) where
  buf : List A
  length : Nat
  head : Nat
  count : Nat
  allocated : buf.length = length
  indexable : 2 * length ≤ 2 ^ 32
  front : head < length
  bounded : count ≤ length

section Operations

variable {A B : Type}

/-- `platform_os_QueueCreate`; the allocated buffer has any content. -/
def platformOsQueueCreate (length : Nat) (buf : Vector A length) (positive : 0 < length)
    (indexable : 2 * length ≤ 2 ^ 32) : PlatformQueue A where
  buf := buf.toList
  length := length
  head := 0
  count := 0
  allocated := buf.length_toList
  indexable := indexable
  front := positive
  bounded := Nat.zero_le _

/-- `platform_os_QueueSend`; `none` while the queue is full. -/
def platformOsQueueSend (queue : PlatformQueue A) (item : A) : Option (PlatformQueue A) :=
  if full : queue.count = queue.length then none
  else
    let tail := (queue.head + queue.count) % 2 ^ 32 % queue.length
    some { queue with
      buf := queue.buf.set tail item
      count := queue.count + 1
      allocated := List.length_set.trans queue.allocated
      bounded := Nat.lt_of_le_of_ne queue.bounded full }

/-- `platform_os_QueueReceive`; `none` while the queue is empty. -/
def platformOsQueueReceive (queue : PlatformQueue A) : Option (A × PlatformQueue A) :=
  if queue.count = 0 then none
  else
    some (queue.buf.get ⟨queue.head, queue.allocated ▸ queue.front⟩,
      { queue with
        head := (queue.head + 1) % queue.length
        count := queue.count - 1
        front := Nat.mod_lt _ (Nat.zero_lt_of_lt queue.front)
        bounded := Nat.le_trans (Nat.sub_le _ _) queue.bounded })

end Operations

namespace PlatformQueue

variable {A B : Type}

/-- The items that wait, the next one to be received first. -/
def contents (queue : PlatformQueue A) : List A :=
  window queue.buf queue.head queue.count

theorem send_contents {queue later : PlatformQueue A} {item : A}
    (sent : platformOsQueueSend queue item = some later) :
    later.contents = queue.contents ++ [item] := by
  unfold platformOsQueueSend at sent
  by_cases full : queue.count = queue.length
  · rw [dif_pos full] at sent
    cases sent
  · rw [dif_neg full] at sent
    cases sent
    have room : queue.count < queue.buf.length := by
      rw [queue.allocated]
      exact Nat.lt_of_le_of_ne queue.bounded full
    have small : queue.head + queue.count < 2 ^ 32 := by
      have front := queue.front
      have bounded := queue.bounded
      have indexable := queue.indexable
      omega
    have pushed := window_push queue.buf queue.head queue.count item room
    rw [queue.allocated] at pushed
    simp only [contents, Nat.mod_eq_of_lt small, pushed]

/-- A receive takes the first item away. -/
theorem receive_contents {queue later : PlatformQueue A} {item : A}
    (received : platformOsQueueReceive queue = some (item, later)) :
    queue.contents = item :: later.contents := by
  unfold platformOsQueueReceive at received
  by_cases empty : queue.count = 0
  · rw [if_pos empty] at received
    cases received
  · rw [if_neg empty] at received
    cases received
    have inside : queue.head < queue.buf.length := by
      rw [queue.allocated]
      exact queue.front
    have positive : queue.count = queue.count - 1 + 1 := by omega
    have popped := window_pop queue.buf queue.head (queue.count - 1) inside (by
      rw [queue.allocated, ← positive]
      exact queue.bounded)
    rw [queue.allocated, ← positive] at popped
    simp only [contents, popped, List.get_eq_getElem]

end PlatformQueue

end SdDatabase
