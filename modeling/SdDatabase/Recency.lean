import SdDatabase.Model

/-!
# Changes of listing and recency

What the operations on name index and chat order do to the lists of the abstract
phone book.
-/

namespace SdDatabase

open Bytes Device

set_option autoImplicit false

theorem chat_order_find_some {order : ChatOrder} {hashSlot rank : Nat}
    (found : chatOrderFind order hashSlot = some rank) :
    order.mem.erase hashSlot = order.mem.eraseIdx rank := by
  have index : order.mem.idxOf? hashSlot = some rank := found
  rw [List.erase_eq_eraseIdx, index]

theorem chat_order_find_none {order : ChatOrder} {hashSlot : Nat}
    (found : chatOrderFind order hashSlot = none) : order.mem.erase hashSlot = order.mem := by
  have index : order.mem.idxOf? hashSlot = none := found
  rw [List.erase_eq_eraseIdx, index]

theorem chat_order_touch_eq {order : ChatOrder} {hashSlot : Nat}
    (room : hashSlot ∈ order.mem ∨ order.mem.length < chatOrderEntries) :
    chatOrderTouch order hashSlot = (.strgOk, ⟨hashSlot :: order.mem.erase hashSlot⟩) := by
  unfold chatOrderTouch
  cases found : chatOrderFind order hashSlot with
  | some rank =>
      rw [chat_order_find_some found]
  | none =>
      rw [chat_order_find_none found]
      have absent : hashSlot ∉ order.mem := by
        intro member
        have none_ := List.findIdx?_eq_none_iff.mp found hashSlot member
        simp at none_
      have short := room.resolve_left absent
      exact if_neg (not_le.mpr short)

theorem chat_order_remove_eq (order : ChatOrder) (hashSlot : Nat) :
    (chatOrderRemove order hashSlot).2 = ⟨order.mem.erase hashSlot⟩ := by
  unfold chatOrderRemove
  cases found : chatOrderFind order hashSlot with
  | some rank => rw [chat_order_find_some found]
  | none => rw [chat_order_find_none found]

/-- The list with one element replaced by another. -/
def renamed {A : Type} [DecidableEq A] (old new : A) (list : List A) : List A :=
  list.map fun other => if other = old then new else other

theorem renamed_absent {A : Type} [DecidableEq A] {old new : A} {list : List A}
    (absent : old ∉ list) : renamed old new list = list := by
  unfold renamed
  conv_rhs => rw [← List.map_id list]
  refine List.map_congr_left fun other member => ?_
  rw [if_neg fun same => absent (by rwa [← same])]
  rfl

theorem chat_order_replace_eq {order : ChatOrder} (nodup : order.mem.Nodup) (old new : Nat) :
    (chatOrderReplace order old new).2 = ⟨renamed old new order.mem⟩ := by
  rw [chatOrderReplace]
  cases found : chatOrderFind order old with
  | none =>
      have absent : old ∉ order.mem := by
        intro member
        have none_ := List.findIdx?_eq_none_iff.mp found old member
        simp at none_
      rw [renamed_absent absent]
  | some rank =>
      obtain ⟨bound, here, _⟩ := List.findIdx?_eq_some_iff_getElem.mp found
      have atRank : order.mem[rank] = old := by simpa using here
      change ChatOrder.mk (order.mem.set rank new) = _
      congr 1
      apply List.ext_getElem
      · simp [renamed]
      · intro index first second
        have inside : index < order.mem.length := by simpa using first
        simp only [renamed, List.getElem_set, List.getElem_map]
        by_cases same : rank = index
        · subst same
          rw [if_pos rfl, if_pos atRank]
        · have different : order.mem[index] ≠ old := by
            rw [← atRank]
            exact fun equal => same ((List.Nodup.getElem_inj_iff nodup).mp equal).symm
          rw [if_neg same, if_neg different]

theorem map_erase_on {A B : Type} [BEq A] [LawfulBEq A] [BEq B] [LawfulBEq B] (f : A → B)
    {list : List A}
    {value : A} (injective : ∀ other ∈ list, f other = f value → other = value) :
    (list.erase value).map f = (list.map f).erase (f value) := by
  induction list with
  | nil => rfl
  | cons head rest ih =>
      rw [List.map_cons]
      by_cases same : head = value
      · rw [same, List.erase_cons_head, List.erase_cons_head]
      · have different : f head ≠ f value := fun equal => same (injective head (by simp) equal)
        rw [List.erase_cons_tail (by simpa using same), List.map_cons,
          List.erase_cons_tail (by simpa using different),
          ih fun other member => injective other (by simp [member])]

section Listings

variable {listing : Listing} {person : Nat × Identity → Person}
  (keeps : ∀ item, (person item).identity = item.2)

include keeps

theorem map_placed (item : Nat × Identity) :
    (placed item listing).map person = Model.insert (person item) (listing.map person) := by
  rw [placed, Model.insert, List.map_append, List.map_cons, List.takeWhile_map,
    List.dropWhile_map, keeps]
  simp only [Function.comp_def, keeps]

theorem map_unlisted {hashSlot : Nat} {identity : Identity}
    (slots : ∀ item ∈ listing, item.1 = hashSlot ↔ item.2.phone = identity.phone) :
    (unlisted hashSlot listing).map person =
      Model.without identity.phone (listing.map person) := by
  rw [unlisted, Model.without, List.filter_map]
  congr 1
  refine List.filter_congr fun item member => ?_
  simp only [Function.comp_def, keeps]
  rw [decide_eq_decide, ne_eq, ne_eq, slots item member]

end Listings

section Tables

variable {table next : HashTable} {contact changed : Nat → Option Identity} {latest : Nat → Nat}

theorem contact_at_same {hashSlot : Nat} (entry : next.htable hashSlot = table.htable hashSlot)
    (same : (table.htable hashSlot).state = .occupied →
      changed (table.htable hashSlot).sector = contact (table.htable hashSlot).sector) :
    contactAt next changed hashSlot = contactAt table contact hashSlot := by
  simp only [contactAt, entry]
  split
  · rename_i occupied
    exact same occupied
  · rfl

theorem contact_at_insert (holds : TableHolds table contact latest) {hashSlot sector : Nat}
    (identity : Identity) (fresh : contact sector = none) (hash count : Nat) :
    contactAt { table.setEntry hashSlot (occupiedEntry hash sector) with numElems := count }
        (Function.update contact sector (some identity)) =
      Function.update (contactAt table contact) hashSlot (some identity) := by
  funext other
  by_cases same : other = hashSlot
  · rw [same, Function.update_self]
    simp [contactAt, HashTable.setEntry, occupiedEntry]
  · rw [Function.update_of_ne same]
    refine contact_at_same (Function.update_of_ne same _ _) fun occupied => ?_
    obtain ⟨known, entry⟩ := holds.entry other occupied
    refine Function.update_of_ne ?_ _ _
    rintro rfl
    rw [entry.stored] at fresh
    cases fresh

theorem contact_at_delete (holds : TableHolds table contact latest) {hashSlot : Nat}
    (occupied : (table.htable hashSlot).state = .occupied) (entry : HashEntry)
    (deleted : entry.state = .deleted) (count : Nat) :
    contactAt { table.setEntry hashSlot entry with numElems := count }
        (Function.update contact (table.htable hashSlot).sector none) =
      Function.update (contactAt table contact) hashSlot none := by
  funext other
  by_cases same : other = hashSlot
  · rw [same, Function.update_self]
    simp [contactAt, HashTable.setEntry, deleted]
  · rw [Function.update_of_ne same]
    refine contact_at_same (Function.update_of_ne same _ _) fun otherOccupied => ?_
    refine Function.update_of_ne ?_ _ _
    exact fun place => same (holds.separate other hashSlot otherOccupied occupied place)

end Tables

end SdDatabase
