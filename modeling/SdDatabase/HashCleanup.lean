import SdDatabase.Lib.RelatedRuns
import SdDatabase.Rebuild
import SdDatabase.Represented

/-!
# Cleaning up the hash table

`hash_cleanup` blanks the table and rebuilds it from the card. Before the rebuild both
allocators are reset to give out everything, and nothing can be given back to a full
allocator, so the rebuild does not take the slots of the contacts out again; the chats
are not looked for at all.
-/

namespace SdDatabase

open Bytes Device

set_option autoImplicit false

theorem free_from_full {list : FreeList} (full : list.capacity ≤ list.freeStack.length)
    (count index : Nat) : freeListFreeFrom list count index = list := by
  induction count generalizing index with
  | zero => rfl
  | succ count ih =>
      unfold freeListFreeFrom
      by_cases outside : list.capacity ≤ index
      · rw [if_pos outside]
      · have unchanged : freeListFree list index = list := if_pos full
        rw [if_neg outside, unchanged, ih]

/-- The databases differ at most in the contact allocator, which is `list` in the second, and
no entry is a tombstone. -/
structure Shadows (list : FreeList) (left right : Database) : Prop where
  same : right = { left with contactAllocator := list }
  noTombstone : ∀ slot, (left.htable.htable slot).state ≠ .deleted

section Shadows

variable {list : FreeList} (full : list.capacity ≤ list.freeStack.length)

theorem shadows_key {left right : Database} (shadows : Shadows list left right) :
    lookupKey left = lookupKey right := by
  rw [shadows.same]
  rfl

include full

theorem related_freeContacts (first last : Nat) :
    Related (Shadows list) (freeContacts first last) := by
  apply related_modify
  intro left right shadows
  refine ⟨?_, shadows.noTombstone⟩
  rw [shadows.same, freeListFreeRange, free_from_full full]

theorem related_insertContactsLoop (cSector : ContactSector) (base fuel : Nat) (bits : Byte)
    (nextFree : Nat) : Related (Shadows list) (insertContactsLoop cSector base fuel bits nextFree) := by
  induction fuel generalizing bits nextFree with
  | zero =>
      apply (related_freeContacts full _ _).bind
      intro _
      exact related_pure _
  | succ fuel ih =>
      unfold insertContactsLoop
      apply Related.ite
      · apply (related_freeContacts full _ _).bind
        intro _
        exact related_pure _
      · apply (related_freeContacts full _ _).bind
        intro _
        apply ((reads_hashFindEntry _).related fun _ _ => shadows_key).bind
        intro found
        cases found with
        | none => exact related_pure _
        | some slot =>
            apply Related.bind
            · apply related_modify
              intro left right shadows
              refine ⟨?_, ?_⟩
              · rw [shadows.same]
              · intro other
                dsimp only [HashTable.setEntry]
                by_cases here : other = slot
                · rw [here, Function.update_self, occupiedEntry]
                  exact EntryState.noConfusion
                · rw [Function.update_of_ne here]
                  exact shadows.noTombstone other
            · intro _
              exact ih _ _

theorem related_reconstructContactSector (physSector lastFree : Nat) :
    Related (Shadows list) (reconstructContactSector physSector lastFree) := by
  unfold reconstructContactSector
  apply (related_freeContacts full _ _).bind
  intro _
  apply ((reads_readSector lookupKey _).related fun _ _ => shadows_key).bind
  intro answer
  cases answer with
  | error ret => exact Related.ite (related_pure _) (related_pure _)
  | ok content =>
      apply (related_insertContactsLoop full _ _ _ _ _).bind
      intro inserted
      exact Related.ite (related_pure _) (related_pure _)

theorem related_reconstructContactBits (word fuel : Nat) (bits : BitVec 32) (lastFree : Nat) :
    Related (Shadows list) (reconstructContactBits word fuel bits lastFree) := by
  induction fuel generalizing bits lastFree with
  | zero => exact related_pure _
  | succ fuel ih =>
      unfold reconstructContactBits
      apply Related.ite (related_pure _)
      apply Related.ite (related_pure _)
      apply (related_reconstructContactSector full _ _).bind
      intro reached
      cases reached with
      | none => exact related_pure _
      | some lastFree => exact ih _ _

theorem related_reconstructContactWords (firstWord firstBit count word lastFree : Nat) :
    Related (Shadows list) (reconstructContactWords firstWord firstBit count word lastFree) := by
  induction count generalizing word lastFree with
  | zero => exact related_pure _
  | succ count ih =>
      unfold reconstructContactWords
      apply Related.ite (ih _ _)
      apply related_get
      · intro left right shadows
        have bitmaps : left.usageBitmap = right.usageBitmap :=
          congrArg Prod.snd (shadows_key shadows)
        rw [bitmaps]
      · intro db
        apply (related_reconstructContactBits full _ _ _ _).bind
        intro reached
        cases reached with
        | none => exact related_pure _
        | some lastFree => exact ih _ _

theorem related_hashReconstructContact : Related (Shadows list) hashReconstructContact := by
  unfold hashReconstructContact
  apply (related_reconstructContactWords full _ _ _ _ _).bind
  intro reached
  cases reached with
  | none => exact related_pure _
  | some lastFree =>
      apply (related_freeContacts full _ _).bind
      intro _
      exact related_pure _

end Shadows

section Cleanup

variable {db : Database} {card : Card Sector} {view : View} {chain : Nat → List Nat}

/-- The table knows the contacts again and no chat, and everything is free. -/
structure CleanedUp (view : View) (next : Database) : Prop where
  table : TableHolds next.htable view.contact fun _ => uint16Max
  numElems : next.htable.numElems =
    (List.range hashTableEntries).countP fun slot => (view.contact slot).isSome
  noTombstone : ∀ slot, (next.htable.htable slot).state ≠ .deleted
  contactFree : next.contactAllocator.freeStack = (List.range hashTableEntries).reverse
  messageFree : next.messageAllocator.freeStack = (List.range totalMessageSectorSize).reverse

theorem hash_cleanup_run (core : Core db card view chain) :
    ∃ next, out hashCleanup db card = ((true, next), []) ∧ CleanedUp view next := by
  obtain ⟨cleared, clearedEq⟩ : ∃ cleared : Database, cleared =
      { db with
        contactAllocator := freeListReset db.contactAllocator
        messageAllocator := freeListReset db.messageAllocator
        htable := { db.htable with htable := fun _ => .zero, numElems := 0 } } := ⟨_, rfl⟩
  obtain ⟨base, baseEq⟩ : ∃ base : Database, base =
      { cleared with contactAllocator := ⟨[], hashTableEntries, hashTableEntries⟩ } := ⟨_, rfl⟩
  have baseTable : base.htable = hashInit hashTableSize := by
    rw [baseEq, clearedEq, hashInit, ← core.table.size]
  have contacts : ContactsHold base.usageBitmap card view.contact := by
    rw [baseEq, clearedEq]
    exact core.holds.contacts
  have fresh : ContactsBuilt base view.contact 0 base := by
    refine ⟨rfl, ?_, ?_, ?_⟩
    · rw [baseTable]
      exact hash_init_holds fun slot => if_neg (Nat.not_lt_zero _)
    · rw [baseTable]
      rfl
    · rw [baseEq]
      exact free_below_start _ _ _
  obtain ⟨built, run, done⟩ := hash_reconstruct_contact_run contacts core.distinct fresh
  have capacity : cleared.contactAllocator.capacity = hashTableEntries := by
    rw [clearedEq]
    exact core.contactFree.capacity
  have stack : cleared.contactAllocator.freeStack = (List.range hashTableEntries).reverse := by
    rw [clearedEq, ← core.contactFree.capacity]
    rfl
  have full : cleared.contactAllocator.capacity ≤ cleared.contactAllocator.freeStack.length := by
    rw [stack, List.length_reverse, List.length_range, capacity]
  have shadows : Shadows cleared.contactAllocator base cleared := by
    refine ⟨by rw [baseEq], fun slot => ?_⟩
    rw [baseTable]
    exact EntryState.noConfusion
  obtain ⟨answer, left, right, log, first, second, after⟩ :=
    related_hashReconstructContact full base cleared card shadows
  rw [run] at first
  obtain ⟨⟨rfl, rfl⟩, rfl⟩ : (true = answer ∧ built = left) ∧ [] = log := by
    simpa only [Prod.mk.injEq] using first
  have whole := slots_below_all contacts.bound
  have table := done.table
  rw [whole] at table
  refine ⟨right, ?_, ?_⟩
  · have logEq : ([] : WriteLog Sector) = [] ++ ([] ++ []) := rfl
    unfold hashCleanup hashClear
    rw [logEq]
    apply out_bind_both (out_modify _ _ _)
    rw [← clearedEq]
    exact out_bind_both second rfl
  · rw [after.same]
    refine ⟨table, done.number, after.noTombstone, stack, ?_⟩
    rw [done.same, baseEq, clearedEq, ← core.messageFree.capacity]
    rfl

end Cleanup

namespace Machine

/-- The table has the phone number with a contact slot and a newest message sector. -/
def MapsTo (machine : Machine) (phone : List Byte) (sector extent : Nat) : Prop :=
  ∃ hashSlot, machine.Occupied hashSlot ∧ (machine.recordAt hashSlot).phoneText = phone ∧
    (machine.db.htable.htable hashSlot).sector = sector ∧
    (machine.db.htable.htable hashSlot).latestMsgExtent = extent

def cleaned (machine : Machine) : Machine := (machine.run hashCleanup).2

/-- The cleanup succeeds and changes nothing but tombstones, and what the allocators give out
next is not in use. -/
structure OnlyTombstonesDropped (machine : Machine) : Prop where
  succeeds : (machine.run hashCleanup).1 = true
  mapping : ∀ phone sector extent,
    machine.cleaned.MapsTo phone sector extent ↔ machine.MapsTo phone sector extent
  numElems : machine.cleaned.db.htable.numElems = machine.db.htable.numElems
  contactFree : ∀ slot, slot ∈ machine.cleaned.db.contactAllocator.freeStack ↔
    slot ∈ machine.db.contactAllocator.freeStack
  messageFree : ∀ index, index ∈ machine.cleaned.db.messageAllocator.freeStack ↔
    index ∈ machine.db.messageAllocator.freeStack
  noTombstone : ∀ slot, (machine.cleaned.db.htable.htable slot).state ≠ .deleted
  contactUnused : ∀ slot ∈ machine.cleaned.db.contactAllocator.freeStack, ∀ hashSlot,
    machine.Occupied hashSlot → (machine.db.htable.htable hashSlot).sector ≠ slot
  sectorUnused : ∀ index ∈ machine.cleaned.db.messageAllocator.freeStack, ∀ hashSlot,
    machine.Occupied hashSlot → index ∉ machine.chainAt hashSlot

end Machine

section Machines

variable {machine : Machine}

theorem cleaned_run (reachable : Reachable machine) :
    ∃ view chain listing, Mounted machine.db machine.card view chain listing ∧
      Tidy view chain ∧ (machine.run hashCleanup).1 = true ∧
      CleanedUp view machine.cleaned.db := by
  obtain ⟨_, view, chain, listing, mounted, tidy, _⟩ := reachable.sound
  obtain ⟨next, run, cleanedUp⟩ := hash_cleanup_run mounted.core
  have ran := Machine.run_of run
  refine ⟨view, chain, listing, mounted, tidy, ?_, ?_⟩
  · rw [ran]
  · rw [Machine.cleaned, ran]
    exact cleanedUp

theorem only_tombstones_dropped_empty (reachable : Reachable machine)
    (dropped : machine.OnlyTombstonesDropped) : machine.db.htable.numElems = 0 := by
  obtain ⟨view, chain, listing, mounted, _, _, cleanedUp⟩ := cleaned_run reachable
  rw [mounted.count]
  by_contra some_
  obtain ⟨item, member⟩ := List.exists_mem_of_length_pos (Nat.pos_of_ne_zero some_)
  obtain ⟨occupied, stored⟩ := mounted.listed_contact member
  have bound := mounted.core.contact_bound stored
  have freed : (machine.db.htable.htable item.1).sector ∈
      machine.cleaned.db.contactAllocator.freeStack := by
    rw [cleanedUp.contactFree, List.mem_reverse, List.mem_range]
    exact bound
  have free := (mounted.core.contactFree.mem _).mp ((dropped.contactFree _).mp freed)
  exact free.2 (by rw [stored]; exact Option.some_ne_none _)

theorem empty_only_tombstones_dropped (reachable : Reachable machine)
    (empty : machine.db.htable.numElems = 0) : machine.OnlyTombstonesDropped := by
  obtain ⟨view, chain, listing, mounted, tidy, succeeds, cleanedUp⟩ := cleaned_run reachable
  have nobody : listing = [] := List.length_eq_zero_iff.mp (mounted.count.symm.trans empty)
  have unstored : ∀ slot, view.contact slot = none := by
    intro slot
    cases stored : view.contact slot with
    | none => rfl
    | some identity =>
        obtain ⟨hashSlot, occupied, place, _⟩ := mounted.core.slot_of stored
        rw [← place] at stored
        have member := mounted.listed_of occupied stored
        rw [nobody] at member
        cases member
  have vacant : ∀ hashSlot, ¬machine.Occupied hashSlot := by
    intro hashSlot occupied
    obtain ⟨identity, entry⟩ := mounted.core.table.entry hashSlot occupied
    have stored := entry.stored
    rw [unstored] at stored
    cases stored
  have cleanedVacant : ∀ hashSlot, ¬machine.cleaned.Occupied hashSlot := by
    intro hashSlot occupied
    obtain ⟨identity, entry⟩ := cleanedUp.table.entry hashSlot occupied
    have stored := entry.stored
    rw [unstored] at stored
    cases stored
  have chatless : ∀ index, view.sector index = none := by
    intro index
    cases found : view.sector index with
    | none => rfl
    | some mSector =>
        have member := tidy.covered index mSector found
        exact absurd (unstored _)
          (mounted.core.chats.contacts _ (List.ne_nil_of_mem member))
  constructor
  · exact succeeds
  · intro phone sector extent
    constructor
    · rintro ⟨hashSlot, occupied, _⟩
      exact absurd occupied (cleanedVacant hashSlot)
    · rintro ⟨hashSlot, occupied, _⟩
      exact absurd occupied (vacant hashSlot)
  · rw [cleanedUp.numElems, empty, List.countP_eq_zero]
    intro slot _ given
    rw [unstored] at given
    cases given
  · intro slot
    rw [cleanedUp.contactFree, List.mem_reverse, List.mem_range, mounted.core.contactFree.mem]
    simp only [unstored, ne_eq, not_true_eq_false, not_false_eq_true, and_true]
  · intro index
    rw [cleanedUp.messageFree, List.mem_reverse, List.mem_range, mounted.core.messageFree.mem]
    simp only [chatless, ne_eq, not_true_eq_false, not_false_eq_true, and_true]
  · exact cleanedUp.noTombstone
  · intro _ _ hashSlot occupied
    exact absurd occupied (vacant hashSlot)
  · intro _ _ hashSlot occupied
    exact absurd occupied (vacant hashSlot)

/-- The cleanup keeps everything but tombstones exactly when there is nothing to keep. -/
theorem cleanup_drops_only_tombstones_iff (reachable : Reachable machine) :
    machine.OnlyTombstonesDropped ↔ machine.db.htable.numElems = 0 :=
  ⟨only_tombstones_dropped_empty reachable, empty_only_tombstones_dropped reachable⟩

theorem sound_elems {machine : Machine} {model : Model} (sound : machine.Sound model) :
    machine.db.htable.numElems = model.people.length := by
  obtain ⟨view, chain, listing, mounted, _, rfl⟩ := sound
  exact mounted.count.trans (List.length_map _).symm

theorem removed_tombstone {machine : Machine} {model : Model} (sound : machine.Sound model)
    {person : Person} (member : person ∈ model.people) {phone : Option CString}
    (valid : validPhone phone = some person.identity.phone) :
    ∃ hashSlot, ((machine.run (Call.run (.contactRemove phone))).2.db.htable.htable
      hashSlot).state = .deleted := by
  obtain ⟨view, chain, listing, mounted, _, rfl⟩ := sound
  obtain ⟨slot, stored, _⟩ := (mem_people mounted person).mp member
  obtain ⟨hashSlot, occupied, rfl, _⟩ := mounted.core.slot_of stored
  obtain ⟨next, log, run, table, _⟩ := contact_remove_run mounted occupied stored valid
  refine ⟨hashSlot, ?_⟩
  rw [Machine.run, Call.run, out_bind_of run]
  change (next.htable.htable hashSlot).state = .deleted
  rw [table]
  unfold deletedTable HashTable.setEntry
  dsimp only
  rw [Function.update_self]

def exampleAdded : Machine :=
  (exampleMachine.format.run (Call.run (.contactAdd (some exampleText) (some exampleText)))).2

def exampleVacated : Machine := (exampleAdded.run (Call.run (.contactRemove (some exampleText)))).2

def exampleAddedBook : Model :=
  Model.next (.contactAdd (some exampleText) (some exampleText)) Model.empty

theorem example_added_sound : exampleAdded.Sound exampleAddedBook :=
  (Machine.call_sound exampleMachine.format_sound
    (.contactAdd (some exampleText) (some exampleText)) fun exhausts => by cases exhausts.1).1

theorem example_added_reachable : Reachable exampleAdded :=
  .called (.formatted exampleMachine) _ fun exhausts => by cases exhausts.1

theorem cleanup_drops_only_tombstones_vacated :
    (∃ hashSlot, (exampleVacated.db.htable.htable hashSlot).state = .deleted) ∧
      exampleVacated.OnlyTombstonesDropped := by
  have room : ¬Exhausts (.contactRemove (some exampleText)) exampleAdded.db exampleAdded.card :=
    fun exhausts => by cases exhausts.1
  have reachable : Reachable exampleVacated :=
    .called example_added_reachable _ room
  have vacated := (Machine.call_sound example_added_sound _ room).1
  constructor
  · unfold exampleVacated
    apply removed_tombstone example_added_sound List.mem_cons_self
    decide
  · apply (cleanup_drops_only_tombstones_iff reachable).mpr
    unfold exampleVacated
    rw [sound_elems vacated]
    rfl

theorem example_chat_elems : exampleChatMachine.db.htable.numElems = 1 := by
  rw [sound_elems example_chat_sound]
  rfl

/-- Behind a format and one message, the cleanup frees the slot of the contact and the sector
of its chat. -/
theorem cleanup_frees_live_slot : ¬exampleChatMachine.OnlyTombstonesDropped := by
  intro dropped
  have none_ := only_tombstones_dropped_empty example_chat_reachable dropped
  rw [example_chat_elems] at none_
  cases none_

end Machines

end SdDatabase
