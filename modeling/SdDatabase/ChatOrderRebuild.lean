import SdDatabase.CleanRemount
import SdDatabase.Represented

/-!
# The chat order rebuilt and maintained

Building the chat order sorts the chats by their newest messages. When messages were
added with rising timestamps, moving chats to the front has kept them sorted that
way, so that the build changes nothing, and a reboot finds the same contacts in the
same order.
-/

namespace SdDatabase

open Bytes Device

set_option autoImplicit false

/-- `order` lists exactly the occupied slots with a chat, once each, by the timestamps of the
messages from late to early and by slot where those are equal. -/
structure SortedChats (table : HashTable) (message : Nat → Message) (order : List Nat) : Prop where
  nodup : order.Nodup
  listed : ∀ slot, slot ∈ order ↔ slot < hashTableSize ∧
    (table.htable slot).state = .occupied ∧ (table.htable slot).latestMsgExtent ≠ uint16Max
  sorted : order.Pairwise fun first second => (message second).time < (message first).time ∨
    ((message first).time = (message second).time ∧ first < second)

section Build

variable {db : Database} {card : Card Sector} {message : Nat → Message}

theorem chat_order_build_sorts
    (readable : ∀ slot ∈ (List.range hashTableSize).filter (hasChat db.htable),
      newestMessage db.usageBitmap card (db.htable.htable slot).latestMsgExtent =
        some (message slot))
    (few : ((List.range hashTableSize).filter (hasChat db.htable)).length ≤ chatOrderEntries) :
    ∃ order : List Nat, SortedChats db.htable message order ∧
      out chatOrderBuild db card = ((.strgOk, { db with chatOrder := ⟨order⟩ }), []) := by
  obtain ⟨order, perm, ordered, run⟩ := out_chatOrderBuild readable few
  have nodup : order.Nodup := perm.nodup_iff.mpr (List.Nodup.filter _ List.nodup_range)
  refine ⟨order, ⟨nodup, ?_, ?_⟩, run⟩
  · intro slot
    rw [perm.mem_iff, List.mem_filter, has_chat_iff, List.mem_range]
  · refine (ordered.and nodup).imp fun {first second} both => ?_
    rcases Prod.Lex.toLex_le_toLex.mp both.1 with later | ⟨same, slots⟩
    · exact Or.inl (OrderDual.toDual_lt_toDual.mp later)
    · exact Or.inr ⟨OrderDual.toDual_inj.mp same, lt_of_le_of_ne slots both.2⟩

end Build

section Maintained

variable {db : Database} {card : Card Sector} {view : View} {chain : Nat → List Nat}
  {listing : Listing} {last : Nat}

theorem maintained_order (mounted : Mounted db card view chain listing)
    (inTime : (modelOf db view chain listing).InTime last) :
    db.chatOrder.mem.Pairwise fun first second =>
      timeAt db view chain second < timeAt db view chain first := by
  have order := inTime.order
  rw [modelOf, List.pairwise_map] at order
  refine order.imp_of_mem fun {first second} firstIn secondIn less => ?_
  obtain ⟨newer, newerIn, newerPhone, _, newerTime⟩ := mounted.recent_person firstIn
  obtain ⟨older, olderIn, olderPhone, _, olderTime⟩ := mounted.recent_person secondIn
  rw [← newerTime, ← olderTime]
  exact less newer newerIn older olderIn newerPhone olderPhone

theorem chat_order_build_unchanged (mounted : Mounted db card view chain listing)
    (inTime : (modelOf db view chain listing).InTime last) :
    out chatOrderBuild db card = ((.strgOk, db), []) := by
  have table := mounted.core.table
  have slots : ((List.range hashTableSize).filter (hasChat db.htable)).Nodup :=
    List.Nodup.filter _ List.nodup_range
  have few := table.few mounted.core.holds.contacts.bound slots fun slot member =>
    (has_chat_iff.mp (List.of_mem_filter member)).1
  obtain ⟨order, built, run⟩ := chat_order_build_sorts
    (fun slot member => newest_message_at table mounted.core.holds.messages mounted.core.chats
      (List.of_mem_filter member)) few
  have maintained := maintained_order mounted inTime
  have members : ∀ slot, slot ∈ order ↔ slot ∈ db.chatOrder.mem := by
    intro slot
    rw [built.listed, mounted.order.mem]
    constructor
    · exact fun all => all.2
    · intro both
      exact ⟨table.inside slot (by rw [both.1]; simp), both⟩
  have perm := (List.perm_ext_iff_of_nodup built.nodup mounted.order.nodup).mpr members
  have sorted : order.Pairwise fun first second =>
      timeAt db view chain second ≤ timeAt db view chain first := by
    refine built.sorted.imp fun either => ?_
    rcases either with later | both
    · exact le_of_lt later
    · exact le_of_eq both.1.symm
  have same : order = db.chatOrder.mem := by
    have apart : ∀ first ∈ db.chatOrder.mem, ∀ second ∈ db.chatOrder.mem, first ≠ second →
        timeAt db view chain first ≠ timeAt db view chain second := by
      have symmetric : Std.Symm fun first second =>
          timeAt db view chain first ≠ timeAt db view chain second :=
        ⟨fun _ _ differ => differ.symm⟩
      have times := maintained.imp fun {first second} less =>
        (ne_of_gt less : timeAt db view chain first ≠ timeAt db view chain second)
      intro first firstIn second secondIn differ
      exact times.forall firstIn secondIn differ
    apply List.Perm.eq_of_pairwise _ sorted (maintained.imp fun less => le_of_lt less) perm
    intro first second firstIn secondIn down up
    by_contra differ
    exact apart first ((members first).mp firstIn) second secondIn differ (le_antisymm up down)
  rw [run, same]

end Maintained

/-- The phone numbers of the contacts in the chat order. -/
def Machine.chatPhones (machine : Machine) : List (List Byte) :=
  machine.db.chatOrder.mem.map fun hashSlot => (machine.recordAt hashSlot).phoneText

theorem Mounted.chat_phones {machine : Machine} {view : View} {chain : Nat → List Nat}
    {listing : Listing} (mounted : Mounted machine.db machine.card view chain listing) :
    machine.chatPhones = (modelOf machine.db view chain listing).recent := by
  apply List.map_congr_left
  intro hashSlot member
  obtain ⟨occupied, _⟩ := (mounted.order.mem hashSlot).mp member
  obtain ⟨identity, entry⟩ := mounted.core.table.entry hashSlot occupied
  rw [mounted.record_at entry.stored, record_phone, phone_at_listed occupied entry.stored]

/-- The build sorts the chats by their newest messages, and it gives what the calls have
maintained when the timestamps have been rising, also on the table of a reboot. -/
theorem chat_order_rebuilt {db : Database} {card : Card Sector} {message : Nat → Message}
    (readable : ∀ slot ∈ (List.range hashTableSize).filter (hasChat db.htable),
      newestMessage db.usageBitmap card (db.htable.htable slot).latestMsgExtent =
        some (message slot))
    (few : ((List.range hashTableSize).filter (hasChat db.htable)).length ≤ chatOrderEntries)
    {machine : Machine} {last : Nat} (timed : Timed machine last) :
    (∃ order : List Nat, SortedChats db.htable message order ∧
      out chatOrderBuild db card = ((.strgOk, { db with chatOrder := ⟨order⟩ }), [])) ∧
    machine.run chatOrderBuild = (.strgOk, machine) ∧
    ∀ memory : Database, ∃ rebooted,
      Machine.restart machine.card memory = (.strgOk, rebooted) ∧
        rebooted.chatPhones = machine.chatPhones := by
  refine ⟨chat_order_build_sorts readable few, ?_, ?_⟩
  · obtain ⟨view, chain, listing, mounted, _, inTime⟩ := timed.inTime
    rw [Machine.run_of (chat_order_build_unchanged mounted inTime)]
    rfl
  · intro memory
    obtain ⟨view, chain, listing, mounted, tidy, inTime⟩ := timed.inTime
    obtain ⟨rebooted, newListing, run, _, remounted, recent⟩ :=
      mounted_restart mounted tidy memory
    refine ⟨rebooted, run, ?_⟩
    rw [remounted.chat_phones, mounted.chat_phones]
    exact (remounted_recent mounted remounted inTime recent).symm

theorem build_order_unchanged {machine : Machine} {order : List Nat}
    (run : out chatOrderBuild machine.db machine.card =
      ((.strgOk, { machine.db with chatOrder := ⟨order⟩ }), []))
    (unchanged : machine.run chatOrderBuild = (.strgOk, machine)) :
    machine.db.chatOrder.mem = order := by
  rw [Machine.run_of run] at unchanged
  exact congrArg (fun result => result.2.db.chatOrder.mem) unchanged.symm

/-- Two chats are sorted, after a rename and a removal. -/
theorem chat_order_rebuilt_example :
    (∃ (message : Nat → Message) (order : List Nat),
      SortedChats exampleBook.db.htable message order ∧ order.length = 2 ∧
        out chatOrderBuild exampleBook.db exampleBook.card =
          ((.strgOk, { exampleBook.db with chatOrder := ⟨order⟩ }), [])) ∧
    exampleBook.run chatOrderBuild = (.strgOk, exampleBook) ∧
    exampleBook.chatPhones = [exampleOther.val, exampleText.val] ∧
    ∀ memory : Database, ∃ rebooted,
      Machine.restart exampleBook.card memory = (.strgOk, rebooted) ∧
        rebooted.chatPhones = [exampleOther.val, exampleText.val] := by
  obtain ⟨last, timed⟩ := example_book_timed
  obtain ⟨view, chain, listing, mounted, _, is⟩ := example_book_sound
  have table := mounted.core.table
  have slots : ((List.range hashTableSize).filter (hasChat exampleBook.db.htable)).Nodup :=
    List.Nodup.filter _ List.nodup_range
  have few := table.few mounted.core.holds.contacts.bound slots fun slot member =>
    (has_chat_iff.mp (List.of_mem_filter member)).1
  have phones : exampleBook.chatPhones = [exampleOther.val, exampleText.val] := by
    rw [mounted.chat_phones, is]
    decide +kernel
  obtain ⟨⟨order, sorted, run⟩, unchanged, rebuilt⟩ := chat_order_rebuilt
    (fun slot member => newest_message_at table mounted.core.holds.messages mounted.core.chats
      (List.of_mem_filter member)) few timed
  refine ⟨⟨_, order, sorted, ?_, run⟩, unchanged, phones, ?_⟩
  · have length := congrArg List.length phones
    rw [Machine.chatPhones, List.length_map, build_order_unchanged run unchanged] at length
    exact length
  · intro memory
    obtain ⟨rebooted, restarted, order⟩ := rebuilt memory
    exact ⟨rebooted, restarted, order.trans phones⟩

end SdDatabase
