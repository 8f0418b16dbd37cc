import SdDatabase.Mountable
import SdDatabase.Run

/-!
# Power cuts and reboots

A power cut in a call leaves a card; a start-up on that card, whatever is in memory
then, finds a mounted database. Two mounted databases with the same contacts and
chats answer alike.
-/

namespace SdDatabase

open Bytes Device

set_option autoImplicit false

/-- Machines behind a format, calls that find sectors enough, and reboots. -/
inductive Reachable : Machine → Prop where
  | formatted (machine : Machine) : Reachable machine.format
  | called {machine : Machine} (before : Reachable machine) (call : Call)
      (room : ¬Exhausts call machine.db machine.card) : Reachable (machine.run call.run).2
  | restarted {machine : Machine} (before : Reachable machine) (memory : Database) :
      Reachable ((Machine.mk memory machine.card).run databaseInit).2

/-- What a start-up finds on a card that was cut. -/
def Machine.restart (card : Card Sector) (memory : Database) : StrgRet × Machine :=
  (Machine.mk memory card).run databaseInit

/-- The card left by a power cut after `count` writes of a call. -/
def Machine.cut (machine : Machine) (call : Call) (count : Nat) : Card Sector :=
  cutCard call.run machine.db count machine.card

def Machine.writes (machine : Machine) (call : Call) : WriteLog Sector :=
  (out call.run machine.db machine.card).2

theorem machine_cut_eq (machine : Machine) (call : Call) (count : Nat) :
    machine.cut call count = applyWrites ((machine.writes call).take count) machine.card :=
  cut_card_eq call.run machine.db count machine.card

section Restart

variable {card later final : Card Sector} {view : View} {chain : Nat → List Nat}

theorem restart_restores (restores : Restores card final) (holds : HoldsView final view)
    (mountable : Mountable view chain) (memory : Database) :
    ∃ machine listing, Machine.restart card memory = (.strgOk, machine) ∧
      machine.card = final ∧ Mounted machine.db machine.card view chain listing ∧
      RecentFirst machine.db view chain := by
  obtain ⟨bitmap, held⟩ := holds
  obtain ⟨next, listing, run, applied, mounted, recent⟩ :=
    database_init_run restores held mountable memory
  refine ⟨⟨next, final⟩, listing, ?_, rfl, mounted, recent⟩
  rw [Machine.restart, Machine.run_of run, applied]

theorem restart_spec (recovers : Recovers card final) (holds : HoldsView final view)
    (mountable : Mountable view chain) (cuts : CutInits card later) (memory : Database) :
    ∃ machine listing, Machine.restart later memory = (.strgOk, machine) ∧
      machine.card = final ∧ Mounted machine.db machine.card view chain listing ∧
      RecentFirst machine.db view chain := by
  have ⟨_, held⟩ := holds
  exact restart_restores (recovers_cut_inits recovers held mountable cuts).restores holds mountable
    memory

end Restart

theorem mounted_restart {db : Database} {card : Card Sector} {view : View}
    {chain : Nat → List Nat} {listing : Listing} (mounted : Mounted db card view chain listing)
    (tidy : Tidy view chain) (memory : Database) :
    ∃ machine newListing, Machine.restart card memory = (.strgOk, machine) ∧
      machine.card = card ∧ Mounted machine.db machine.card view chain newListing ∧
      RecentFirst machine.db view chain :=
  restart_spec (Or.inl ⟨mounted.core.idle, rfl⟩) ⟨_, mounted.core.holds⟩
    (mounted.core.mountable tidy) (.none card) memory

theorem Reachable.sound {machine : Machine} (reachable : Reachable machine) :
    ∃ model, machine.Sound model := by
  induction reachable with
  | formatted machine => exact ⟨_, machine.format_sound⟩
  | called before call room ih =>
      obtain ⟨model, sound⟩ := ih
      exact ⟨_, (Machine.call_sound sound call room).1⟩
  | restarted before memory ih =>
      obtain ⟨model, view, chain, listing, mounted, tidy, _⟩ := ih
      obtain ⟨next, newListing, run, _, remounted, _⟩ := mounted_restart mounted tidy memory
      have next_ : ((Machine.mk memory _).run databaseInit).2 = next := congrArg Prod.snd run
      rw [next_]
      exact ⟨_, view, chain, newListing, remounted, tidy, rfl⟩

def exampleChatMachine : Machine :=
  (exampleMachine.format.run
    (Call.run (.messageAdd (some exampleText) 7#32 true (some exampleText)))).2

theorem example_chat_room :
    ¬Exhausts (.messageAdd (some exampleText) 7#32 true (some exampleText))
      exampleMachine.format.db exampleMachine.format.card := by
  rintro ⟨_, none_⟩
  rw [Machine.format_eq] at none_
  exact format_allocator_some none_

theorem example_chat_reachable : Reachable exampleChatMachine :=
  .called (.formatted exampleMachine) _ example_chat_room

theorem example_chat_sound : exampleChatMachine.Sound
    (Model.next (.messageAdd (some exampleText) 7#32 true (some exampleText)) Model.empty) :=
  (Machine.call_sound exampleMachine.format_sound _ example_chat_room).1

/-- The two machines list the same contacts and show the same chats, and the same
slots and sectors are free. -/
structure SameContents (first second : Machine) : Prop where
  list : ∀ start n out, (first.run (databaseContactList start n out)).1 =
    (second.run (databaseContactList start n out)).1
  get : ∀ phone out, (first.run (databaseContactGet phone out)).1 =
    (second.run (databaseContactGet phone out)).1
  count : (first.run databaseContactCount).1 = (second.run databaseContactCount).1
  chats : ∀ phone start n out, (first.run (databaseMessageGetChat phone start n out)).1 =
    (second.run (databaseMessageGetChat phone start n out)).1
  contactFree : ∀ slot, slot ∈ first.db.contactAllocator.freeStack ↔
    slot ∈ second.db.contactAllocator.freeStack
  messageFree : ∀ index, index ∈ first.db.messageAllocator.freeStack ↔
    index ∈ second.db.messageAllocator.freeStack

section People

def InOrder (people : List Person) : Prop :=
  people.Pairwise fun left right => nameKey left.identity < nameKey right.identity

theorem in_order_unique {people others : List Person} (left : InOrder people) (right : InOrder others)
    (members : ∀ person, person ∈ people ↔ person ∈ others) : people = others := by
  have nodup : ∀ {list : List Person}, InOrder list → list.Nodup := by
    intro list order
    refine order.imp fun less equal => ?_
    rw [equal] at less
    exact lt_irrefl _ less
  refine ((List.perm_ext_iff_of_nodup (nodup left) (nodup right)).mpr members).eq_of_pairwise ?_
    left right
  intro one two _ _ less more
  exact absurd less (lt_asymm more)

variable {db : Database} {card : Card Sector} {view : View} {chain : Nat → List Nat}
  {listing : Listing}

theorem people_in_order (mounted : Mounted db card view chain listing) :
    InOrder (modelOf db view chain listing).people :=
  List.pairwise_map.mpr mounted.names.sorted

theorem people_of_book (mounted : Mounted db card view chain listing)
    {people : List Person} (order : InOrder people)
    (members : ∀ person, person ∈ people ↔ person ∈ book view chain) :
    (modelOf db view chain listing).people = people :=
  in_order_unique (people_in_order mounted) order fun person => by
    rw [mem_people mounted, members]

end People

section SameContents

variable {first second : Machine} {view other : View} {chain otherChain : Nat → List Nat}
  {listing otherListing : Listing}

theorem people_unique (left : Mounted first.db first.card view chain listing)
    (right : Mounted second.db second.card other otherChain otherListing)
    (same : book view chain = book other otherChain) :
    (modelOf first.db view chain listing).people =
      (modelOf second.db other otherChain otherListing).people :=
  people_of_book left (people_in_order right) fun person => by rw [mem_people right, same]

theorem same_contents (left : Mounted first.db first.card view chain listing)
    (right : Mounted second.db second.card other otherChain otherListing)
    (contact : other.contact = view.contact) (sector : other.sector = view.sector)
    (chains : otherChain = chain) : SameContents first second := by
  have books : book view chain = book other otherChain := by
    unfold book chatOf
    rw [contact, sector, chains]
  have people := people_unique left right books
  refine ⟨fun start n out => ?_, fun phone out => ?_, ?_, fun phone start n out => ?_,
    fun slot => ?_, fun index => ?_⟩
  · rw [Machine.run_of (contact_list_spec left start n out),
      Machine.run_of (contact_list_spec right start n out)]
    unfold Model.listContacts
    rw [people]
  · rw [Machine.run_of (contact_get_spec left phone out),
      Machine.run_of (contact_get_spec right phone out)]
    unfold Model.getContact Model.find
    rw [people]
  · rw [Machine.run_of (contact_count_spec left), Machine.run_of (contact_count_spec right), people]
  · rw [Machine.run_of (get_chat_spec left phone start n out),
      Machine.run_of (get_chat_spec right phone start n out)]
    unfold Model.getChat Model.find
    rw [people]
  · rw [left.core.contactFree.mem, right.core.contactFree.mem, contact]
  · rw [left.core.messageFree.mem, right.core.messageFree.mem, sector]

end SameContents

section Cut

variable {machine : Machine} {view : View} {chain : Nat → List Nat} {listing : Listing}

theorem call_leads (mounted : Mounted machine.db machine.card view chain listing)
    (tidy : Tidy view chain) (call : Call) (room : ¬Exhausts call machine.db machine.card) :
    ∃ later laterChain laterListing,
      Mounted (machine.run call.run).2.db (machine.run call.run).2.card later laterChain
        laterListing ∧
      Tidy later laterChain ∧
      modelOf (machine.run call.run).2.db later laterChain laterListing =
        Model.next call (modelOf machine.db view chain listing) ∧
      CrashSafe (machine.writes call) machine.card
        (callViews machine.db view chain call later laterChain) := by
  obtain ⟨result, ⟨next, log, later, laterChain, laterListing, ran, leads, laterMounted, keeps,
    model⟩, _⟩ := call_spec mounted call room
  have writes : machine.writes call = log := by rw [Machine.writes, ran]
  rw [Machine.run_of ran, writes]
  exact ⟨later, laterChain, laterListing, laterMounted, keeps tidy, model, leads.safe⟩

theorem call_cut (mounted : Mounted machine.db machine.card view chain listing)
    (tidy : Tidy view chain) (call : Call) (room : ¬Exhausts call machine.db machine.card)
    (count : Nat) :
    ∃ later laterChain laterListing seen final,
      Mounted (machine.run call.run).2.db (machine.run call.run).2.card later laterChain
        laterListing ∧
      Tidy later laterChain ∧
      modelOf (machine.run call.run).2.db later laterChain laterListing =
        Model.next call (modelOf machine.db view chain listing) ∧
      Recovers (machine.cut call count) final ∧ HoldsView final seen ∧
      callViews machine.db view chain call later laterChain count seen := by
  obtain ⟨later, laterChain, laterListing, laterMounted, laterTidy, model, safe⟩ :=
    call_leads mounted tidy call room
  obtain ⟨final, seen, recovers, known, holds⟩ := safe.cut count
  rw [← machine_cut_eq] at recovers
  exact ⟨later, laterChain, laterListing, seen, final, laterMounted, laterTidy, model, recovers,
    holds, known⟩

end Cut

def Call.writesContact : Call → Bool
  | .contactAdd .. | .contactUpdate .. => true
  | _ => false

/-- A contact that is added or updated is as before or as after a power cut. -/
theorem contact_write_crash_atomic {machine : Machine} (reachable : Reachable machine)
    (call : Call) (writes : call.writesContact = true) (count : Nat) {card : Card Sector}
    (cuts : CutInits (machine.cut call count) card) (memory : Database) :
    ∃ rebooted, Machine.restart card memory = (.strgOk, rebooted) ∧
      (SameContents machine rebooted ∨ SameContents (machine.run call.run).2 rebooted) := by
  obtain ⟨model, view, chain, listing, mounted, tidy, _⟩ := reachable.sound
  have room : ¬Exhausts call machine.db machine.card := by
    rintro ⟨asks, _⟩
    cases call <;> cases writes <;> cases asks
  obtain ⟨later, laterChain, laterListing, seen, final, laterMounted, laterTidy, _,
    recovers, holds, known⟩ := call_cut mounted tidy call room count
  have oldOrLater : seen = view ∨ seen = later := by
    cases call <;> cases writes <;> exact known
  rcases oldOrLater with rfl | rfl
  · obtain ⟨rebooted, newListing, run, _, remounted, _⟩ :=
      restart_spec recovers holds (mounted.core.mountable tidy) cuts memory
    exact ⟨rebooted, run, Or.inl (same_contents mounted remounted rfl rfl rfl)⟩
  · obtain ⟨rebooted, newListing, run, _, remounted, _⟩ :=
      restart_spec recovers holds (laterMounted.core.mountable laterTidy) cuts memory
    exact ⟨rebooted, run, Or.inr (same_contents laterMounted remounted rfl rfl rfl)⟩

theorem contact_write_crash_atomic_example :
    ∃ rebooted, Machine.restart (exampleMachine.format.cut
        (.contactAdd (some exampleText) (some exampleText)) 3) formattedDatabase =
        (.strgOk, rebooted) ∧
      (SameContents exampleMachine.format rebooted ∨
        SameContents (exampleMachine.format.run
          (Call.run (.contactAdd (some exampleText) (some exampleText)))).2 rebooted) :=
  contact_write_crash_atomic (.formatted exampleMachine) _ rfl 3 (.none _) formattedDatabase

end SdDatabase
