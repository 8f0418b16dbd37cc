import SdDatabase.CleanRemount
import SdDatabase.Represented

/-!
# Interrupted calls

What a start-up shows after a power cut in a removal or in the adding of a message.
-/

namespace SdDatabase

open Bytes Device

set_option autoImplicit false

/-- The people of a phone book with another chat for one number. -/
def Model.withChat (phone : List Byte) (chat : List Message) (people : List Person) :
    List Person :=
  people.map fun person =>
    if person.identity.phone = phone then ⟨person.identity, chat⟩ else person

namespace Machine

/-- The calls that read answer as the phone book does. -/
def Shows (machine : Machine) (model : Model) : Prop :=
  ∀ call : Call, call.reads = true → ∀ expected, Model.reply call model = some expected →
    (machine.run call.run).1 = expected

/-- The messages of the chat of a phone number by sector, newest first. -/
def chatSectors (machine : Machine) (phone : List Byte) : List (List Message) :=
  match (machine.run (findOccupied phone)).1 with
  | .ok hashSlot =>
      (machine.chainAt hashSlot).map fun index => (machine.messageSectorAt index).newest
  | .error _ => []

end Machine

theorem mounted_shows {machine : Machine} {view : View} {chain : Nat → List Nat}
    {listing : Listing} (mounted : Mounted machine.db machine.card view chain listing) :
    machine.Shows (modelOf machine.db view chain listing) := by
  intro call reads expected known
  have room : ¬Exhausts call machine.db machine.card := by
    rintro ⟨asks, _⟩
    cases call <;> cases reads <;> cases asks
  obtain ⟨result, ⟨_, _, _, _, _, ran, _⟩, answers⟩ := call_spec mounted call room
  rw [Machine.run_of ran]
  exact answers expected known

section People

variable {people : List Person}

theorem with_chat_in_order (order : InOrder people) (phone : List Byte) (chat : List Message) :
    InOrder (Model.withChat phone chat people) := by
  refine List.pairwise_map.mpr (order.imp fun {left right} less => ?_)
  have same : ∀ person : Person, (if person.identity.phone = phone
      then (⟨person.identity, chat⟩ : Person) else person).identity = person.identity := by
    intro person
    split <;> rfl
  rwa [same, same]

end People

theorem mem_with_chat {people : List Person} {phone : List Byte} {chat : List Message}
    {person : Person} : person ∈ Model.withChat phone chat people ↔
      (person ∈ people ∧ person.identity.phone ≠ phone) ∨
        ∃ before ∈ people, before.identity.phone = phone ∧ person = ⟨before.identity, chat⟩ := by
  unfold Model.withChat
  rw [List.mem_map]
  constructor
  · rintro ⟨before, member, rfl⟩
    by_cases same : before.identity.phone = phone
    · rw [if_pos same]
      exact Or.inr ⟨before, member, same, rfl⟩
    · rw [if_neg same]
      exact Or.inl ⟨member, same⟩
  · rintro (⟨member, other⟩ | ⟨before, member, same, rfl⟩)
    · exact ⟨person, member, if_neg other⟩
    · exact ⟨before, member, if_pos same⟩

section Shown

variable {machine : Machine} {view : View} {chain : Nat → List Nat} {listing : Listing}

theorem with_chat_book (mounted : Mounted machine.db machine.card view chain listing) {slot : Nat}
    {identity : Identity} (stored : view.contact slot = some identity) {later : View}
    {laterChain : Nat → List Nat} (contact : later.contact = view.contact)
    (others : ∀ other, other ≠ slot → chatOf later laterChain other = chatOf view chain other)
    (person : Person) :
    person ∈ Model.withChat identity.phone (chatOf later laterChain slot)
        (modelOf machine.db view chain listing).people ↔ person ∈ book later laterChain := by
  unfold Model.withChat
  rw [List.mem_map]
  constructor
  · rintro ⟨before, member, rfl⟩
    obtain ⟨place, placed, chat⟩ := (mem_people mounted before).mp member
    refine ⟨place, ?_⟩
    by_cases same : before.identity.phone = identity.phone
    · rw [if_pos same, contact, mounted.core.distinct _ _ _ _ placed stored same]
      rw [mounted.core.distinct _ _ _ _ placed stored same] at placed
      exact ⟨placed, rfl⟩
    · have other : place ≠ slot := by
        rintro rfl
        rw [stored, Option.some.injEq] at placed
        exact same (by rw [placed])
      rw [if_neg same, contact, others place other]
      exact ⟨placed, chat⟩
  · rintro ⟨place, placed, chat⟩
    rw [contact] at placed
    refine ⟨⟨person.identity, chatOf view chain place⟩,
      (mem_people mounted _).mpr ⟨place, placed, rfl⟩, ?_⟩
    dsimp only
    by_cases same : place = slot
    · subst same
      rw [stored, Option.some.injEq] at placed
      rw [if_pos (by rw [placed]), chat]
    · have differs : person.identity.phone ≠ identity.phone := fun equal =>
        same (mounted.core.distinct _ _ _ _ placed stored equal)
      rw [if_neg differs, ← others place same, chat]

theorem chat_sectors_drop (mounted : Mounted machine.db machine.card view chain listing)
    {slot : Nat} {identity : Identity} (stored : view.contact slot = some identity)
    (dropped : Nat) :
    ((machine.chatSectors identity.phone).drop dropped).flatten =
      chatMessages view.sector ((chain slot).drop dropped) := by
  obtain ⟨hashSlot, occupied, rfl, _⟩ := mounted.core.slot_of stored
  have found := Machine.run_of (out_findOccupied_known mounted.core occupied stored)
  rw [Machine.chatSectors, found]
  dsimp only
  rw [mounted.chain_at occupied, ← List.map_drop, ← List.flatMap_def]
  unfold chatMessages
  refine List.flatMap_congr fun index member => ?_
  obtain ⟨mSector, there⟩ := mounted.core.chats.member (List.mem_of_mem_drop member)
  rw [there, mounted.message_sector_at there]

theorem chat_sectors_length (mounted : Mounted machine.db machine.card view chain listing)
    {slot : Nat} {identity : Identity} (stored : view.contact slot = some identity) :
    (machine.chatSectors identity.phone).length = (chain slot).length := by
  obtain ⟨hashSlot, occupied, rfl, _⟩ := mounted.core.slot_of stored
  have found := Machine.run_of (out_findOccupied_known mounted.core occupied stored)
  rw [Machine.chatSectors, found]
  dsimp only
  rw [mounted.chain_at occupied, List.length_map]

theorem long_chat_sectors {model : Model} (sound : machine.Sound model) {person : Person}
    (member : person ∈ model.people) (many : messageSectorCapacity < person.chat.length) :
    2 ≤ (machine.chatSectors person.identity.phone).length := by
  obtain ⟨view, chain, listing, mounted, _, rfl⟩ := sound
  obtain ⟨slot, stored, long⟩ := long_chat_listed mounted member many
  rwa [chat_sectors_length mounted stored]

theorem remove_chat_people (mounted : Mounted machine.db machine.card view chain listing)
    {phone : Option CString} {number : List Byte} (valid : validPhone phone = some number)
    (order : InOrder ((modelOf machine.db view chain listing).removeChat phone).2.people) :
    ((modelOf machine.db view chain listing).removeChat phone).2.people =
      Model.withChat number [] (modelOf machine.db view chain listing).people := by
  refine in_order_unique order (with_chat_in_order (people_in_order mounted) _ _) fun person => ?_
  have unique : ∀ {left right : Person},
      left ∈ (modelOf machine.db view chain listing).people →
      right ∈ (modelOf machine.db view chain listing).people →
      left.identity.phone = right.identity.phone → left = right := mounted.person_unique
  generalize modelOf machine.db view chain listing = model at order unique
  rw [mem_with_chat]
  unfold Model.removeChat
  rw [valid]
  dsimp only
  cases found : model.find number with
  | none =>
      have absent : ∀ {other : Person}, other ∈ model.people → other.identity.phone ≠ number :=
        Model.find_none (by rw [found]; rfl)
      refine ⟨fun member => Or.inl ⟨member, absent member⟩, ?_⟩
      rintro (⟨member, _⟩ | ⟨before, member, same, _⟩)
      · exact member
      · exact absurd same (absent member)
  | some known =>
      obtain ⟨knownIn, isNumber⟩ := Model.find_some found
      have only : ∀ before ∈ model.people, before.identity.phone = number → before = known :=
        fun before member same => unique member knownIn (same.trans isNumber.symm)
      dsimp only
      by_cases none_ : known.chat = []
      · rw [if_pos none_]
        have whole : known = ⟨known.identity, []⟩ := by
          rw [← none_]
        constructor
        · intro member
          by_cases same : person.identity.phone = number
          · refine Or.inr ⟨person, member, same, ?_⟩
            rw [only person member same]
            exact whole
          · exact Or.inl ⟨member, same⟩
        · rintro (⟨member, _⟩ | ⟨before, member, same, rfl⟩)
          · exact member
          · rw [only before member same, ← whole]
            exact knownIn
      · rw [if_neg none_, Model.mem_insert, Model.mem_without]
        constructor
        · rintro (rfl | old)
          · exact Or.inr ⟨known, knownIn, isNumber, rfl⟩
          · exact Or.inl old
        · rintro (old | ⟨before, member, same, rfl⟩)
          · exact Or.inr old
          · rw [only before member same]
            exact Or.inl rfl

theorem remove_contact_people {model : Model} {phone : Option CString} {number : List Byte}
    (valid : validPhone phone = some number) :
    (model.removeContact phone).2.people = Model.without number model.people := by
  unfold Model.removeContact
  rw [valid]
  dsimp only
  split
  · rename_i absent
    refine (List.filter_eq_self.mpr fun person member => ?_).symm
    rw [decide_eq_true_eq]
    refine Model.find_none ?_ member
    rwa [Option.isSome_eq_false_iff]
  · rfl

theorem shortened_chat (mounted : Mounted machine.db machine.card view chain listing) {slot : Nat}
    {identity : Identity} (stored : view.contact slot = some identity) (count : Nat) :
    chatOf (view.clearSectors ((chain slot).take count))
        (Function.update chain slot ((chain slot).drop count)) slot =
      ((machine.chatSectors identity.phone).drop count).flatten := by
  rw [chat_sectors_drop mounted stored, chat_of_change_self]
  refine chat_messages_congr fun index behind => if_neg fun front => ?_
  have nodup := mounted.core.chats.separate slot
  rw [← List.take_append_drop count (chain slot), List.nodup_append] at nodup
  exact nodup.2.2 index front index behind rfl

end Shown

/-- A removal that is cut leaves the oldest part of the chat, or nothing. -/
theorem removal_crash_shortens {machine : Machine} (reachable : Reachable machine)
    {phone : Option CString} {number : List Byte} (valid : validPhone phone = some number)
    (call : Call) (removes : call = .contactRemove phone ∨ call = .messageRemoveChat phone)
    (count : Nat) {card : Card Sector} (cuts : CutInits (machine.cut call count) card)
    (memory : Database) :
    ∃ rebooted before after dropped, Machine.restart card memory = (.strgOk, rebooted) ∧
      machine.Shows before ∧ rebooted.Shows after ∧
      (∀ person ∈ before.people, person.identity.phone = number →
        person.chat = (machine.chatSectors number).flatten) ∧
      (after.people = Model.withChat number ((machine.chatSectors number).drop dropped).flatten
          before.people ∨
        call = .contactRemove phone ∧ after.people = Model.without number before.people) ∧
      ∀ index, index ∈ rebooted.db.messageAllocator.freeStack ↔
        index < totalMessageSectorSize ∧
          usageBit rebooted.db.usageBitmap (messageDataSector index) = false := by
  obtain ⟨_, view, chain, listing, mounted, tidy, _⟩ := reachable.sound
  have room : ¬Exhausts call machine.db machine.card := by
    rintro ⟨asks, _⟩
    rcases removes with rfl | rfl <;> cases asks
  obtain ⟨later, laterChain, laterListing, seen, final, laterMounted, laterTidy, model, recovers,
    holds, known⟩ := call_cut mounted tidy call room count
  have shown := mounted_shows mounted
  have whole : ∀ person ∈ (modelOf machine.db view chain listing).people,
      person.identity.phone = number → person.chat = (machine.chatSectors number).flatten := by
    rintro person member rfl
    obtain ⟨slot, stored, chat⟩ := (mem_people mounted person).mp member
    rw [← chat]
    exact (chat_sectors_drop mounted stored 0).symm
  have cases_ : seen = later ∨ ∃ slot identity, view.contact slot = some identity ∧
      identity.phone = number ∧ seen = view.clearSectors ((chain slot).take (count / 5)) := by
    have views : shortened view chain phone later laterChain count seen := by
      rcases removes with rfl | rfl <;> exact known
    refine views.imp id ?_
    rintro ⟨slot, identity, stored, given, same⟩
    rw [valid, Option.some.injEq] at given
    exact ⟨slot, identity, stored, given.symm, same⟩
  rcases cases_ with rfl | ⟨slot, identity, stored, rfl, rfl⟩
  · obtain ⟨rebooted, newListing, run, _, remounted, _⟩ :=
      restart_spec recovers holds (laterMounted.core.mountable laterTidy) cuts memory
    have people := people_unique laterMounted remounted rfl
    rw [model] at people
    have order := people_in_order laterMounted
    rw [model] at order
    refine ⟨rebooted, _, _, (machine.chatSectors number).length, run, shown,
      mounted_shows remounted, whole, ?_, remounted.free_sectors⟩
    rw [List.drop_length, List.flatten_nil, ← people]
    rcases removes with rfl | rfl
    · exact Or.inr ⟨rfl, remove_contact_people valid⟩
    · exact Or.inl (remove_chat_people mounted valid order)
  · have change := @drop_change _ _ slot mounted.core.chats (count / 5)
    have mountable := shortened_mountable mounted.core.distinct mounted.core.chats
      mounted.core.holds.messages.bound tidy slot (count / 5)
    obtain ⟨rebooted, newListing, run, _, remounted, _⟩ :=
      restart_spec recovers holds mountable cuts memory
    refine ⟨rebooted, _, _, count / 5, run, shown, mounted_shows remounted, whole,
      Or.inl ?_, remounted.free_sectors⟩
    rw [← shortened_chat mounted stored]
    exact people_of_book remounted (with_chat_in_order (people_in_order mounted) _ _)
      (with_chat_book mounted stored rfl fun other different => chat_of_change_other change different)

theorem example_book_sectors : 2 ≤ (exampleBook.chatSectors exampleText.val).length := by
  obtain ⟨person, member, phone, many⟩ := example_long_chat
  rw [← phone]
  exact long_chat_sectors example_book_sound member many

/-- A removal that is cut behind the first of its sectors. -/
theorem removal_crash_shortens_example :
    2 ≤ (exampleBook.chatSectors exampleText.val).length ∧
    ∃ rebooted before after dropped,
      Machine.restart (exampleBook.cut (.contactRemove (some exampleText)) 7)
        formattedDatabase = (.strgOk, rebooted) ∧
      exampleBook.Shows before ∧ rebooted.Shows after ∧
      (∀ person ∈ before.people, person.identity.phone = exampleText.val →
        person.chat = (exampleBook.chatSectors exampleText.val).flatten) ∧
      (after.people = Model.withChat exampleText.val
          ((exampleBook.chatSectors exampleText.val).drop dropped).flatten before.people ∨
        Call.contactRemove (some exampleText) = .contactRemove (some exampleText) ∧
          after.people = Model.without exampleText.val before.people) ∧
      ∀ index, index ∈ rebooted.db.messageAllocator.freeStack ↔
        index < totalMessageSectorSize ∧
          usageBit rebooted.db.usageBitmap (messageDataSector index) = false :=
  ⟨example_book_sectors, removal_crash_shortens example_book_reachable (by decide) _ (Or.inl rfl) 7
    (.none _) formattedDatabase⟩

end SdDatabase
