import SdDatabase.Reboot

/-!
# Runs of few calls

A message sector in use holds a message, and a call adds one message and one person at most. So
a run whose phone book stays smaller than the number of message sectors never runs out of them.
-/

namespace SdDatabase

open Bytes Device

set_option autoImplicit false

/-- The people with their messages, all counted as one. -/
def bookSize (people : List Person) : Nat := (people.map fun person => person.chat.length + 1).sum

section BookSize

variable {model : Model} {number : List Byte} {person : Person} {people : List Person}

theorem book_size_cons (person : Person) (people : List Person) :
    bookSize (person :: people) = person.chat.length + 1 + bookSize people := List.sum_cons

theorem book_size_append (first second : List Person) :
    bookSize (first ++ second) = bookSize first + bookSize second := by
  unfold bookSize
  rw [List.map_append, List.sum_append]

theorem book_size_insert (person : Person) (people : List Person) :
    bookSize (Model.insert person people) = person.chat.length + 1 + bookSize people := by
  unfold Model.insert
  have whole := @List.takeWhile_append_dropWhile _
    (fun other => decide (nameKey other.identity < nameKey person.identity)) people
  have split := book_size_append (people.takeWhile fun other =>
    decide (nameKey other.identity < nameKey person.identity)) (people.dropWhile fun other =>
      decide (nameKey other.identity < nameKey person.identity))
  rw [whole] at split
  rw [book_size_append, book_size_cons]
  omega

theorem book_size_without (number : List Byte) (people : List Person) :
    bookSize (Model.without number people) ≤ bookSize people := by
  induction people with
  | nil => exact Nat.le_refl _
  | cons person rest ih =>
      unfold Model.without at ih ⊢
      rw [List.filter_cons]
      split
      · rw [book_size_cons, book_size_cons]
        omega
      · rw [book_size_cons]
        omega

theorem book_size_found (found : model.find number = some person) :
    person.chat.length + 1 + bookSize (Model.without number model.people) ≤
      bookSize model.people := by
  unfold Model.find at found
  generalize model.people = people at found ⊢
  induction people with
  | nil => cases found
  | cons head rest ih =>
      rw [List.find?_cons] at found
      unfold Model.without
      rw [List.filter_cons]
      by_cases same : head.identity.phone = number
      · rw [decide_eq_true same] at found
        obtain rfl := Option.some.inj found
        have rest_ := book_size_without number rest
        unfold Model.without at rest_
        rw [if_neg (by simpa using same), book_size_cons]
        omega
      · rw [decide_eq_false same] at found
        have rest_ := ih found
        unfold Model.without at rest_
        rw [if_pos (by simpa using same), book_size_cons, book_size_cons]
        omega

theorem book_size_people (people : List Person) : people.length ≤ bookSize people := by
  induction people with
  | nil => exact Nat.le_refl _
  | cons person rest ih =>
      rw [book_size_cons, List.length_cons]
      omega

theorem book_size_add_message (phone str : Option CString) (timestamp : BitVec 32)
    (direction : Bool) :
    bookSize (model.addMessage phone timestamp direction str).2.people ≤
      bookSize model.people + 2 := by
  unfold Model.addMessage
  split
  · split
    · exact Nat.le_add_right _ _
    · dsimp only
      split
      · rename_i person found
        have known := book_size_found found
        dsimp only
        rw [book_size_insert, List.length_cons]
        omega
      · split
        · exact Nat.le_add_right _ _
        · dsimp only
          rw [book_size_insert, List.length_singleton]
          omega
  · exact Nat.le_add_right _ _

theorem book_size_update_contact (phone newName newPhone : Option CString) :
    bookSize (model.updateContact phone newName newPhone).2.people ≤ bookSize model.people := by
  unfold Model.updateContact
  split
  · split
    · exact Nat.le_refl _
    · rename_i person found
      have known := book_size_found found
      split
      · exact Nat.le_refl _
      · dsimp only
        rw [book_size_insert]
        omega
  · exact Nat.le_refl _

theorem book_size_remove_chat (phone : Option CString) :
    bookSize (model.removeChat phone).2.people ≤ bookSize model.people := by
  unfold Model.removeChat
  split
  · exact Nat.le_refl _
  · split
    · exact Nat.le_refl _
    · rename_i person found
      have known := book_size_found found
      split
      · exact Nat.le_refl _
      · dsimp only
        rw [book_size_insert, List.length_nil]
        omega

theorem book_size_next (call : Call) (model : Model) :
    bookSize (Model.next call model).people ≤ bookSize model.people + 2 := by
  cases call with
  | contactAdd name phone =>
      simp only [Model.next, Model.addContact]
      split
      · exact Nat.le_add_right _ _
      · split
        · exact Nat.le_add_right _ _
        · split
          · exact Nat.le_add_right _ _
          · dsimp only
            rw [book_size_insert, List.length_nil]
            omega
  | contactUpdate phone newName newPhone =>
      exact Nat.le_add_right_of_le (book_size_update_contact phone newName newPhone)
  | contactRemove phone =>
      simp only [Model.next, Model.removeContact]
      split
      · exact Nat.le_add_right _ _
      · split
        · exact Nat.le_add_right _ _
        · exact Nat.le_add_right_of_le (book_size_without _ _)
  | messageAdd phone timestamp direction str =>
      exact book_size_add_message phone str timestamp direction
  | messageRemoveChat phone => exact Nat.le_add_right_of_le (book_size_remove_chat phone)
  | _ => exact Nat.le_add_right _ _

end BookSize

section Room

variable {machine : Machine} {model : Model} {view : View} {chain : Nat → List Nat}
  {listing : Listing}

theorem chain_within_chat {sector : Nat → Option MessageSector} {sectors : List Nat}
    (counted : Counted sector sectors) (stored : ∀ index ∈ sectors, sector index ≠ none) :
    sectors.length ≤ (chatMessages sector sectors).length := by
  induction sectors with
  | nil => exact Nat.le_refl _
  | cons index rest ih =>
      obtain ⟨mSector, found⟩ := Option.ne_none_iff_exists'.mp (stored index List.mem_cons_self)
      have some_ := (counted index List.mem_cons_self mSector found).1
      have later := ih (fun other member => counted other (List.mem_cons_of_mem _ member))
        fun other member => stored other (List.mem_cons_of_mem _ member)
      have here : mSector.newest.length = mSector.header.msgCount.toNat := newest_first_length _ _
      rw [chat_messages_cons found, List.length_append, List.length_cons, here]
      omega

theorem chains_within_book (mounted : Mounted machine.db machine.card view chain listing) :
    (listing.flatMap fun item => chain (machine.db.htable.htable item.1).sector).length ≤
      bookSize (modelOf machine.db view chain listing).people := by
  unfold modelOf
  generalize listing = items
  induction items with
  | nil => exact Nat.le_refl _
  | cons item rest ih =>
      have here := chain_within_chat
        (mounted.core.chats.counted (machine.db.htable.htable item.1).sector)
        (mounted.core.chats.linked (machine.db.htable.htable item.1).sector).stored
      dsimp only at ih ⊢
      rw [List.flatMap_cons, List.map_cons, book_size_cons, List.length_append]
      change _ ≤ (chatOf view chain (machine.db.htable.htable item.1).sector).length + 1 + _
      rw [chatOf]
      omega

theorem Machine.Sound.sector_left (sound : machine.Sound model)
    (few : bookSize model.people < totalMessageSectorSize) :
    machine.db.messageAllocator.freeStack ≠ [] := by
  obtain ⟨view, chain, listing, mounted, tidy, rfl⟩ := sound
  intro none_
  have covered : List.range totalMessageSectorSize ⊆
      listing.flatMap fun item => chain (machine.db.htable.htable item.1).sector := by
    intro index member
    have used : view.sector index ≠ none := by
      intro unused
      have free := (mounted.core.messageFree.mem index).mpr
        ⟨List.mem_range.mp member, not_not.mpr unused⟩
      rw [none_] at free
      cases free
    obtain ⟨mSector, stored⟩ := Option.ne_none_iff_exists'.mp used
    have inChain := tidy.covered index mSector stored
    obtain ⟨identity, known⟩ := Option.ne_none_iff_exists'.mp
      (mounted.core.chats.contacts _ (List.ne_nil_of_mem inChain))
    obtain ⟨hashSlot, occupied, place, _⟩ := mounted.core.slot_of known
    rw [← place] at known inChain
    exact List.mem_flatMap.mpr ⟨_, mounted.listed_of occupied known, inChain⟩
  have length := (List.subperm_of_subset List.nodup_range covered).length_le
  have within := chains_within_book mounted
  rw [List.length_range] at length
  omega

theorem Machine.Sound.sufficient (sound : machine.Sound model) (calls : List Call)
    (few : bookSize model.people + 2 * calls.length ≤ totalMessageSectorSize) :
    machine.Sufficient calls := by
  induction calls generalizing machine model with
  | nil => trivial
  | cons call rest ih =>
      rw [List.length_cons] at few
      have room : ¬Exhausts call machine.db machine.card := fun exhausts =>
        sound.sector_left (by omega) exhausts.2
      have grown := book_size_next call model
      exact ⟨room, ih (Machine.call_sound sound call room).1 (by omega)⟩

theorem Machine.format_sufficient (machine : Machine) {calls : List Call}
    (few : 2 * calls.length ≤ totalMessageSectorSize) : machine.format.Sufficient calls := by
  apply machine.format_sound.sufficient
  rw [show bookSize Model.empty.people = 0 from rfl, Nat.zero_add]
  exact few

theorem Reachable.calls (reachable : Reachable machine) {calls : List Call}
    (enough : machine.Sufficient calls) : Reachable (machine.runCalls calls).2 := by
  induction calls generalizing machine with
  | nil => exact reachable
  | cons call rest ih => exact ih (.called reachable call enough.1) enough.2

theorem long_chat_chain (mounted : Mounted machine.db machine.card view chain listing) {slot : Nat}
    (many : messageSectorCapacity < (chatOf view chain slot).length) :
    2 ≤ (chain slot).length := by
  have counted := mounted.core.chats.counted slot
  have linked := mounted.core.chats.linked slot
  rw [chatOf] at many
  cases sectors : chain slot with
  | nil =>
      rw [sectors] at many
      exact absurd many (Nat.not_lt_zero _)
  | cons newest older =>
      cases older with
      | cons next rest => exact Nat.le_add_left _ _
      | nil =>
          rw [sectors] at many counted linked
          obtain ⟨mSector, found⟩ := Option.ne_none_iff_exists'.mp
            (linked.stored newest List.mem_cons_self)
          rw [chat_messages_cons found] at many
          have fits := (counted newest List.mem_cons_self mSector found).2
          rw [show chatMessages view.sector [] = [] from rfl, List.append_nil,
            show mSector.newest.length = mSector.header.msgCount.toNat from
              newest_first_length _ _] at many
          exact absurd fits (Nat.not_le.mpr many)

theorem long_chat_listed (mounted : Mounted machine.db machine.card view chain listing)
    {person : Person} (member : person ∈ (modelOf machine.db view chain listing).people)
    (many : messageSectorCapacity < person.chat.length) :
    ∃ slot, view.contact slot = some person.identity ∧ 2 ≤ (chain slot).length := by
  obtain ⟨slot, stored, chat⟩ := (mem_people mounted person).mp member
  rw [← chat] at many
  exact ⟨slot, stored, long_chat_chain mounted many⟩

end Room

def exampleOther : CString := ⟨[51#8, 52#8], by decide⟩

def exampleThird : CString := ⟨[53#8, 54#8], by decide⟩

/-- Four messages of one phone number, the first at the time `first`. -/
def exampleSends (phone : CString) (first : Nat) : List Call :=
  (List.range 4).map fun later =>
    .messageAdd (some phone) (BitVec.ofNat 32 (first + later)) true (some exampleText)

/-- Three contacts, two of them with chats of two sectors, the third removed with its chat. -/
def exampleCalls : List Call :=
  [.contactAdd (some exampleOther) (some exampleOther),
    .contactAdd (some exampleThird) (some exampleThird)] ++
  exampleSends exampleText 1 ++ exampleSends exampleOther 5 ++
  [.messageAdd (some exampleThird) 9#32 false (some exampleText),
    .contactUpdate (some exampleOther) (some exampleText) (some exampleOther),
    .contactRemove (some exampleThird), .callAdd (some exampleText)]

def examplePhoneBook : Model := (Model.empty.runCalls exampleCalls).2

def exampleBook : Machine := (exampleMachine.format.runCalls exampleCalls).2

theorem example_phone_book_chats :
    examplePhoneBook.people.map (fun person => (person.identity.phone, person.chat.length)) =
      [(exampleText.val, 4), (exampleOther.val, 4)] := by decide +kernel

theorem example_long_chat : ∃ person ∈ examplePhoneBook.people,
    person.identity.phone = exampleText.val ∧ messageSectorCapacity < person.chat.length := by
  have listed : (exampleText.val, 4) ∈ examplePhoneBook.people.map
      fun person => (person.identity.phone, person.chat.length) := by
    rw [example_phone_book_chats]
    exact List.mem_cons_self
  obtain ⟨person, member, same⟩ := List.mem_map.mp listed
  obtain ⟨phone, length⟩ := Prod.mk.inj same
  exact ⟨person, member, phone, by rw [length]; decide⟩

theorem example_calls_sufficient : exampleMachine.format.Sufficient exampleCalls :=
  exampleMachine.format_sufficient (by decide)

theorem example_book_reachable : Reachable exampleBook :=
  Reachable.calls (.formatted exampleMachine) example_calls_sufficient

theorem example_book_sound : exampleBook.Sound examplePhoneBook :=
  (Machine.run_calls_sound exampleMachine.format_sound _ example_calls_sufficient).1

theorem agreed_replies {expected replies : List Reply}
    (agree : List.Forall₂ Machine.Agrees (expected.map some) replies) : replies = expected := by
  induction expected generalizing replies with
  | nil =>
      cases agree
      rfl
  | cons reply rest ih =>
      cases agree with
      | cons first others => rw [first reply rfl, ih others]

theorem example_calls_answered :
    (exampleMachine.format.runCalls exampleCalls).1 =
      List.replicate exampleCalls.length (.status .strgOk) := by
  apply agreed_replies
  exact (Machine.run_calls_sound exampleMachine.format_sound _ example_calls_sufficient).2

end SdDatabase
