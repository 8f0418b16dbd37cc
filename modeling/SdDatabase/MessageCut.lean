import SdDatabase.Filling
import SdDatabase.Interrupted

/-!
# An added message that is cut

A start-up after a power cut in the adding of a message shows the old chat or the
new one. When the new sector has a smaller number than the one it follows and is not
yet linked, it is lost: its bit is set, but it is on the chain of no contact.
-/

namespace SdDatabase

open Bytes Device

set_option autoImplicit false

/-- The phone books of a message that is added, in part or not at all. -/
inductive Model.Adding (number : List Byte) (message : Message) (before after : List Person) :
    Prop where
  | unchanged (same : after = before)
  | added (person : Person) (member : person ∈ before) (known : person.identity.phone = number)
      (is : after = withChat number (message :: person.chat) before)
  | created (unnamed : Identity) (new : ∀ person ∈ before, person.identity.phone ≠ number)
      (names : unnamed.phone = number ∧ unnamed.name = []) (chat : List Message)
      (part : chat = [] ∨ chat = [message])
      (is : after = insert ⟨unnamed, chat⟩ before)

/-- Every message sector in use is on the chain of one contact, and none of them is on
the free list. -/
structure Machine.NoLeak (machine : Machine) : Prop where
  owned : ∀ index < totalMessageSectorSize,
    usageBit machine.db.usageBitmap (messageDataSector index) = true →
      ∃! hashSlot, machine.Occupied hashSlot ∧ index ∈ machine.chainAt hashSlot
  free : ∀ index ∈ machine.db.messageAllocator.freeStack,
    usageBit machine.db.usageBitmap (messageDataSector index) = false

/-- A start-up after the cut shows the old or the new chat, and no sector is lost. -/
def Machine.AddCutSafe (machine : Machine) (phone : Option CString) (timestamp : BitVec 32)
    (direction : Bool) (str : Option CString) (count : Nat) (memory : Database) : Prop :=
  ∃ rebooted before after,
    Machine.restart (machine.cut (.messageAdd phone timestamp direction str) count) memory =
      (.strgOk, rebooted) ∧
    machine.Shows before ∧ rebooted.Shows after ∧
    Model.Adding ((validPhone phone).getD [])
      (createMessage timestamp direction ((str.map Subtype.val).getD [])) before.people
      after.people ∧
    rebooted.NoLeak

/-- The chat is extended by a sector with a smaller number than the one it follows, and
the cut falls between the two transactions that do so. -/
def Machine.LosesSector (machine : Machine) (phone : Option CString) (timestamp : BitVec 32)
    (str : Option CString) (count : Nat) : Prop :=
  timestamp ≠ 0#32 ∧ str ≠ none ∧ 5 < count ∧ count ≤ 10 ∧
    ∃ number hashSlot next rest, validPhone phone = some number ∧
      (machine.run (findOccupied number)).1 = .ok hashSlot ∧
      (machine.db.htable.htable hashSlot).latestMsgExtent ≠ uint16Max ∧
      messageSectorCapacity ≤ (machine.messageSectorAt
        (machine.db.htable.htable hashSlot).latestMsgExtent).header.msgCount.toNat ∧
      machine.db.messageAllocator.freeStack = next :: rest ∧
      next < (machine.db.htable.htable hashSlot).latestMsgExtent

section People

variable {people : List Person}

theorem insert_in_order (order : InOrder people) {person : Person}
    (new : ∀ other ∈ people, nameKey other.identity ≠ nameKey person.identity) :
    InOrder (Model.insert person people) := by
  have whole := List.takeWhile_append_dropWhile
    (p := fun other : Person => decide (nameKey other.identity < nameKey person.identity))
    (l := people)
  have split := order
  rw [← whole] at split
  obtain ⟨front, back, across⟩ := List.pairwise_append.mp split
  have behind : ∀ other ∈ people.dropWhile fun other =>
      decide (nameKey other.identity < nameKey person.identity),
      nameKey person.identity < nameKey other.identity := by
    intro other member
    have inPeople : other ∈ people := (List.dropWhile_suffix _).subset member
    cases rest : people.dropWhile fun other =>
        decide (nameKey other.identity < nameKey person.identity) with
    | nil =>
        rw [rest] at member
        cases member
    | cons head tail =>
        have stop := @List.head_dropWhile_not _
          (fun other : Person => decide (nameKey other.identity < nameKey person.identity)) people
          (by rw [rest]; exact List.cons_ne_nil _ _)
        have headIn : head ∈ people := (List.dropWhile_suffix fun other : Person =>
          decide (nameKey other.identity < nameKey person.identity)).subset
            (by rw [rest]; exact List.mem_cons_self)
        simp only [rest, List.head_cons, decide_eq_false_iff_not, not_lt] at stop
        have above := lt_of_le_of_ne stop (new head headIn).symm
        rw [rest] at member back
        rcases List.mem_cons.mp member with rfl | later
        · exact above
        · exact lt_trans above ((List.pairwise_cons.mp back).1 other later)
  refine List.pairwise_append.mpr ⟨front, List.pairwise_cons.mpr ⟨behind, back⟩, ?_⟩
  intro first firstIn second secondIn
  rcases List.mem_cons.mp secondIn with rfl | later
  · have below := List.mem_takeWhile_imp firstIn
    rwa [decide_eq_true_eq] at below
  · exact across first firstIn second later

end People

section Adding

variable {machine : Machine} {view : View} {chain : Nat → List Nat} {listing : Listing}

theorem no_leak (mounted : Mounted machine.db machine.card view chain listing)
    (covered : ∀ index mSector, view.sector index = some mSector →
      index ∈ chain mSector.header.contactIndex.toNat) : machine.NoLeak where
  owned index inside used := by
    obtain ⟨hashSlot, occupied, member⟩ :=
      mounted.used_sector covered ((mounted.message_bit inside).mp used)
    exact ⟨hashSlot, ⟨occupied, member⟩, fun other both =>
      mounted.chains_apart both.1 occupied both.2 member⟩
  free index member := ((mounted.free_sectors index).mp member).2

theorem add_message_adding (mounted : Mounted machine.db machine.card view chain listing)
    {phone str : Option CString} {timestamp : BitVec 32} {direction : Bool}
    (order : InOrder ((modelOf machine.db view chain listing).addMessage phone timestamp direction
      str).2.people) :
    Model.Adding ((validPhone phone).getD [])
      (createMessage timestamp direction ((str.map Subtype.val).getD []))
      (modelOf machine.db view chain listing).people
      ((modelOf machine.db view chain listing).addMessage phone timestamp direction str).2.people := by
  have before := people_in_order mounted
  have unique : ∀ {left right : Person},
      left ∈ (modelOf machine.db view chain listing).people →
      right ∈ (modelOf machine.db view chain listing).people →
      left.identity.phone = right.identity.phone → left = right := mounted.person_unique
  generalize modelOf machine.db view chain listing = model at order unique before ⊢
  unfold Model.addMessage at order ⊢
  cases checked : checkedIdentity (some noName) phone with
  | none => exact .unchanged rfl
  | some unnamed =>
      obtain ⟨name, given⟩ := checked_identity_some checked
      have noText : unnamed.name = [] :=
        Option.some_injective _ (name.symm.trans (by simp [validStr, noName]))
      rw [checked] at order
      rw [given, Option.getD_some]
      cases str with
      | none => exact .unchanged rfl
      | some text =>
          dsimp only at order ⊢
          rw [Option.map_some, Option.getD_some]
          by_cases zero : timestamp = 0#32
          · rw [if_pos zero]
            exact .unchanged rfl
          · rw [if_neg zero] at order ⊢
            cases found : model.find unnamed.phone with
            | none =>
                have new : ∀ person ∈ model.people, person.identity.phone ≠ unnamed.phone :=
                  fun person => Model.find_none (by rw [found]; rfl)
                dsimp only
                by_cases full : hashTableEntries ≤ model.people.length
                · rw [if_pos full]
                  exact .unchanged rfl
                · rw [if_neg full]
                  exact .created unnamed new ⟨rfl, noText⟩ _ (Or.inr rfl) rfl
            | some person =>
                rw [found] at order
                obtain ⟨member, known⟩ := Model.find_some found
                refine .added person member known
                  (in_order_unique order (with_chat_in_order before _ _) fun other => ?_)
                rw [Model.mem_insert, Model.mem_without, mem_with_chat]
                constructor
                · rintro (rfl | old)
                  · exact Or.inr ⟨person, member, known, rfl⟩
                  · exact Or.inl old
                · rintro (old | ⟨first, firstIn, same, rfl⟩)
                  · exact Or.inr old
                  · rw [unique firstIn member (same.trans known.symm)]
                    exact Or.inl rfl

theorem RollsOver.loses {phone : Option CString} {number : List Byte} {slot newest next : Nat}
    {older : List Nat} {mSector : MessageSector} {timestamp : BitVec 32} {str : Option CString}
    {count : Nat} (mounted : Mounted machine.db machine.card view chain listing)
    (rolls : RollsOver machine.db view chain number slot newest next older mSector)
    (valid : validPhone phone = some number) (timed : timestamp ≠ 0#32) (text : str ≠ none)
    (late : 5 < count) (early : count ≤ 10) (below : next < newest) :
    machine.LosesSector phone timestamp str count := by
  obtain ⟨identity, stored, rfl⟩ := rolls.contact
  obtain ⟨hashSlot, occupied, rfl, latest⟩ := mounted.core.slot_of stored
  obtain ⟨rest, stack⟩ := rolls.free
  have newestIs : (machine.db.htable.htable hashSlot).latestMsgExtent = newest := by
    rw [latest, headOf, rolls.whole]
    rfl
  refine ⟨timed, text, late, early, _, hashSlot, next, rest, valid, ?_, ?_, ?_, stack, ?_⟩
  · rw [Machine.run_of (out_findOccupied_known mounted.core occupied stored)]
  · rw [newestIs]
    exact index_not_end (mounted.core.holds.messages.bound newest
      (by rw [rolls.found]; exact Option.some_ne_none _))
  · rw [newestIs, mounted.message_sector_at rolls.found]
    exact rolls.full
  · rwa [newestIs]

theorem loses_rolls {phone str : Option CString} {timestamp : BitVec 32} {count : Nat}
    (mounted : Mounted machine.db machine.card view chain listing)
    (loses : machine.LosesSector phone timestamp str count) :
    ∃ number slot newest next older mSector, validPhone phone = some number ∧
      RollsOver machine.db view chain number slot newest next older mSector ∧ next < newest := by
  obtain ⟨_, _, _, _, number, hashSlot, next, rest, valid, found, given, full, stack, below⟩ := loses
  rcases look_up mounted.core number with
    ⟨known, identity, occupied, stored, isNumber, run⟩ | ⟨_, run⟩
  · rw [Machine.run_of run] at found
    obtain rfl : known = hashSlot := Except.ok.inj found
    have noEnd := mt (latest_end_iff mounted.core occupied).mpr given
    obtain ⟨newest, older, whole⟩ := List.exists_cons_of_ne_nil noEnd
    have newestIs : (machine.db.htable.htable known).latestMsgExtent = newest := by
      rw [latest_of mounted.core occupied, headOf, whole]
      rfl
    obtain ⟨mSector, there⟩ := @ChatsHold.member _ _ mounted.core.chats
      (machine.db.htable.htable known).sector newest (by rw [whole]; simp)
    rw [newestIs] at full below
    rw [mounted.message_sector_at there] at full
    exact ⟨number, _, newest, next, older, mSector, valid,
      ⟨⟨identity, stored, isNumber⟩, whole, there, full, rest, stack⟩, below⟩
  · rw [Machine.run_of run] at found
    cases found

theorem entered_mountable (mounted : Mounted machine.db machine.card view chain listing)
    (tidy : Tidy view chain) {slot : Nat} {unnamed : Identity}
    (absent : ∀ sector other, view.contact sector = some other → other.phone ≠ unnamed.phone) :
    Mountable (view.setContact slot (some unnamed)) chain := by
  have chats := mounted.core.chats
  refine tidy_mountable ?_ ⟨chats.linked, chats.owned, chats.counted, chats.separate,
    fun other given => ?_⟩ mounted.core.holds.messages.bound ⟨tidy.nexts, tidy.covered⟩
  · intro first second left right leftStored rightStored same
    by_cases firstHere : first = slot
    · by_cases secondHere : second = slot
      · rw [firstHere, secondHere]
      · rw [set_contact_other _ _ secondHere] at rightStored
        rw [firstHere, set_contact_self, Option.some.injEq] at leftStored
        rw [← leftStored] at same
        exact absurd same.symm (absent second right rightStored)
    · rw [set_contact_other _ _ firstHere] at leftStored
      by_cases secondHere : second = slot
      · rw [secondHere, set_contact_self, Option.some.injEq] at rightStored
        rw [← rightStored] at same
        exact absurd same (absent first left leftStored)
      · rw [set_contact_other _ _ secondHere] at rightStored
        exact mounted.core.distinct _ _ _ _ leftStored rightStored same
  · by_cases here : other = slot
    · rw [here, set_contact_self]
      exact Option.some_ne_none _
    · rw [set_contact_other _ _ here]
      exact chats.contacts other given

theorem entered_book (mounted : Mounted machine.db machine.card view chain listing) {slot : Nat}
    {unnamed : Identity} (free : view.contact slot = none) (person : Person) :
    person ∈ Model.insert ⟨unnamed, []⟩ (modelOf machine.db view chain listing).people ↔
      person ∈ book (view.setContact slot (some unnamed)) chain := by
  have noChat : chain slot = [] := by
    by_contra given
    exact mounted.core.chats.contacts slot given free
  have empty : chatOf (view.setContact slot (some unnamed)) chain slot = [] := by
    rw [chatOf, noChat]
    rfl
  rw [Model.mem_insert, mem_people mounted]
  constructor
  · rintro (rfl | ⟨place, placed, chat⟩)
    · exact ⟨slot, set_contact_self _ _ _, empty⟩
    · have other : place ≠ slot := by
        rintro rfl
        rw [free] at placed
        cases placed
      exact ⟨place, by rw [set_contact_other _ _ other]; exact placed, chat⟩
  · rintro ⟨place, placed, chat⟩
    by_cases here : place = slot
    · left
      rw [here, set_contact_self, Option.some.injEq] at placed
      rw [here, empty] at chat
      cases person
      rw [Person.mk.injEq]
      exact ⟨placed.symm, chat.symm⟩
    · rw [set_contact_other _ _ here] at placed
      exact Or.inr ⟨place, placed, chat⟩

section Grown

variable {number : List Byte} {slot newest next : Nat} {older : List Nat}
  {mSector : MessageSector} (mounted : Mounted machine.db machine.card view chain listing)
  (rolls : RollsOver machine.db view chain number slot newest next older mSector)

include mounted rolls

theorem RollsOver.bounds : slot < hashTableEntries ∧ newest < 65536 ∧
    view.sector next = none ∧ next < totalMessageSectorSize := by
  obtain ⟨identity, stored, _⟩ := rolls.contact
  obtain ⟨rest, stack⟩ := rolls.free
  obtain ⟨inside, unused⟩ := mounted.core.messageFree.top stack
  have low := mounted.core.holds.messages.bound newest
    (by rw [rolls.found]; exact Option.some_ne_none _)
  refine ⟨mounted.core.contact_bound stored, ?_, not_not.mp unused, inside⟩
  simp at low
  omega

theorem unlinked_mountable (tidy : Tidy view chain) (message : Message) :
    Mountable (view.grown slot newest next message) (grownChain chain slot newest next) := by
  obtain ⟨bound, _, free, inside⟩ := rolls.bounds mounted
  exact grown_mountable (mounted.core.mountable tidy) mounted.core.holds.messages.bound tidy bound
    rolls.whole free inside

theorem unlinked_change (message : Message) :
    ChatChange view (view.grown slot newest next message) chain slot (next :: newest :: older) ∧
      chatMessages (view.grown slot newest next message).sector (next :: newest :: older) =
        message :: chatOf view chain slot := by
  obtain ⟨bound, low, free, _⟩ := rolls.bounds mounted
  have different : newest ≠ next := by
    rintro rfl
    have stored := rolls.found
    rw [free] at stored
    cases stored
  have others : ∀ index, index ≠ next → index ≠ newest →
      (view.grown slot newest next message).sector index = view.sector index :=
    fun index notNext _ => grown_sector_other view message notNext
  have kept : (view.grown slot newest next message).sector newest = some mSector := by
    rw [grown_sector_other view message different]
    exact rolls.found
  have added := grown_sector_next view slot newest next message
  exact ⟨grow_change mounted.core.chats bound rolls.whole rolls.found low free message rfl added
      (Or.inl kept) others,
    grow_messages mounted.core.chats rolls.whole rolls.found free message added (Or.inl kept)
      others⟩

theorem unlinked_covered (tidy : Tidy view chain) (message : Message) (index : Nat)
    (other : MessageSector)
    (found : (view.grown slot newest next message).sector index = some other) :
    index ∈ Function.update chain slot (next :: newest :: older)
      other.header.contactIndex.toNat := by
  obtain ⟨bound, _, _, _⟩ := rolls.bounds mounted
  by_cases same : index = next
  · rw [same, grown_sector_next, Option.some.injEq] at found
    have owner : other.header.contactIndex.toNat = slot := by
      rw [← found, (push_links _ _).2.2, createNewMessageSector, BitVec.toNat_ofNat]
      simp at bound
      omega
    rw [owner, Function.update_self, same]
    exact List.mem_cons_self
  · rw [grown_sector_other view message same] at found
    have member := tidy.covered index other found
    by_cases mine : other.header.contactIndex.toNat = slot
    · rw [mine] at member ⊢
      rw [Function.update_self, ← rolls.whole]
      exact List.mem_cons_of_mem _ member
    · rwa [Function.update_of_ne mine]

end Grown

section Cut

variable (mounted : Mounted machine.db machine.card view chain listing) (tidy : Tidy view chain)
  {phone str : Option CString} {timestamp : BitVec 32} {direction : Bool} {count : Nat}

include mounted tidy

/-- A cut leaves the old or the new chat, unless the new sector is lost. -/
theorem add_cut_safe (room : machine.db.messageAllocator.freeStack ≠ [])
    (keeps : ¬machine.LosesSector phone timestamp str count) (memory : Database) :
    machine.AddCutSafe phone timestamp direction str count memory := by
  obtain ⟨later, laterChain, laterListing, seen, final, laterMounted, laterTidy, model, recovers,
    holds, known⟩ := call_cut mounted tidy (.messageAdd phone timestamp direction str)
      (fun exhausts => room exhausts.2) count
  have restarts := fun {seenChain : Nat → List Nat} (mountable : Mountable seen seenChain) =>
    restart_spec recovers holds mountable (.none _) memory
  have finish : ∀ {seenChain : Nat → List Nat} {people : List Person}, Mountable seen seenChain →
      (∀ index mSector, seen.sector index = some mSector →
        index ∈ seenChain mSector.header.contactIndex.toNat) →
      InOrder people → (∀ person, person ∈ people ↔ person ∈ book seen seenChain) →
      Model.Adding ((validPhone phone).getD [])
        (createMessage timestamp direction ((str.map Subtype.val).getD []))
        (modelOf machine.db view chain listing).people people →
      machine.AddCutSafe phone timestamp direction str count memory := by
    intro seenChain people mountable covered order members adding
    obtain ⟨rebooted, newListing, run, _, remounted, _⟩ := restarts mountable
    refine ⟨rebooted, _, _, run, mounted_shows mounted, mounted_shows remounted, ?_,
      no_leak remounted covered⟩
    rw [people_of_book remounted order members]
    exact adding
  have order := people_in_order mounted
  have unchanged : seen = view →
      machine.AddCutSafe phone timestamp direction str count memory := by
    rintro rfl
    exact finish (mounted.core.mountable tidy) tidy.covered order (mem_people mounted)
      (.unchanged rfl)
  have views : addViews machine.db view chain phone timestamp direction str later laterChain count
      seen := known
  rcases views with ⟨same, _⟩ | ⟨number, text, valid, rfl, timed, message⟩
  · exact unchanged same
  · rw [valid, Option.getD_some, Option.map_some, Option.getD_some] at finish
    cases message with
    | before same _ => exact unchanged same
    | entered slot unnamed absent free is same =>
        obtain ⟨rfl, noText⟩ := is
        subst same
        have new : ∀ person ∈ (modelOf machine.db view chain listing).people,
            person.identity.phone ≠ unnamed.phone := by
          intro person member
          obtain ⟨slot, stored, _⟩ := (mem_people mounted person).mp member
          exact absent slot person.identity stored
        refine finish (entered_mountable mounted tidy absent) tidy.covered
          (insert_in_order order fun person member same => ?_) (entered_book mounted free)
          (.created unnamed new ⟨rfl, noText⟩ [] (Or.inl rfl) rfl)
        exact new person member (name_key_phone same)
    | unlinked slot newest next older mSector rolls late early same =>
        subst same
        have mountable := unlinked_mountable mounted rolls tidy
          (createMessage timestamp direction text.val)
        unfold grownChain at mountable
        by_cases above : newest < next
        · rw [if_pos above, rolls.whole] at mountable
          obtain ⟨identity, stored, rfl⟩ := rolls.contact
          obtain ⟨change, messages⟩ := unlinked_change mounted rolls
            (createMessage timestamp direction text.val)
          have members := with_chat_book mounted stored change.contact
            fun other different => chat_of_change_other change different
          rw [chat_of_change_self, messages] at members
          refine finish mountable (unlinked_covered mounted rolls tidy _)
            (with_chat_in_order order _ _) members ?_
          exact .added ⟨identity, chatOf view chain slot⟩
            ((mem_people mounted _).mpr ⟨slot, stored, rfl⟩) rfl rfl
        · have different : next ≠ newest := by
            rintro rfl
            obtain ⟨_, _, free, _⟩ := rolls.bounds mounted
            have stored := rolls.found
            rw [free] at stored
            cases stored
          exact absurd (rolls.loses mounted valid timed (Option.some_ne_none _) late early
            (by omega)) keeps
    | after contact sector _ =>
        have laterOrder := people_in_order laterMounted
        rw [model] at laterOrder
        have adding := @add_message_adding _ _ _ _ mounted _ _ _ _ laterOrder
        rw [valid, Option.getD_some, Option.map_some, Option.getD_some] at adding
        refine finish ((laterMounted.core.mountable laterTidy).congr contact sector) ?_ laterOrder
          (fun person => ?_) adding
        · rw [sector]
          exact laterTidy.covered
        · have books : book seen laterChain = book later laterChain := by
            unfold book chatOf
            rw [contact, sector]
          have members := mem_people laterMounted person
          rw [model] at members
          rw [books]
          exact members

/-- A cut between the two transactions leaves the new sector without a link to it. -/
theorem unlinked_cut {number : List Byte} {slot newest next : Nat} {older : List Nat}
    {mSector : MessageSector}
    (rolls : RollsOver machine.db view chain number slot newest next older mSector)
    (valid : validPhone phone = some number) (timed : timestamp ≠ 0#32) {text : CString}
    (late : 5 < count) (early : count ≤ 10) :
    ∃ final, Recovers (machine.cut (.messageAdd phone timestamp direction (some text)) count) final ∧
      HoldsView final
        (view.grown slot newest next (createMessage timestamp direction text.val)) := by
  obtain ⟨rest, stack⟩ := rolls.free
  have room : ¬Exhausts (.messageAdd phone timestamp direction (some text)) machine.db
      machine.card := by
    rintro ⟨_, none_⟩
    rw [none_] at stack
    cases stack
  obtain ⟨later, laterChain, laterListing, seen, final, laterMounted, laterTidy, model, recovers,
    holds, known⟩ := call_cut mounted tidy (.messageAdd phone timestamp direction (some text)) room
      count
  have views : addViews machine.db view chain phone timestamp direction (some text) later laterChain
      count seen := known
  obtain ⟨identity, stored, isNumber⟩ := rolls.contact
  refine ⟨final, recovers, ?_⟩
  rcases views with ⟨_, refused⟩ | ⟨given, content, givenValid, same, _, message⟩
  · exact absurd isNumber (refused (Option.some_ne_none _) timed number valid slot identity stored)
  · obtain rfl := Option.some.inj same
    rw [valid, Option.some.injEq] at givenValid
    subst givenValid
    cases message with
    | before _ short => exact absurd (short _ _ _ _ _ rolls) (by omega)
    | entered _ _ absent => exact absurd isNumber (absent slot identity stored)
    | unlinked otherSlot otherNewest otherNext _ _ otherRolls _ _ same =>
        obtain ⟨otherIdentity, otherStored, otherNumber⟩ := otherRolls.contact
        obtain rfl := mounted.core.distinct _ _ _ _ otherStored stored
          (otherNumber.trans isNumber.symm)
        obtain ⟨rfl, _⟩ := List.cons_eq_cons.mp (otherRolls.whole.symm.trans rolls.whole)
        obtain ⟨otherRest, otherStack⟩ := otherRolls.free
        obtain ⟨rfl, _⟩ := List.cons_eq_cons.mp (otherStack.symm.trans stack)
        rw [← same]
        exact holds
    | after _ _ long => exact absurd (long _ _ _ _ _ rolls) (by omega)

/-- A sector that is used but on no chain. -/
theorem add_cut_unsafe (loses : machine.LosesSector phone timestamp str count)
    (memory : Database) : ¬machine.AddCutSafe phone timestamp direction str count memory := by
  obtain ⟨number, slot, newest, next, older, mSector, valid, rolls, below⟩ :=
    loses_rolls mounted loses
  obtain ⟨timed, textGiven, late, early, _⟩ := loses
  obtain ⟨text, rfl⟩ := Option.ne_none_iff_exists'.mp textGiven
  obtain ⟨final, recovers, holds⟩ := @unlinked_cut _ _ _ _ mounted tidy _ _ direction _ _ _ _ _ _ _
    rolls valid timed text late early
  have mountable := unlinked_mountable mounted rolls tidy
    (createMessage timestamp direction text.val)
  unfold grownChain at mountable
  rw [if_neg (by omega)] at mountable
  obtain ⟨rebooted, newListing, run, _, remounted, _⟩ :=
    restart_spec recovers holds mountable (.none _) memory
  rintro ⟨other, _, _, otherRun, _, _, _, noLeak⟩
  rw [run, Prod.mk.injEq] at otherRun
  obtain rfl := otherRun.2
  obtain ⟨_, _, free, inside⟩ := rolls.bounds mounted
  have used : (view.grown slot newest next
      (createMessage timestamp direction text.val)).sector next ≠ none := by
    rw [grown_sector_next]
    exact Option.some_ne_none _
  obtain ⟨hashSlot, ⟨occupied, member⟩, _⟩ :=
    noLeak.owned next inside ((remounted.message_bit inside).mpr used)
  rw [remounted.chain_at occupied] at member
  exact (mounted.core.chats.linked _).stored next member free

end Cut

end Adding

/-- A power cut in the adding of a message is safe but between the two transactions that
put a new sector with a smaller number in front of a full one. -/
theorem message_add_cut_safe_iff {machine : Machine} (reachable : Reachable machine)
    (room : machine.db.messageAllocator.freeStack ≠ []) (phone : Option CString)
    (timestamp : BitVec 32) (direction : Bool) (str : Option CString) (count : Nat)
    (memory : Database) :
    machine.AddCutSafe phone timestamp direction str count memory ↔
      ¬machine.LosesSector phone timestamp str count := by
  obtain ⟨_, view, chain, listing, mounted, tidy, _⟩ := reachable.sound
  exact ⟨fun safe loses => add_cut_unsafe mounted tidy loses memory safe,
    fun keeps => add_cut_safe mounted tidy room keeps memory⟩

theorem message_add_cut_safe_example :
    exampleChatMachine.db.messageAllocator.freeStack ≠ [] ∧
      (exampleChatMachine.AddCutSafe (some exampleText) 8#32 true (some exampleText) 3
          formattedDatabase ↔
        ¬exampleChatMachine.LosesSector (some exampleText) 8#32 (some exampleText) 3) := by
  obtain ⟨_, _, _, _, fills⟩ := @chat_fills_start _ exampleMachine (some exampleText) 7#32 true
    exampleText example_valid (by decide)
  have room : exampleChatMachine.db.messageAllocator.freeStack ≠ [] := by
    unfold exampleChatMachine
    exact fills.stack_some (by decide)
  exact ⟨room, message_add_cut_safe_iff example_chat_reachable room _ _ _ _ _ _⟩

/-- The fourth message of the first chat is cut between its two transactions. -/
theorem message_add_cut_leaks :
    Reachable exampleFullMachine ∧ exampleFullMachine.db.messageAllocator.freeStack ≠ [] ∧
      ¬exampleFullMachine.AddCutSafe (some exampleText) 10#32 true (some exampleText) 6
        formattedDatabase := by
  obtain ⟨view, chain, listing, slot, fills⟩ := example_full_fills
  have some_ : 0 < totalMessageSectorSize - 1 := by decide
  obtain ⟨older, mSector, rolls⟩ := fills.rolls_over some_ rfl
  refine ⟨fills.reachable, fills.stack_some some_, add_cut_unsafe fills.mounted fills.tidy ?_ _⟩
  exact rolls.loses fills.mounted example_valid (by decide) (Option.some_ne_none _) (by decide)
    (by decide) (Nat.sub_lt some_ Nat.one_pos)

end SdDatabase
