import SdDatabase.FewCalls

/-!
# A remount without a power cut

When every message is younger than the ones before, the chats in the order of their
last message are the chats in the order of their newest timestamps. The mount sorts
by timestamp, so it finds the order that the calls had left.
-/

namespace SdDatabase

open Bytes Device

set_option autoImplicit false

def Message.time (message : Message) : Nat :=
  joinTimestamp message.timestampHi message.timestampLo

def Person.time (person : Person) : Nat := (person.chat.headD .zero).time

theorem no_message_time (identity : Identity) : (Person.mk identity []).time = 0 := by
  unfold Person.time
  rw [List.headD_nil]
  rfl

theorem create_message_time (timestamp : BitVec 32) (direction : Bool) (text : List Byte) :
    (createMessage timestamp direction text).time = timestamp.toNat := by
  unfold createMessage Message.time joinTimestamp
  by_cases zero : timestamp = 0#32
  · rw [if_pos zero, zero]
    rfl
  · rw [if_neg zero]
    have bound := timestamp.isLt
    simp only [BitVec.toNat_setWidth, BitVec.toNat_ushiftRight, Nat.shiftRight_eq_div_pow]
    omega

namespace Model

theorem mem_insert {person other : Person} {people : List Person} :
    other ∈ insert person people ↔ other = person ∨ other ∈ people := by
  have whole : ∀ smaller : Person → Bool, other ∈ people ↔
      other ∈ people.takeWhile smaller ∨ other ∈ people.dropWhile smaller := by
    intro smaller
    rw [← List.mem_append, List.takeWhile_append_dropWhile]
  rw [insert, List.mem_append, List.mem_cons,
    whole fun other => decide (nameKey other.identity < nameKey person.identity)]
  tauto

theorem mem_without {phone : List Byte} {other : Person} {people : List Person} :
    other ∈ without phone people ↔ other ∈ people ∧ other.identity.phone ≠ phone := by
  rw [without, List.mem_filter, decide_eq_true_eq]

theorem find_some {model : Model} {phone : List Byte} {person : Person}
    (found : model.find phone = some person) :
    person ∈ model.people ∧ person.identity.phone = phone := by
  have same := List.find?_some found
  rw [decide_eq_true_eq] at same
  exact ⟨List.mem_of_find?_eq_some found, same⟩

theorem find_none {model : Model} {phone : List Byte} (absent : (model.find phone).isSome = false)
    {person : Person} (member : person ∈ model.people) : person.identity.phone ≠ phone := by
  rw [Option.isSome_eq_false_iff, Option.isNone_iff_eq_none] at absent
  have other := List.find?_eq_none.mp absent person member
  rwa [decide_eq_true_eq] at other

/-- The recency list has the people with messages, each once. -/
structure Consistent (model : Model) : Prop where
  nodup : model.recent.Nodup
  recent : ∀ phone, phone ∈ model.recent ↔
    ∃ person ∈ model.people, person.identity.phone = phone ∧ person.chat ≠ []

/-- Chats come in the order of their newest messages, none of which is younger than
`last`. -/
structure InTime (model : Model) (last : Nat) : Prop where
  upTo : ∀ person ∈ model.people, person.time ≤ last
  order : model.recent.Pairwise fun first second => ∀ newer ∈ model.people,
    ∀ older ∈ model.people, newer.identity.phone = first → older.identity.phone = second →
      older.time < newer.time

section InTime

variable {model : Model} {last : Nat}

theorem InTime.sublist (inTime : model.InTime last) {people : List Person}
    {recent : List (List Byte)} (fewer : recent.Sublist model.recent)
    (upTo : ∀ person ∈ people, person.time ≤ last)
    (same : ∀ person ∈ people, person.identity.phone ∈ recent → person ∈ model.people) :
    (Model.mk people recent).InTime last where
  upTo := upTo
  order := by
    refine (inTime.order.sublist fewer).imp_of_mem
      fun {first second} inFirst inSecond keeps newer newerIn older olderIn isFirst isSecond => ?_
    subst isFirst isSecond
    exact keeps newer (same newer newerIn inFirst) older (same older olderIn inSecond) rfl rfl

theorem InTime.added (inTime : model.InTime last) (consistent : model.Consistent)
    (name phone : Option CString) : (addContact name phone model).2.InTime last := by
  unfold addContact
  cases checkedIdentity name phone with
  | none => exact inTime
  | some identity =>
      dsimp only
      by_cases known : (model.find identity.phone).isSome = true
      · rw [if_pos known]
        exact inTime
      · rw [if_neg known]
        by_cases full : hashTableEntries ≤ model.people.length
        · rw [if_pos full]
          exact inTime
        · rw [if_neg full]
          refine inTime.sublist (List.Sublist.refl _) ?_ ?_
          · intro person member
            rcases mem_insert.mp member with rfl | old
            · rw [no_message_time]
              exact Nat.zero_le _
            · exact inTime.upTo person old
          · intro person member inRecent
            rcases mem_insert.mp member with rfl | old
            · obtain ⟨other, inPeople, same, _⟩ := (consistent.recent _).mp inRecent
              exact absurd same (find_none (Bool.eq_false_iff.mpr known) inPeople)
            · exact old

theorem InTime.removed (inTime : model.InTime last) (phone : Option CString) :
    (removeContact phone model).2.InTime last := by
  unfold removeContact
  cases validPhone phone with
  | none => exact inTime
  | some phone =>
      dsimp only
      split
      · exact inTime
      · refine inTime.sublist List.erase_sublist ?_ ?_
        · exact fun person member => inTime.upTo person (mem_without.mp member).1
        · exact fun person member _ => (mem_without.mp member).1

theorem InTime.chatRemoved (inTime : model.InTime last) (consistent : model.Consistent)
    (phone : Option CString) : (removeChat phone model).2.InTime last := by
  unfold removeChat
  cases validPhone phone with
  | none => exact inTime
  | some phone =>
      dsimp only
      cases found : model.find phone with
      | none => exact inTime
      | some person =>
          dsimp only
          split
          · exact inTime
          · obtain ⟨_, same⟩ := find_some found
            refine inTime.sublist List.erase_sublist ?_ ?_
            · intro other member
              rcases mem_insert.mp member with rfl | old
              · rw [no_message_time]
                exact Nat.zero_le _
              · exact inTime.upTo other (mem_without.mp old).1
            · intro other member inRecent
              rcases mem_insert.mp member with rfl | old
              · rw [same] at inRecent
                exact absurd inRecent consistent.nodup.not_mem_erase
              · exact (mem_without.mp old).1

theorem InTime.pushed (inTime : model.InTime last) (consistent : model.Consistent)
    {person : Person} {people : List Person} {phone : List Byte}
    (isPhone : person.identity.phone = phone) (younger : last < person.time)
    (others : ∀ other ∈ people, other ∈ model.people ∧ other.identity.phone ≠ phone) :
    (Model.mk (insert person people) (touch phone model.recent)).InTime person.time where
  upTo other member := by
    rcases mem_insert.mp member with rfl | old
    · exact le_refl _
    · exact le_trans (inTime.upTo other (others other old).1) younger.le
  order := by
    have gone := @consistent.nodup.not_mem_erase _ _ _ _ phone
    have old : ∀ other ∈ insert person people, other.identity.phone ≠ phone →
        other ∈ model.people := by
      intro other member different
      rcases mem_insert.mp member with rfl | inPeople
      · exact absurd isPhone different
      · exact (others other inPeople).1
    refine List.pairwise_cons.mpr ⟨fun second inSecond newer newerIn older olderIn isFirst isSecond
      => ?_, ?_⟩
    · have different : older.identity.phone ≠ phone := by
        rw [isSecond]
        rintro rfl
        exact gone inSecond
      have below := inTime.upTo older (old older olderIn different)
      rcases mem_insert.mp newerIn with rfl | inPeople
      · omega
      · exact absurd isFirst (others newer inPeople).2
    · refine (inTime.order.sublist List.erase_sublist).imp_of_mem
        fun {first second} inFirst inSecond keeps newer newerIn older olderIn isFirst isSecond => ?_
      subst isFirst isSecond
      exact keeps newer (old newer newerIn fun same => gone (by rwa [same] at inFirst)) older
        (old older olderIn fun same => gone (by rwa [same] at inSecond)) rfl rfl

theorem InTime.updated (inTime : model.InTime last) (consistent : model.Consistent)
    (phone newName newPhone : Option CString) :
    (updateContact phone newName newPhone model).2.InTime last := by
  unfold updateContact
  cases validPhone phone with
  | none => exact inTime
  | some phone =>
      cases checkedIdentity newName newPhone with
      | none => exact inTime
      | some identity =>
          dsimp only
          cases found : model.find phone with
          | none => exact inTime
          | some person =>
              dsimp only
              split
              · exact inTime
              · rename_i free
                obtain ⟨inPeople, isPhone⟩ := find_some found
                have time : (Person.mk identity person.chat).time = person.time := rfl
                -- a person with the new number is the one that had the old number
                have fresh : ∀ other ∈ model.people, other.identity.phone = identity.phone →
                    identity.phone = phone := by
                  intro other member same
                  by_contra different
                  have absent : (model.find identity.phone).isSome = false :=
                    Bool.eq_false_iff.mpr fun known => free ⟨different, known⟩
                  exact find_none absent member same
                have was : ∀ other ∈ insert ⟨identity, person.chat⟩ (without phone model.people),
                    ∀ place ∈ model.recent,
                      other.identity.phone = (if place = phone then identity.phone else place) →
                      ∃ before ∈ model.people, before.identity.phone = place ∧
                        before.time = other.time := by
                  intro other member place inRecent same
                  by_cases here : place = phone
                  · rw [if_pos here] at same
                    rcases mem_insert.mp member with rfl | old
                    · exact ⟨person, inPeople, isPhone.trans here.symm, time.symm⟩
                    · obtain ⟨inOld, different⟩ := mem_without.mp old
                      exact absurd (same.trans (fresh other inOld same)) different
                  · rw [if_neg here] at same
                    rcases mem_insert.mp member with rfl | old
                    · obtain ⟨other, inOld, isPlace, _⟩ := (consistent.recent place).mp inRecent
                      have taken := fresh other inOld (isPlace.trans same.symm)
                      exact absurd (same.symm.trans taken) here
                    · exact ⟨other, (mem_without.mp old).1, same, rfl⟩
                constructor
                · intro other member
                  rcases mem_insert.mp member with rfl | old
                  · rw [time]
                    exact inTime.upTo person inPeople
                  · exact inTime.upTo other (mem_without.mp old).1
                · refine List.pairwise_map.mpr (inTime.order.imp_of_mem
                    fun {first second} inFirst inSecond keeps newer newerIn older olderIn isFirst
                      isSecond => ?_)
                  obtain ⟨newerWas, newerThere, newerPlace, newerTime⟩ :=
                    was newer newerIn first inFirst isFirst
                  obtain ⟨olderWas, olderThere, olderPlace, olderTime⟩ :=
                    was older olderIn second inSecond isSecond
                  rw [← newerTime, ← olderTime]
                  exact keeps newerWas newerThere olderWas olderThere newerPlace olderPlace

theorem InTime.messageAdded (inTime : model.InTime last) (consistent : model.Consistent)
    {phone str : Option CString} {timestamp : BitVec 32} {direction : Bool} {ret : StrgRet}
    {after : Model} (run : addMessage phone timestamp direction str model = (ret, after))
    (younger : ret = .strgOk → last < timestamp.toNat) :
    after.InTime (if ret = .strgOk then timestamp.toNat else last) := by
  have refused : ((StrgRet.strgFail, model) : StrgRet × Model) = (ret, after) →
      after.InTime (if ret = .strgOk then timestamp.toNat else last) := by
    intro same
    obtain ⟨rfl, rfl⟩ := Prod.mk.inj same
    exact inTime
  unfold addMessage at run
  cases checked : checkedIdentity (some noName) phone with
  | none =>
      rw [checked] at run
      exact refused run
  | some unnamed =>
      rw [checked] at run
      cases str with
      | none => exact refused run
      | some text =>
          dsimp only at run
          by_cases zero : timestamp = 0#32
          · rw [if_pos zero] at run
            exact refused run
          · rw [if_neg zero] at run
            have time : ∀ (identity : Identity) (chat : List Message), (Person.mk identity
                (createMessage timestamp direction text.val :: chat)).time = timestamp.toNat :=
              fun _ _ => create_message_time timestamp direction text.val
            cases found : model.find unnamed.phone with
            | none =>
                rw [found] at run
                dsimp only at run
                by_cases full : hashTableEntries ≤ model.people.length
                · rw [if_pos full] at run
                  exact refused run
                · rw [if_neg full] at run
                  obtain ⟨rfl, rfl⟩ := Prod.mk.inj run
                  rw [if_pos rfl, ← time unnamed []]
                  refine inTime.pushed consistent rfl (by rw [time]; exact younger rfl) ?_
                  intro other member
                  exact ⟨member, find_none (by rw [found]; rfl) member⟩
            | some person =>
                rw [found] at run
                obtain ⟨rfl, rfl⟩ := Prod.mk.inj run
                rw [if_pos rfl, ← time person.identity person.chat]
                refine inTime.pushed consistent (find_some found).2
                  (by rw [time]; exact younger rfl) ?_
                exact fun other member => mem_without.mp member

/-- The timestamp of the message that a call adds. -/
def addedTime (model : Model) : Call → Option Nat
  | .messageAdd phone timestamp direction str =>
      if (addMessage phone timestamp direction str model).1 = .strgOk then some timestamp.toNat
      else none
  | _ => none

theorem InTime.next (inTime : model.InTime last) (consistent : model.Consistent) (call : Call)
    (younger : ∀ time ∈ model.addedTime call, last < time) :
    (Model.next call model).InTime ((model.addedTime call).getD last) := by
  cases call with
  | contactAdd name phone => exact inTime.added consistent name phone
  | contactUpdate phone newName newPhone => exact inTime.updated consistent phone newName newPhone
  | contactRemove phone => exact inTime.removed phone
  | messageRemoveChat phone => exact inTime.chatRemoved consistent phone
  | messageAdd phone timestamp direction str =>
      cases run : addMessage phone timestamp direction str model with
      | mk ret after =>
          have time : model.addedTime (.messageAdd phone timestamp direction str) =
              if ret = .strgOk then some timestamp.toNat else none := by
            rw [addedTime, run]
          have later : Model.next (.messageAdd phone timestamp direction str) model = after := by
            rw [Model.next, run]
          rw [time] at younger ⊢
          have step := inTime.messageAdded consistent run fun added =>
            younger timestamp.toNat (by rw [if_pos added]; rfl)
          rw [later]
          by_cases added : ret = .strgOk
          · rw [if_pos added] at step ⊢
            exact step
          · rw [if_neg added] at step ⊢
            exact step
  | _ => exact inTime

end InTime

end Model

section Mounted

variable {db : Database} {card : Card Sector} {view : View} {chain : Nat → List Nat}
  {listing : Listing}

theorem Mounted.recent_person (mounted : Mounted db card view chain listing) {hashSlot : Nat}
    (member : hashSlot ∈ db.chatOrder.mem) :
    ∃ person ∈ (modelOf db view chain listing).people,
      person.identity.phone = phoneAt db view hashSlot ∧ person.chat ≠ [] ∧
        person.time = timeAt db view chain hashSlot := by
  obtain ⟨occupied, given⟩ := (mounted.order.mem hashSlot).mp member
  obtain ⟨identity, entry⟩ := mounted.core.table.entry hashSlot occupied
  have some_ := mt (latest_end_iff mounted.core occupied).mpr given
  refine ⟨⟨identity, chatOf view chain (db.htable.htable hashSlot).sector⟩,
    (mem_people mounted _).mpr ⟨_, entry.stored, rfl⟩, ?_,
    mt (chat_empty_iff mounted.core.chats _).mp some_, rfl⟩
  exact (phone_at_listed occupied entry.stored).symm

theorem Mounted.person_unique (mounted : Mounted db card view chain listing) {left right : Person}
    (leftIn : left ∈ (modelOf db view chain listing).people)
    (rightIn : right ∈ (modelOf db view chain listing).people)
    (same : left.identity.phone = right.identity.phone) : left = right := by
  obtain ⟨leftSlot, leftStored, leftChat⟩ := (mem_people mounted left).mp leftIn
  obtain ⟨rightSlot, rightStored, rightChat⟩ := (mem_people mounted right).mp rightIn
  obtain rfl := mounted.core.distinct _ _ _ _ leftStored rightStored same
  have identities := Option.some_injective _ (leftStored.symm.trans rightStored)
  cases left
  cases right
  exact (Person.mk.injEq ..).mpr ⟨identities, leftChat.symm.trans rightChat⟩

theorem Mounted.consistent (mounted : Mounted db card view chain listing) :
    (modelOf db view chain listing).Consistent where
  nodup := by
    refine (List.nodup_map_iff_inj_on mounted.order.nodup).mpr ?_
    intro first firstIn second secondIn same
    obtain ⟨firstOccupied, _⟩ := (mounted.order.mem first).mp firstIn
    obtain ⟨secondOccupied, _⟩ := (mounted.order.mem second).mp secondIn
    obtain ⟨left, leftEntry⟩ := mounted.core.table.entry first firstOccupied
    obtain ⟨right, rightEntry⟩ := mounted.core.table.entry second secondOccupied
    rw [phone_at_listed firstOccupied leftEntry.stored,
      phone_at_listed secondOccupied rightEntry.stored] at same
    exact mounted.core.table.separate _ _ firstOccupied secondOccupied
      (mounted.core.distinct _ _ _ _ leftEntry.stored rightEntry.stored same)
  recent phone := by
    constructor
    · intro member
      obtain ⟨hashSlot, inOrder, rfl⟩ := List.mem_map.mp member
      obtain ⟨person, inPeople, isPhone, chat, _⟩ := mounted.recent_person inOrder
      exact ⟨person, inPeople, isPhone, chat⟩
    · rintro ⟨person, member, rfl, chat⟩
      obtain ⟨slot, stored, chatIs⟩ := (mem_people mounted person).mp member
      obtain ⟨hashSlot, occupied, rfl, _⟩ := mounted.core.slot_of stored
      rw [← chatIs] at chat
      have some_ := mt (chat_empty_iff mounted.core.chats _).mpr chat
      have given := mt (latest_end_iff mounted.core occupied).mp some_
      exact List.mem_map.mpr ⟨hashSlot, (mounted.order.mem hashSlot).mpr ⟨occupied, given⟩,
        phone_at_listed occupied stored⟩

end Mounted

theorem recent_perm {first second : Machine} {view : View} {chain : Nat → List Nat}
    {listing otherListing : Listing}
    (left : Mounted first.db first.card view chain listing)
    (right : Mounted second.db second.card view chain otherListing) :
    (modelOf first.db view chain listing).recent.Perm
      (modelOf second.db view chain otherListing).recent := by
  refine (List.perm_ext_iff_of_nodup left.consistent.nodup right.consistent.nodup).mpr
    fun phone => ?_
  rw [left.consistent.recent, right.consistent.recent, people_unique left right rfl]

theorem remounted_recent {first second : Machine} {view : View} {chain : Nat → List Nat}
    {listing otherListing : Listing} {last : Nat}
    (left : Mounted first.db first.card view chain listing)
    (right : Mounted second.db second.card view chain otherListing)
    (inTime : (modelOf first.db view chain listing).InTime last)
    (recent : RecentFirst second.db view chain) :
    (modelOf first.db view chain listing).recent =
      (modelOf second.db view chain otherListing).recent := by
  have people := people_unique left right rfl
  have perm := recent_perm left right
  -- the order by time, in which no two chats of the first list are equal
  let related (times : Nat → Nat → Prop) : List Byte → List Byte → Prop := fun one two =>
    ∀ newer ∈ (modelOf first.db view chain listing).people,
      ∀ older ∈ (modelOf first.db view chain listing).people,
        newer.identity.phone = one → older.identity.phone = two → times older.time newer.time
  have strict : (modelOf first.db view chain listing).recent.Pairwise (related (· < ·)) :=
    inTime.order
  have weaken : ∀ {times : Nat → Nat → Prop}, (∀ one two, one < two → times one two) →
      (modelOf first.db view chain listing).recent.Pairwise (related times) := by
    intro times wider
    exact strict.imp fun less newer newerIn older olderIn isOne isTwo =>
      wider _ _ (less newer newerIn older olderIn isOne isTwo)
  refine @List.Perm.eq_of_pairwise _ (related (· ≤ ·)) _ _ ?_ (weaken fun _ _ => Nat.le_of_lt) ?_ perm
  · intro one two oneIn twoIn down up
    by_contra different
    have apart := @weaken (· ≠ ·) fun _ _ => Nat.ne_of_lt
    have symm : Std.Symm (related (· ≠ ·)) :=
      ⟨fun one two differ newer newerIn older olderIn isOne isTwo =>
        (differ older olderIn newer newerIn isTwo isOne).symm⟩
    have twoIn := perm.mem_iff.mpr twoIn
    obtain ⟨newer, newerIn, isOne, _⟩ := (left.consistent.recent one).mp oneIn
    obtain ⟨older, olderIn, isTwo, _⟩ := (left.consistent.recent two).mp twoIn
    have times := apart.forall oneIn twoIn different newer newerIn older olderIn isOne isTwo
    have below := down newer newerIn older olderIn isOne isTwo
    have above := up older olderIn newer newerIn isTwo isOne
    omega
  · refine List.pairwise_map.mpr (recent.imp_of_mem
      fun {one two} oneIn twoIn less newer newerIn older olderIn isOne isTwo => ?_)
    rw [people] at newerIn olderIn
    obtain ⟨onePerson, oneThere, onePhone, _, oneTime⟩ := right.recent_person oneIn
    obtain ⟨twoPerson, twoThere, twoPhone, _, twoTime⟩ := right.recent_person twoIn
    rw [right.person_unique newerIn oneThere (isOne.trans onePhone.symm),
      right.person_unique olderIn twoThere (isTwo.trans twoPhone.symm), oneTime, twoTime]
    exact less

/-- The timestamp of the message that a call adds. -/
def Machine.addedTime (machine : Machine) (call : Call) : Option Nat :=
  match call, (machine.run call.run).1 with
  | .messageAdd _ timestamp _ _, .status .strgOk => some timestamp.toNat
  | _, _ => none

/-- Machines behind a format, calls that find sectors enough, and reboots, where each
message added is younger than the ones before; the youngest is of the time `last`. -/
inductive Timed : Machine → Nat → Prop where
  | formatted (machine : Machine) : Timed machine.format 0
  | called {machine : Machine} {last : Nat} (before : Timed machine last) (call : Call)
      (room : ¬Exhausts call machine.db machine.card)
      (younger : ∀ time ∈ machine.addedTime call, last < time) :
      Timed (machine.run call.run).2 ((machine.addedTime call).getD last)
  | restarted {machine : Machine} {last : Nat} (before : Timed machine last) (memory : Database) :
      Timed (Machine.restart machine.card memory).2 last

def Call.reads : Call → Bool
  | .contactGet .. | .contactList .. | .contactSeek .. | .contactCount | .messageGetChat ..
  | .messageRecent .. | .chatList .. | .chatCount | .callRecent .. => true
  | _ => false

theorem added_time_eq {machine : Machine} {model : Model} (sound : machine.Sound model)
    (call : Call) (room : ¬Exhausts call machine.db machine.card) :
    machine.addedTime call = model.addedTime call := by
  have answers := (Machine.call_sound sound call room).2
  cases call with
  | messageAdd phone timestamp direction str =>
      have reply := answers _ rfl
      unfold Machine.addedTime Model.addedTime
      rw [reply]
      cases ret : (Model.addMessage phone timestamp direction str model).1 <;> simp [ret]
  | _ =>
      unfold Machine.addedTime Model.addedTime
      split
      · contradiction
      · rfl

theorem Timed.inTime {machine : Machine} {last : Nat} (timed : Timed machine last) :
    ∃ view chain listing, Mounted machine.db machine.card view chain listing ∧ Tidy view chain ∧
      (modelOf machine.db view chain listing).InTime last := by
  induction timed with
  | formatted machine =>
      rw [Machine.format_eq]
      dsimp only
      exact ⟨blankView, fun _ => [], [], format_mounted machine.card, blank_tidy,
        ⟨fun _ member => absurd member List.not_mem_nil, .nil⟩⟩
  | @called machine last before call room younger ih =>
      obtain ⟨view, chain, listing, mounted, tidy, inTime⟩ := ih
      have sound : machine.Sound (modelOf machine.db view chain listing) :=
        ⟨view, chain, listing, mounted, tidy, rfl⟩
      obtain ⟨later, laterChain, laterListing, laterMounted, laterTidy, model⟩ :=
        (Machine.call_sound sound call room).1
      rw [added_time_eq sound call room] at younger ⊢
      refine ⟨later, laterChain, laterListing, laterMounted, laterTidy, ?_⟩
      rw [model]
      exact inTime.next mounted.consistent call younger
  | @restarted machine last before memory ih =>
      obtain ⟨view, chain, listing, mounted, tidy, inTime⟩ := ih
      obtain ⟨next, newListing, run, _, remounted, recent⟩ := mounted_restart mounted tidy memory
      rw [run]
      refine ⟨view, chain, newListing, remounted, tidy, ?_⟩
      have people := people_unique mounted remounted rfl
      have order := remounted_recent mounted remounted inTime recent
      have same : modelOf next.db view chain newListing =
          modelOf machine.db view chain listing := by
        rw [Model.mk.injEq]
        exact ⟨people.symm, order.symm⟩
      rw [same]
      exact inTime

def Call.sentTime : Call → Option Nat
  | .messageAdd _ timestamp _ _ => some timestamp.toNat
  | _ => none

theorem added_time_sent {machine : Machine} {call : Call} {time : Nat}
    (added : time ∈ machine.addedTime call) : call.sentTime = some time := by
  unfold Machine.addedTime at added
  split at added
  · exact added
  · cases added

theorem Timed.calls {machine : Machine} {last : Nat} (timed : Timed machine last)
    {calls : List Call} (enough : machine.Sufficient calls)
    (rising : (last :: calls.filterMap Call.sentTime).Pairwise (· < ·)) :
    ∃ newest, Timed (machine.runCalls calls).2 newest := by
  induction calls generalizing machine last with
  | nil => exact ⟨last, timed⟩
  | cons call rest ih =>
      have next := timed.called call enough.1 fun time added => by
        rw [List.filterMap_cons_some (added_time_sent added)] at rising
        exact List.rel_of_pairwise_cons rising List.mem_cons_self
      refine ih next enough.2 ?_
      cases time : machine.addedTime call with
      | some added =>
          rw [List.filterMap_cons_some (added_time_sent time)] at rising
          exact rising.of_cons
      | none =>
          have fewer := (List.sublist_cons_self call rest).filterMap Call.sentTime
          exact List.Pairwise.sublist (fewer.cons_cons last) rising

/-- A remount is seen by no call that reads. -/
theorem clean_remount_invisible {machine : Machine} {last : Nat} (timed : Timed machine last)
    (memory : Database) :
    ∃ rebooted, Machine.restart machine.card memory = (.strgOk, rebooted) ∧
      ∀ call : Call, call.reads = true →
        (rebooted.run call.run).1 = (machine.run call.run).1 := by
  obtain ⟨view, chain, listing, mounted, tidy, inTime⟩ := timed.inTime
  obtain ⟨rebooted, newListing, run, sameCard, remounted, recent⟩ :=
    mounted_restart mounted tidy memory
  refine ⟨rebooted, run, fun call reads => ?_⟩
  have same : modelOf machine.db view chain listing = modelOf rebooted.db view chain newListing := by
    rw [Model.mk.injEq]
    exact ⟨people_unique mounted remounted rfl, remounted_recent mounted remounted inTime recent⟩
  have before : machine.Sound (modelOf machine.db view chain listing) :=
    ⟨view, chain, listing, mounted, tidy, rfl⟩
  have after : rebooted.Sound (modelOf machine.db view chain listing) :=
    ⟨view, chain, newListing, remounted, tidy, same.symm⟩
  have answered : ∀ reply, Model.reply call (modelOf machine.db view chain listing) = some reply →
      (rebooted.run call.run).1 = (machine.run call.run).1 := by
    intro reply known
    have room : ∀ seen : Machine, ¬Exhausts call seen.db seen.card := by
      rintro seen ⟨asks, _⟩
      cases call <;> cases reads <;> cases asks
    rw [(Machine.call_sound after call (room rebooted)).2 reply known,
      (Machine.call_sound before call (room machine)).2 reply known]
  cases call with
  | messageRecent start n given =>
      have rings : rebooted.db.messageHistory = machine.db.messageHistory := by
        rw [remounted.core.messageRing, mounted.core.messageRing]
      obtain ⟨got, second, first⟩ :=
        reads_messageRecent start n given rebooted.db machine.db machine.card rings
      rw [← sameCard] at second
      have run_ : ∀ seen : Machine, out (databaseMessageRecent start n given) seen.db seen.card =
          ((got, seen.db), []) →
          (seen.run (Call.run (.messageRecent start n given))).1 = .recent got.1 got.2 := by
        intro seen known
        rw [Machine.run, Call.run, out_bind_of known]
        rfl
      rw [run_ rebooted second, run_ machine first]
  | callRecent start n given =>
      have rings : rebooted.db.callHistory = machine.db.callHistory := by
        rw [remounted.core.callRing, mounted.core.callRing]
      obtain ⟨got, second, first⟩ :=
        reads_callRecent start n given rebooted.db machine.db machine.card rings
      rw [← sameCard] at second
      have run_ : ∀ seen : Machine, out (databaseCallRecent start n given) seen.db seen.card =
          ((got, seen.db), []) →
          (seen.run (Call.run (.callRecent start n given))).1 = .calls got.1 got.2 := by
        intro seen known
        rw [Machine.run, Call.run, out_bind_of known]
        rfl
      rw [run_ rebooted second, run_ machine first]
  | contactAdd | contactUpdate | contactRemove | messageAdd | messageRemoveChat | callAdd =>
      cases reads
  | _ => exact answered _ rfl

theorem example_book_timed : ∃ last, Timed exampleBook last :=
  Timed.calls (.formatted exampleMachine) example_calls_sufficient (by decide)

theorem clean_remount_invisible_example :
    (exampleMachine.format.runCalls exampleCalls).1 =
        List.replicate exampleCalls.length (.status .strgOk) ∧
      ∃ rebooted, Machine.restart exampleBook.card formattedDatabase = (.strgOk, rebooted) ∧
        ∀ call : Call, call.reads = true →
          (rebooted.run call.run).1 = (exampleBook.run call.run).1 := by
  obtain ⟨last, timed⟩ := example_book_timed
  exact ⟨example_calls_answered, clean_remount_invisible timed formattedDatabase⟩

end SdDatabase
