import SdDatabase.CutRuns
import SdDatabase.Lib.Unwinding

/-!
# Calls about different numbers

A call about one phone number neither changes nor sees what the database holds for another.
Clients with numbers of their own get the answers they would get alone, whatever the others
do in between, as long as there is room for all.
-/

namespace SdDatabase

open Bytes Device Unwinding

set_option autoImplicit false

/-- The phone numbers that a call names, and whose contact it changes or shows. -/
def Call.numbers : Call → List (List Byte)
  | .contactGet phone _ => (validPhone phone).toList
  | .messageGetChat phone _ _ _ => (validPhone phone).toList
  | call => call.phones

def Call.about (mine : List Byte → Bool) (call : Call) : Bool := call.numbers.any mine

/-- The call does not name numbers of both kinds. -/
def Call.Apart (mine : List Byte → Bool) (call : Call) : Prop :=
  call.about mine = true → ∀ number ∈ call.numbers, mine number = true

/-- The two phone books have the same people with these numbers. -/
def Model.AlikeOn (mine : List Byte → Bool) (first second : List Person) : Prop :=
  ∀ person : Person, mine person.identity.phone = true → (person ∈ first ↔ person ∈ second)

section People

variable {mine : List Byte → Bool} {first second : List Person}
  (alike : Model.AlikeOn mine first second)

include alike

theorem alike_insert (person : Person) :
    Model.AlikeOn mine (Model.insert person first) (Model.insert person second) := by
  intro other own
  rw [Model.mem_insert, Model.mem_insert, alike other own]

theorem alike_without (phone : List Byte) :
    Model.AlikeOn mine (Model.without phone first) (Model.without phone second) := by
  intro other own
  rw [Model.mem_without, Model.mem_without, alike other own]

variable {call : Call} (other : call.about mine = false)

include other

theorem alike_others {after : List Person} (kept : Model.SameOthers call.phones first after) :
    Model.AlikeOn mine after second := by
  intro person own
  have untouched : person.identity.phone ∉ call.phones := by
    intro member
    have named : person.identity.phone ∈ call.numbers := by
      cases call <;> first | exact member | simp [Call.phones] at member
    have about : call.about mine = true := List.any_eq_true.mpr ⟨_, named, own⟩
    rw [other] at about
    cases about
  rw [kept person untouched, alike person own]

theorem alike_interrupted {after : List Person} (interrupted : Model.Interrupted call first after) :
    Model.AlikeOn mine after second := by
  apply alike_others alike other
  cases interrupted with
  | unchanged same =>
      rw [same]
      exact others_refl
  | done same =>
      rw [same]
      exact next_others call ⟨first, []⟩
  | entered unnamed phone timestamp direction str is given noText new same =>
      rw [same, is]
      apply others_insert
      rw [Call.phones, given]
      exact List.mem_singleton_self _
  | emptied phone number is given same =>
      rw [same, is]
      apply others_with_chat
      rw [Call.phones, given]
      exact List.mem_singleton_self _

end People

section Alike

variable {mine : List Byte → Bool} {first second : Model}
  (alike : Model.AlikeOn mine first.people second.people)

include alike

variable (firstUnique : Model.Unique first.people) (secondUnique : Model.Unique second.people)

include firstUnique secondUnique

theorem alike_find {phone : List Byte} (own : mine phone = true) :
    first.find phone = second.find phone := by
  cases found : first.find phone with
  | some person =>
      obtain ⟨member, rfl⟩ := Model.find_some found
      exact (find_member secondUnique ((alike person own).mp member)).symm
  | none =>
      cases other : second.find phone with
      | none => rfl
      | some person =>
          obtain ⟨member, rfl⟩ := Model.find_some other
          have same := find_member firstUnique ((alike person own).mpr member)
          exact found.symm.trans same

variable (firstRoom : first.people.length < hashTableEntries)
  (secondRoom : second.people.length < hashTableEntries)

/-- The same answer, and phone books that are alike. -/
def Model.StepAlike (mine : List Byte → Bool) (first second : StrgRet × Model) : Prop :=
  first.1 = second.1 ∧ Model.AlikeOn mine first.2.people second.2.people

include firstRoom secondRoom in
theorem alike_add_contact {name phone : Option CString}
    (own : ∀ number ∈ (validPhone phone).toList, mine number = true) :
    Model.StepAlike mine (Model.addContact name phone first)
      (Model.addContact name phone second) := by
  unfold Model.addContact
  cases checked : checkedIdentity name phone with
  | none => exact ⟨rfl, alike⟩
  | some identity =>
      have isMine : mine identity.phone = true := by
        apply own
        rw [(checked_identity_some checked).2]
        exact List.mem_singleton_self _
      dsimp only
      rw [alike_find alike firstUnique secondUnique isMine, if_neg (Nat.not_le.mpr firstRoom),
        if_neg (Nat.not_le.mpr secondRoom)]
      split
      · exact ⟨rfl, alike⟩
      · exact ⟨rfl, alike_insert alike _⟩

theorem alike_update_contact {phone newName newPhone : Option CString}
    (own : ∀ number ∈ (validPhone phone).toList ++ (validPhone newPhone).toList,
      mine number = true) :
    Model.StepAlike mine (Model.updateContact phone newName newPhone first)
      (Model.updateContact phone newName newPhone second) := by
  unfold Model.updateContact
  cases valid : validPhone phone with
  | none => exact ⟨rfl, alike⟩
  | some number =>
      cases checked : checkedIdentity newName newPhone with
      | none => exact ⟨rfl, alike⟩
      | some identity =>
          have oldMine : mine number = true := by
            apply own
            rw [valid]
            exact List.mem_append_left _ (List.mem_singleton_self _)
          have newMine : mine identity.phone = true := by
            apply own
            rw [(checked_identity_some checked).2]
            exact List.mem_append_right _ (List.mem_singleton_self _)
          dsimp only
          rw [alike_find alike firstUnique secondUnique oldMine,
            alike_find alike firstUnique secondUnique newMine]
          split
          · exact ⟨rfl, alike⟩
          · split
            · exact ⟨rfl, alike⟩
            · exact ⟨rfl, alike_insert (alike_without alike number) _⟩

theorem alike_remove_contact {phone : Option CString}
    (own : ∀ number ∈ (validPhone phone).toList, mine number = true) :
    Model.StepAlike mine (Model.removeContact phone first) (Model.removeContact phone second) := by
  unfold Model.removeContact
  cases valid : validPhone phone with
  | none => exact ⟨rfl, alike⟩
  | some number =>
      have isMine : mine number = true := by
        apply own
        rw [valid]
        exact List.mem_singleton_self _
      dsimp only
      rw [alike_find alike firstUnique secondUnique isMine]
      split
      · exact ⟨rfl, alike⟩
      · exact ⟨rfl, alike_without alike number⟩

include firstRoom secondRoom in
theorem alike_add_message {phone str : Option CString} {timestamp : BitVec 32} {direction : Bool}
    (own : ∀ number ∈ (validPhone phone).toList, mine number = true) :
    Model.StepAlike mine (Model.addMessage phone timestamp direction str first)
      (Model.addMessage phone timestamp direction str second) := by
  unfold Model.addMessage
  cases checked : checkedIdentity (some noName) phone with
  | none => exact ⟨rfl, alike⟩
  | some unnamed =>
      cases str with
      | none => exact ⟨rfl, alike⟩
      | some text =>
          have isMine : mine unnamed.phone = true := by
            apply own
            rw [(checked_identity_some checked).2]
            exact List.mem_singleton_self _
          dsimp only
          rw [alike_find alike firstUnique secondUnique isMine,
            if_neg (Nat.not_le.mpr firstRoom), if_neg (Nat.not_le.mpr secondRoom)]
          split
          · exact ⟨rfl, alike⟩
          · split
            · exact ⟨rfl, alike_insert (alike_without alike _) _⟩
            · exact ⟨rfl, alike_insert alike _⟩

theorem alike_remove_chat {phone : Option CString}
    (own : ∀ number ∈ (validPhone phone).toList, mine number = true) :
    Model.StepAlike mine (Model.removeChat phone first) (Model.removeChat phone second) := by
  unfold Model.removeChat
  cases valid : validPhone phone with
  | none => exact ⟨rfl, alike⟩
  | some number =>
      have isMine : mine number = true := by
        apply own
        rw [valid]
        exact List.mem_singleton_self _
      dsimp only
      rw [alike_find alike firstUnique secondUnique isMine]
      split
      · exact ⟨rfl, alike⟩
      · split
        · exact ⟨rfl, alike⟩
        · exact ⟨rfl, alike_insert (alike_without alike number) _⟩

include firstRoom secondRoom in
theorem alike_own {call : Call} (about : call.about mine = true) (apart : call.Apart mine) :
    (∃ expected, Model.reply call first = some expected ∧
      Model.reply call second = some expected) ∧
    Model.AlikeOn mine (Model.next call first).people (Model.next call second).people := by
  have own := apart about
  cases call with
  | contactAdd name phone =>
      obtain ⟨same, later⟩ := @alike_add_contact _ _ _ alike firstUnique secondUnique firstRoom
        secondRoom name phone own
      exact ⟨⟨_, rfl, congrArg (fun ret => some (Reply.status ret)) same.symm⟩, later⟩
  | contactUpdate phone newName newPhone =>
      obtain ⟨same, later⟩ := @alike_update_contact _ _ _ alike firstUnique secondUnique phone
        newName newPhone own
      exact ⟨⟨_, rfl, congrArg (fun ret => some (Reply.status ret)) same.symm⟩, later⟩
  | contactRemove phone =>
      obtain ⟨same, later⟩ := @alike_remove_contact _ _ _ alike firstUnique secondUnique phone own
      exact ⟨⟨_, rfl, congrArg (fun ret => some (Reply.status ret)) same.symm⟩, later⟩
  | messageAdd phone timestamp direction str =>
      obtain ⟨same, later⟩ := @alike_add_message _ _ _ alike firstUnique secondUnique firstRoom
        secondRoom phone str timestamp direction own
      exact ⟨⟨_, rfl, congrArg (fun ret => some (Reply.status ret)) same.symm⟩, later⟩
  | messageRemoveChat phone =>
      obtain ⟨same, later⟩ := @alike_remove_chat _ _ _ alike firstUnique secondUnique phone own
      exact ⟨⟨_, rfl, congrArg (fun ret => some (Reply.status ret)) same.symm⟩, later⟩
  | contactGet phone out =>
      refine ⟨⟨_, rfl, ?_⟩, alike⟩
      have same : Model.getContact phone out first = Model.getContact phone out second := by
        unfold Model.getContact
        cases valid : validPhone phone with
        | none => cases out <;> rfl
        | some number =>
            have isMine : mine number = true := by
              apply own
              rw [Call.numbers, valid]
              exact List.mem_singleton_self _
            cases out with
            | false => rfl
            | true =>
                dsimp only
                rw [alike_find alike firstUnique secondUnique isMine]
      exact congrArg (fun got => some (Reply.contact got)) same.symm
  | messageGetChat phone start n out =>
      refine ⟨⟨_, rfl, ?_⟩, alike⟩
      have same : Model.getChat phone start n out first =
          Model.getChat phone start n out second := by
        unfold Model.getChat
        cases valid : validPhone phone with
        | none => cases out <;> rfl
        | some number =>
            have isMine : mine number = true := by
              apply own
              rw [Call.numbers, valid]
              exact List.mem_singleton_self _
            cases out with
            | false => rfl
            | true =>
                dsimp only
                rw [alike_find alike firstUnique secondUnique isMine]
      exact congrArg (fun got : StrgRet × List Message =>
        some (Reply.messages got.1 got.2)) same.symm
  | _ => cases about

end Alike

/-- What happens to a machine: a call, a power cut in a call with the start-ups behind it, of
which the last one is not cut, or a restart. -/
inductive Event where
  | call (call : Call)
  | cut (call : Call) (count : Nat) (card : Card Sector) (memory : Database)
  | restart (memory : Database)

/-- A call about one of these numbers is made and answered. -/
def Event.about (mine : List Byte → Bool) : Event → Bool
  | .call made => made.about mine
  | _ => false

namespace Machine

/-- The answer to a call, or to a start-up. -/
def perform (machine : Machine) : Event → Reply × Machine
  | .call call => machine.run call.run
  | .cut _ _ card memory =>
      let started := restart card memory
      (.status started.1, started.2)
  | .restart memory =>
      let started := restart machine.card memory
      (.status started.1, started.2)

/-- There is room for the call, in the message allocator and in the contact table. A call that
names some of these numbers names no others and is not cut, and no cut splits a chat. -/
def Admits (mine : List Byte → Bool) (machine : Machine) : Event → Prop
  | .call call => ¬Exhausts call machine.db machine.card ∧
      machine.db.htable.numElems < hashTableEntries ∧ call.Apart mine
  | .cut call count card _ => ¬Exhausts call machine.db machine.card ∧
      call.about mine = false ∧ ¬machine.SplitsChat call count ∧
      CutInits (machine.cut call count) card
  | .restart _ => True

/-- Both machines are mounted and hold the same for these numbers. -/
def Alike (mine : List Byte → Bool) (first second : Machine) : Prop :=
  ∃ left right, first.Holds left ∧ second.Holds right ∧ Model.AlikeOn mine left right

end Machine

theorem sound_room {machine : Machine} {model : Model} (sound : machine.Sound model)
    (room : machine.db.htable.numElems < hashTableEntries) :
    model.people.length < hashTableEntries := by
  obtain ⟨view, chain, listing, mounted, _, rfl⟩ := sound
  rw [modelOf, List.length_map, ← mounted.count]
  exact room

theorem machines_separated (mine : List Byte → Bool) :
    Separated Machine.perform (Machine.Admits mine) (Event.about mine) (Machine.Alike mine) where
  others := by
    rintro first second event other admitted ⟨left, right, leftHolds, rightHolds, alike⟩
    cases event with
    | call call =>
        exact ⟨_, right, (call_holds leftHolds admitted.1).1, rightHolds,
          alike_others alike (show call.about mine = false from other)
            (next_others call ⟨left, []⟩)⟩
    | cut call count card memory =>
        obtain ⟨room, notMine, whole, cuts⟩ := admitted
        obtain ⟨after, _, holds, interrupted⟩ := cut_holds leftHolds room whole cuts memory
        exact ⟨after, right, holds, rightHolds, alike_interrupted alike notMine interrupted⟩
    | restart memory =>
        exact ⟨left, right, (restart_holds leftHolds memory).2, rightHolds, alike⟩
  own := by
    rintro first second event about admitted otherAdmitted
      ⟨left, right, leftHolds, rightHolds, alike⟩
    cases event with
    | call call =>
        have named : call.about mine = true := about
        obtain ⟨room, table, apart⟩ := admitted
        obtain ⟨otherRoom, otherTable, _⟩ := otherAdmitted
        have leftUnique := holds_unique leftHolds
        have rightUnique := holds_unique rightHolds
        obtain ⟨leftRecent, leftSound⟩ := leftHolds
        obtain ⟨rightRecent, rightSound⟩ := rightHolds
        obtain ⟨leftNext, leftAnswers⟩ := Machine.call_sound leftSound call room
        obtain ⟨rightNext, rightAnswers⟩ := Machine.call_sound rightSound call otherRoom
        obtain ⟨⟨expected, leftReply, rightReply⟩, later⟩ :=
          @alike_own mine ⟨left, leftRecent⟩ ⟨right, rightRecent⟩ alike leftUnique rightUnique
            (sound_room leftSound table) (sound_room rightSound otherTable) call named apart
        exact ⟨(leftAnswers expected leftReply).trans (rightAnswers expected rightReply).symm,
          _, _, ⟨_, leftNext⟩, ⟨_, rightNext⟩, later⟩
    | cut call count card memory => cases about
    | restart memory => cases about

/-- Whatever calls about other numbers, power cuts in them and restarts come in between, the
calls about these numbers are answered as if they were alone. -/
theorem calls_answered_alone {machine : Machine} (reachable : Reachable machine)
    (mine : List Byte → Bool) (events : List Event)
    (room : Admitted Machine.perform (Machine.Admits mine) machine events)
    (alone : Admitted Machine.perform (Machine.Admits mine) machine
      (events.filter (Event.about mine))) :
    answersTo (Event.about mine) events (answers Machine.perform machine events) =
      answers Machine.perform machine (events.filter (Event.about mine)) := by
  obtain ⟨model, sound⟩ := reachable.sound
  have holds : machine.Holds model.people := ⟨model.recent, sound⟩
  have same : machine.Alike mine machine :=
    ⟨model.people, model.people, holds, holds, fun _ _ => Iff.rfl⟩
  exact (machines_separated mine).answers_alone same room alone

section Few

variable {machine : Machine} {size : Nat} {mine : List Byte → Bool}

instance (call : Call) : Decidable (call.Apart mine) :=
  inferInstanceAs (Decidable (_ → _))

theorem Machine.Within.admits_call (within : machine.Within size) (few : size < hashTableEntries)
    {call : Call} (apart : call.Apart mine) : machine.Admits mine (.call call) := by
  refine ⟨within.room (few.trans (by decide)) call, ?_, apart⟩
  obtain ⟨people, ⟨recent, view, chain, listing, mounted, _, is⟩, bounded⟩ := within
  have length := congrArg (fun model => model.people.length) is
  dsimp only at length
  rw [modelOf, List.length_map] at length
  have everybody := book_size_people people
  rw [mounted.count, length]
  omega

variable {events : List Event}

theorem Machine.Within.admitted_call (within : machine.Within size) (few : size < hashTableEntries)
    {call : Call} (apart : call.Apart mine)
    (later : (machine.run call.run).2.Within (size + 2) →
      Admitted Machine.perform (Machine.Admits mine) (machine.run call.run).2 events) :
    Admitted Machine.perform (Machine.Admits mine) machine (.call call :: events) :=
  ⟨within.admits_call few apart, later (within.call (few.trans (by decide)) call)⟩

theorem Machine.Within.admitted_cut (within : machine.Within size)
    (few : size < totalMessageSectorSize) {call : Call} {count : Nat} {card : Card Sector}
    (other : call.about mine = false) (whole : ¬machine.SplitsChat call count)
    (cuts : CutInits (machine.cut call count) card) {memory : Database}
    (later : (Machine.restart card memory).2.Within (size + 2) →
      Admitted Machine.perform (Machine.Admits mine) (Machine.restart card memory).2 events) :
    Admitted Machine.perform (Machine.Admits mine) machine (.cut call count card memory :: events) :=
  ⟨⟨within.room few call, other, whole, cuts⟩, later (within.cut few whole cuts memory)⟩

theorem Machine.Within.admitted_restart (within : machine.Within size) {memory : Database}
    (later : (Machine.restart machine.card memory).2.Within size →
      Admitted Machine.perform (Machine.Admits mine)
        (Machine.restart machine.card memory).2 events) :
    Admitted Machine.perform (Machine.Admits mine) machine (.restart memory :: events) :=
  ⟨trivial, later (within.restart memory)⟩

end Few

def exampleMine (number : List Byte) : Bool := decide (number = exampleText.val)

def exampleRead : Call := .messageGetChat (some exampleText) 0 9 true

def exampleSend (phone : CString) (timestamp : BitVec 32) : Call :=
  .messageAdd (some phone) timestamp true (some exampleText)

/-- The machine whose next call is cut. -/
def exampleSent : Machine :=
  (exampleBook.runCalls [exampleRead, exampleSend exampleOther 20#32,
    exampleSend exampleText 21#32]).2

/-- Another number gets a message and is given to a third one, which a power cut ends. -/
def exampleEvents : List Event :=
  [.call exampleRead, .call (exampleSend exampleOther 20#32),
    .call (exampleSend exampleText 21#32),
    .cut exampleRename 4 (exampleSent.cut exampleRename 4) formattedDatabase,
    .restart formattedDatabase, .call exampleRead]

theorem example_events_own : exampleEvents.filter (Event.about exampleMine) =
    [.call exampleRead, .call (exampleSend exampleText 21#32), .call exampleRead] := rfl

theorem calls_answered_alone_example :
    answersTo (Event.about exampleMine) exampleEvents
        (answers Machine.perform exampleBook exampleEvents) =
      answers Machine.perform exampleBook (exampleEvents.filter (Event.about exampleMine)) := by
  have read : exampleRead.Apart exampleMine := by decide
  have sent : ∀ phone timestamp, (exampleSend phone timestamp).Apart exampleMine := by
    intro phone timestamp
    have single : (exampleSend phone timestamp).numbers = (validPhone (some phone)).toList := rfl
    unfold Call.Apart Call.about
    rw [single]
    cases validPhone (some phone) <;> simp
  apply calls_answered_alone example_book_reachable exampleMine
  · apply example_book_within.admitted_call (by decide) read
    intro second
    apply second.admitted_call (by decide) (sent _ _)
    intro third
    apply third.admitted_call (by decide) (sent _ _)
    intro fourth
    apply fourth.admitted_cut (by decide) rfl id (.none _)
    intro fifth
    apply fifth.admitted_restart
    intro sixth
    exact sixth.admitted_call (by decide) read fun _ => trivial
  · rw [example_events_own]
    apply example_book_within.admitted_call (by decide) read
    intro second
    apply second.admitted_call (by decide) (sent _ _)
    intro third
    exact third.admitted_call (by decide) read fun _ => trivial

end SdDatabase
