import SdDatabase.MessageCut
import SdDatabase.TornWrite

/-!
# Runs with power cuts

Any number of calls, start-ups and power cuts, in any order. A start-up after a cut finds
the phone book as before the call, as after it, or with a contact that has no messages
yet or no more. So acknowledged messages stay, as long as no cut falls inside of a chat.
-/

namespace SdDatabase

open Bytes Device

set_option autoImplicit false

/-- The people after a call; the order of the last messages has no part in it. -/
def Model.nextPeople (call : Call) (people : List Person) : List Person :=
  (Model.next call ⟨people, []⟩).people

theorem next_people (call : Call) (model : Model) :
    (Model.next call model).people = Model.nextPeople call model.people := by
  have find : ∀ number, model.find number = Model.find ⟨model.people, []⟩ number := fun _ => rfl
  unfold Model.nextPeople
  cases call with
  | contactAdd name phone =>
      simp only [Model.next, Model.addContact, find]
      split
      · rfl
      · split
        · rfl
        · split <;> rfl
  | contactUpdate phone newName newPhone =>
      simp only [Model.next, Model.updateContact, find]
      split
      · split
        · rfl
        · split <;> rfl
      · rfl
  | contactRemove phone =>
      simp only [Model.next, Model.removeContact, find]
      split
      · rfl
      · split <;> rfl
  | messageAdd phone timestamp direction str =>
      simp only [Model.next, Model.addMessage, find]
      split
      · split
        · rfl
        · split
          · rfl
          · split <;> rfl
      · rfl
  | messageRemoveChat phone =>
      simp only [Model.next, Model.removeChat, find]
      split
      · rfl
      · split
        · rfl
        · split <;> rfl
  | _ => rfl

/-- The people that a start-up finds after a power cut in a call. -/
inductive Model.Interrupted (call : Call) (before after : List Person) : Prop where
  | unchanged (same : after = before)
  | done (same : after = Model.nextPeople call before)
  | entered (unnamed : Identity) (phone : Option CString) (timestamp : BitVec 32)
      (direction : Bool) (str : Option CString)
      (is : call = .messageAdd phone timestamp direction str)
      (given : validPhone phone = some unnamed.phone) (noText : unnamed.name = [])
      (new : ∀ person ∈ before, person.identity.phone ≠ unnamed.phone)
      (same : after = Model.insert ⟨unnamed, []⟩ before)
  | emptied (phone : Option CString) (number : List Byte) (is : call = .contactRemove phone)
      (given : validPhone phone = some number) (same : after = Model.withChat number [] before)

namespace Machine

/-- The message goes into a new sector in front of a full one. -/
def GrowsChat (machine : Machine) (phone : Option CString) (timestamp : BitVec 32)
    (str : Option CString) : Prop :=
  timestamp ≠ 0#32 ∧ str ≠ none ∧ ∃ number hashSlot, validPhone phone = some number ∧
    (machine.run (findOccupied number)).1 = .ok hashSlot ∧
    (machine.db.htable.htable hashSlot).latestMsgExtent ≠ uint16Max ∧
    messageSectorCapacity ≤ (machine.messageSectorAt
      (machine.db.htable.htable hashSlot).latestMsgExtent).header.msgCount.toNat

/-- The cut falls between two sectors of a chat: a new one is written and not yet linked,
or some sectors are removed and some are not. -/
def SplitsChat (machine : Machine) (call : Call) (count : Nat) : Prop :=
  match call with
  | .messageAdd phone timestamp _ str =>
      machine.GrowsChat phone timestamp str ∧ 5 < count ∧ count ≤ 10
  | .contactRemove phone | .messageRemoveChat phone =>
      ∃ number, validPhone phone = some number ∧ 0 < count / 5 ∧
        count / 5 < (machine.chatSectors number).length
  | _ => False

end Machine

section Cut

variable {machine : Machine} {view : View} {chain : Nat → List Nat} {listing : Listing}

theorem RollsOver.grows {phone : Option CString} {number : List Byte} {slot newest next : Nat}
    {older : List Nat} {mSector : MessageSector} {timestamp : BitVec 32} {str : Option CString}
    (mounted : Mounted machine.db machine.card view chain listing)
    (rolls : RollsOver machine.db view chain number slot newest next older mSector)
    (valid : validPhone phone = some number) (timed : timestamp ≠ 0#32) (text : str ≠ none) :
    machine.GrowsChat phone timestamp str := by
  obtain ⟨identity, stored, rfl⟩ := rolls.contact
  obtain ⟨hashSlot, occupied, rfl, latest⟩ := mounted.core.slot_of stored
  have newestIs : (machine.db.htable.htable hashSlot).latestMsgExtent = newest := by
    rw [latest, headOf, rolls.whole]
    rfl
  refine ⟨timed, text, _, hashSlot, valid, ?_, ?_, ?_⟩
  · rw [Machine.run_of (out_findOccupied_known mounted.core occupied stored)]
  · rw [newestIs]
    exact index_not_end (mounted.core.holds.messages.bound newest
      (by rw [rolls.found]; exact Option.some_ne_none _))
  · rw [newestIs, mounted.message_sector_at rolls.found]
    exact rolls.full

/-- A view whose chats are whole. -/
structure WholeView (call : Call) (people : List Person) (seen : View) : Prop where
  mounts : ∃ chain after, Mountable seen chain ∧ Tidy seen chain ∧ InOrder after ∧
    (∀ person, person ∈ after ↔ person ∈ book seen chain) ∧
    Model.Interrupted call people after

variable (mounted : Mounted machine.db machine.card view chain listing) (tidy : Tidy view chain)

include mounted tidy

theorem whole_unchanged (call : Call) :
    WholeView call (modelOf machine.db view chain listing).people view :=
  ⟨chain, _, mounted.core.mountable tidy, tidy, people_in_order mounted, mem_people mounted,
    .unchanged rfl⟩

omit mounted tidy in
theorem whole_later {next : Machine} {later seen : View} {laterChain : Nat → List Nat}
    {laterListing : Listing} {call : Call} {model : Model}
    (laterMounted : Mounted next.db next.card later laterChain laterListing)
    (laterTidy : Tidy later laterChain)
    (is : modelOf next.db later laterChain laterListing = Model.next call model)
    (contact : seen.contact = later.contact) (sector : seen.sector = later.sector) :
    WholeView call model.people seen := by
  have order := people_in_order laterMounted
  have members := mem_people laterMounted
  rw [is] at order members
  have books : book seen laterChain = book later laterChain := by
    unfold book chatOf
    rw [contact, sector]
  refine ⟨laterChain, _, (laterMounted.core.mountable laterTidy).congr contact sector, ?_, order,
    fun person => ?_, .done (next_people call model)⟩
  · constructor
    · rw [sector]
      exact laterTidy.nexts
    · rw [sector]
      exact laterTidy.covered
  · rw [books]
    exact members person

theorem whole_entered {phone str : Option CString} {timestamp : BitVec 32} {direction : Bool}
    {slot : Nat} {unnamed : Identity} (valid : validPhone phone = some unnamed.phone)
    (noText : unnamed.name = []) (free : view.contact slot = none)
    (absent : ∀ sector other, view.contact sector = some other → other.phone ≠ unnamed.phone) :
    WholeView (.messageAdd phone timestamp direction str)
      (modelOf machine.db view chain listing).people (view.setContact slot (some unnamed)) := by
  have new : ∀ person ∈ (modelOf machine.db view chain listing).people,
      person.identity.phone ≠ unnamed.phone := by
    intro person member
    obtain ⟨place, stored, _⟩ := (mem_people mounted person).mp member
    exact absent place person.identity stored
  refine ⟨chain, _, entered_mountable mounted tidy absent, ⟨tidy.nexts, tidy.covered⟩,
    insert_in_order (people_in_order mounted) fun person member same => ?_,
    entered_book mounted free, .entered unnamed phone timestamp direction str rfl valid noText new
      rfl⟩
  exact new person member (name_key_phone same)

theorem whole_emptied {slot : Nat} {identity : Identity}
    (stored : view.contact slot = some identity) {phone : Option CString}
    (valid : validPhone phone = some identity.phone) {call : Call}
    (removes : call = .contactRemove phone ∨ call = .messageRemoveChat phone)
    (ordered : InOrder ((modelOf machine.db view chain listing).removeChat phone).2.people) :
    WholeView call (modelOf machine.db view chain listing).people
      (view.clearSectors (chain slot)) := by
  have change := clear_change mounted.core slot
  have mountable := shortened_mountable mounted.core.distinct mounted.core.chats
    mounted.core.holds.messages.bound tidy slot (chain slot).length
  rw [List.take_length, List.drop_length] at mountable
  have members := with_chat_book mounted stored change.contact
    fun other different => chat_of_change_other change different
  have none_ : chatOf (view.clearSectors (chain slot)) (Function.update chain slot []) slot = [] := by
    rw [chat_of_change_self]
    rfl
  rw [none_] at members
  refine ⟨Function.update chain slot [], _, mountable, ?_,
    with_chat_in_order (people_in_order mounted) _ _, members, ?_⟩
  · exact clear_tidy mounted.core.chats tidy
  · rcases removes with rfl | rfl
    · exact .emptied phone identity.phone rfl valid rfl
    · refine .done ?_
      rw [← next_people, ← remove_chat_people mounted valid ordered]
      rfl

theorem whole_cut {call : Call} {count : Nat} (room : ¬Exhausts call machine.db machine.card)
    (whole : ¬machine.SplitsChat call count) :
    ∃ seen final, Recovers (machine.cut call count) final ∧ HoldsView final seen ∧
      WholeView call (modelOf machine.db view chain listing).people seen := by
  obtain ⟨later, laterChain, laterListing, seen, final, laterMounted, laterTidy, model, recovers,
    holds, known⟩ := call_cut mounted tidy call room count
  refine ⟨seen, final, recovers, holds, ?_⟩
  have unchanged := whole_unchanged mounted tidy call
  have done : WholeView call (modelOf machine.db view chain listing).people later :=
    whole_later laterMounted laterTidy model rfl rfl
  have oldOrNew : seen = view ∨ seen = later →
      WholeView call (modelOf machine.db view chain listing).people seen := by
    rintro (rfl | rfl)
    · exact unchanged
    · exact done
  have removal : ∀ {phone : Option CString},
      call = .contactRemove phone ∨ call = .messageRemoveChat phone →
      ¬(∃ number, validPhone phone = some number ∧ 0 < count / 5 ∧
        count / 5 < (machine.chatSectors number).length) →
      shortened view chain phone later laterChain count seen →
      WholeView call (modelOf machine.db view chain listing).people seen := by
    rintro phone removes apart (rfl | ⟨slot, identity, stored, valid, rfl⟩)
    · exact done
    · rcases Nat.eq_zero_or_pos (count / 5) with none_ | some_
      · rw [none_, List.take_zero, clear_sectors_nil]
        exact unchanged
      · have all : (chain slot).length ≤ count / 5 := by
          rw [← chat_sectors_length mounted stored]
          exact Nat.le_of_not_lt fun part => apart ⟨_, valid, some_, part⟩
        rw [List.take_of_length_le all]
        obtain ⟨_, _, _, removed, _, is, _⟩ := call_leads mounted tidy (.messageRemoveChat phone)
          fun exhausts => by cases exhausts.1
        have order := people_in_order removed
        rw [is] at order
        exact whole_emptied mounted tidy stored valid removes order
  cases call with
  | messageAdd phone timestamp direction str =>
      have views : addViews machine.db view chain phone timestamp direction str later laterChain
          count seen := known
      rcases views with ⟨rfl, _⟩ | ⟨number, text, valid, rfl, timed, message⟩
      · exact unchanged
      · cases message with
        | before same _ =>
            rw [same]
            exact unchanged
        | entered slot unnamed absent free is same =>
            obtain ⟨rfl, noText⟩ := is
            rw [same]
            exact whole_entered mounted tidy valid noText free absent
        | unlinked slot newest next older mSector rolls late early same =>
            exact absurd ⟨rolls.grows mounted valid timed (Option.some_ne_none _), late, early⟩ whole
        | after contact sector _ => exact whole_later laterMounted laterTidy model contact sector
  | contactRemove phone => exact removal (Or.inl rfl) whole known
  | messageRemoveChat phone => exact removal (Or.inr rfl) whole known
  | _ => exact oldOrNew known

end Cut

/-- A call with its reply, a call that a power cut ends with the answer of the start-up that
follows, or a start-up. -/
inductive Happening where
  | done (call : Call) (reply : Reply)
  | cut (call : Call) (ret : StrgRet)
  | restart (ret : StrgRet)

/-- Calls, start-ups and power cuts, start-ups being cut as well. No cut splits a chat, and
the message sectors do not run out. -/
inductive CutRun : Machine → List Happening → Machine → Prop where
  | stop (machine : Machine) : CutRun machine [] machine
  | done {machine last : Machine} {rest : List Happening} (call : Call)
      (room : ¬Exhausts call machine.db machine.card)
      (later : CutRun (machine.run call.run).2 rest last) :
      CutRun machine (.done call (machine.run call.run).1 :: rest) last
  | cut {machine last : Machine} {rest : List Happening} {card : Card Sector} (call : Call)
      (count : Nat) (room : ¬Exhausts call machine.db machine.card)
      (whole : ¬machine.SplitsChat call count) (cuts : CutInits (machine.cut call count) card)
      (memory : Database) (later : CutRun (Machine.restart card memory).2 rest last) :
      CutRun machine (.cut call (Machine.restart card memory).1 :: rest) last
  | restart {machine last : Machine} {rest : List Happening} (memory : Database)
      (later : CutRun (Machine.restart machine.card memory).2 rest last) :
      CutRun machine (.restart (Machine.restart machine.card memory).1 :: rest) last

/-- The reply is the one of a phone book with these people, which lists their chats in
some order. -/
def Model.Answers (call : Call) (people : List Person) (reply : Reply) : Prop :=
  ∃ recent, Model.Consistent ⟨people, recent⟩ ∧
    ∀ expected, Model.reply call ⟨people, recent⟩ = some expected → reply = expected

/-- A run of the phone book: start-ups succeed and change nothing, and a call that is cut is
done, not done or half done. -/
inductive Model.Lives : List Happening → List Person → List Person → Prop where
  | stop (people : List Person) : Model.Lives [] people people
  | done {call : Call} {reply : Reply} {rest : List Happening} {people last : List Person}
      (answers : Model.Answers call people reply)
      (later : Model.Lives rest (Model.nextPeople call people) last) :
      Model.Lives (.done call reply :: rest) people last
  | cut {call : Call} {rest : List Happening} {people middle last : List Person}
      (interrupted : Model.Interrupted call people middle) (later : Model.Lives rest middle last) :
      Model.Lives (.cut call .strgOk :: rest) people last
  | restart {rest : List Happening} {people last : List Person}
      (later : Model.Lives rest people last) : Model.Lives (.restart .strgOk :: rest) people last

def Machine.Holds (machine : Machine) (people : List Person) : Prop :=
  ∃ recent, machine.Sound ⟨people, recent⟩

section Steps

variable {machine : Machine} {people : List Person}

theorem mounted_holds {view : View} {chain : Nat → List Nat} {listing : Listing}
    (mounted : Mounted machine.db machine.card view chain listing) (tidy : Tidy view chain)
    (same : (modelOf machine.db view chain listing).people = people) : machine.Holds people := by
  refine ⟨(modelOf machine.db view chain listing).recent, view, chain, listing, mounted, tidy, ?_⟩
  rw [← same]

theorem sound_consistent {model : Model} (sound : machine.Sound model) : model.Consistent := by
  obtain ⟨view, chain, listing, mounted, _, rfl⟩ := sound
  exact mounted.consistent

theorem call_holds (holds : machine.Holds people) {call : Call}
    (room : ¬Exhausts call machine.db machine.card) :
    (machine.run call.run).2.Holds (Model.nextPeople call people) ∧
      Model.Answers call people (machine.run call.run).1 := by
  obtain ⟨recent, sound⟩ := holds
  obtain ⟨after, answers⟩ := Machine.call_sound sound call room
  have same : Model.nextPeople call people = (Model.next call ⟨people, recent⟩).people :=
    (next_people call ⟨people, recent⟩).symm
  rw [same]
  exact ⟨⟨_, after⟩, recent, sound_consistent sound, answers⟩

theorem cut_holds (holds : machine.Holds people) {call : Call} {count : Nat}
    (room : ¬Exhausts call machine.db machine.card) (whole : ¬machine.SplitsChat call count)
    {card : Card Sector} (cuts : CutInits (machine.cut call count) card) (memory : Database) :
    ∃ after, (Machine.restart card memory).1 = .strgOk ∧
      (Machine.restart card memory).2.Holds after ∧ Model.Interrupted call people after := by
  obtain ⟨recent, view, chain, listing, mounted, tidy, is⟩ := holds
  obtain ⟨seen, final, recovers, holdsView, ⟨seenChain, after, mountable, seenTidy, order, members,
    interrupted⟩⟩ := whole_cut mounted tidy room whole
  obtain ⟨rebooted, newListing, run, _, remounted, _⟩ :=
    restart_spec recovers holdsView mountable cuts memory
  rw [is] at interrupted
  rw [run]
  exact ⟨after, rfl, mounted_holds remounted seenTidy (people_of_book remounted order members),
    interrupted⟩

theorem restart_holds (holds : machine.Holds people) (memory : Database) :
    (Machine.restart machine.card memory).1 = .strgOk ∧
      (Machine.restart machine.card memory).2.Holds people := by
  obtain ⟨recent, view, chain, listing, mounted, tidy, is⟩ := holds
  obtain ⟨rebooted, newListing, run, _, remounted, _⟩ := mounted_restart mounted tidy memory
  have same := people_unique mounted remounted rfl
  rw [is] at same
  rw [run]
  exact ⟨rfl, mounted_holds remounted tidy same.symm⟩

theorem cut_run_lives {last : Machine} {trace : List Happening} (run : CutRun machine trace last)
    (holds : machine.Holds people) :
    ∃ after, Model.Lives trace people after ∧ last.Holds after := by
  induction run generalizing people with
  | stop machine => exact ⟨people, .stop people, holds⟩
  | done call room later ih =>
      obtain ⟨next, answers⟩ := call_holds holds room
      obtain ⟨after, lives, known⟩ := ih next
      exact ⟨after, .done answers lives, known⟩
  | cut call count room whole cuts memory later ih =>
      obtain ⟨middle, started, next, interrupted⟩ := cut_holds holds room whole cuts memory
      obtain ⟨after, lives, known⟩ := ih next
      rw [started]
      exact ⟨after, .cut interrupted lives, known⟩
  | restart memory later ih =>
      obtain ⟨started, next⟩ := restart_holds holds memory
      obtain ⟨after, lives, known⟩ := ih next
      rw [started]
      exact ⟨after, .restart lives, known⟩

theorem book_size_with_chat (number : List Byte) (people : List Person) :
    bookSize (Model.withChat number [] people) ≤ bookSize people := by
  induction people with
  | nil => exact Nat.le_refl _
  | cons person rest ih =>
      unfold Model.withChat at ih ⊢
      rw [List.map_cons, book_size_cons, book_size_cons]
      split
      · rw [List.length_nil]
        omega
      · omega

theorem book_size_interrupted {call : Call} {after : List Person}
    (interrupted : Model.Interrupted call people after) :
    bookSize after ≤ bookSize people + 2 := by
  cases interrupted with
  | unchanged same =>
      rw [same]
      exact Nat.le_add_right _ _
  | done same =>
      rw [same]
      exact book_size_next call ⟨people, []⟩
  | entered unnamed _ _ _ _ _ _ _ _ same =>
      rw [same, book_size_insert, List.length_nil]
      omega
  | emptied _ number _ _ same =>
      rw [same]
      exact Nat.le_add_right_of_le (book_size_with_chat number people)

/-- The machine holds a phone book of this size at most. -/
def Machine.Within (machine : Machine) (size : Nat) : Prop :=
  ∃ people, machine.Holds people ∧ bookSize people ≤ size

variable {size : Nat}

theorem Machine.Within.room (within : machine.Within size) (few : size < totalMessageSectorSize)
    (call : Call) : ¬Exhausts call machine.db machine.card := by
  obtain ⟨people, ⟨recent, sound⟩, bounded⟩ := within
  exact fun exhausts => sound.sector_left (lt_of_le_of_lt bounded few) exhausts.2

theorem Machine.Within.call (within : machine.Within size) (few : size < totalMessageSectorSize)
    (call : Call) : (machine.run call.run).2.Within (size + 2) := by
  have room := within.room few call
  obtain ⟨people, holds, bounded⟩ := within
  have grown := book_size_next call ⟨people, []⟩
  exact ⟨_, (call_holds holds room).1, by
    unfold Model.nextPeople
    dsimp only at grown
    omega⟩

theorem Machine.Within.cut (within : machine.Within size) (few : size < totalMessageSectorSize)
    {call : Call} {count : Nat} (whole : ¬machine.SplitsChat call count) {card : Card Sector}
    (cuts : CutInits (machine.cut call count) card) (memory : Database) :
    (Machine.restart card memory).2.Within (size + 2) := by
  have room := within.room few call
  obtain ⟨people, holds, bounded⟩ := within
  obtain ⟨after, _, later, interrupted⟩ := cut_holds holds room whole cuts memory
  have grown := book_size_interrupted interrupted
  exact ⟨after, later, by omega⟩

theorem Machine.Within.restart (within : machine.Within size) (memory : Database) :
    (Machine.restart machine.card memory).2.Within size := by
  obtain ⟨people, holds, bounded⟩ := within
  exact ⟨people, (restart_holds holds memory).2, bounded⟩

end Steps

theorem format_nobody (machine : Machine) : machine.format.Holds [] := ⟨[], machine.format_sound⟩

theorem format_within (machine : Machine) : machine.format.Within 0 :=
  ⟨[], format_nobody machine, Nat.le_refl _⟩

/-- Runs with any number of power cuts refine the phone book. -/
theorem cut_runs_refine {machine last : Machine} {trace : List Happening}
    (run : CutRun machine.format trace last) :
    ∃ people, Model.Lives trace [] people ∧ last.Holds people :=
  cut_run_lives run (format_nobody machine)

theorem CutRun.calls {machine last : Machine} {rest : List Happening} {reply : Reply}
    {calls : List Call} (enough : machine.Sufficient calls)
    (answered : (machine.runCalls calls).1 = List.replicate calls.length reply)
    (later : CutRun (machine.runCalls calls).2 rest last) :
    CutRun machine (calls.map (fun call => .done call reply) ++ rest) last := by
  induction calls generalizing machine with
  | nil => exact later
  | cons call others ih =>
      obtain ⟨first, others_⟩ := List.cons.inj answered
      have run := CutRun.done call enough.1 (ih enough.2 others_ later)
      rwa [first] at run

def exampleRename : Call :=
  .contactUpdate (some exampleOther) (some exampleThird) (some exampleThird)

def exampleCutBook : Machine :=
  (Machine.restart (exampleBook.cut exampleRename 4) formattedDatabase).2

def exampleRestarted : Machine := (Machine.restart exampleCutBook.card formattedDatabase).2

theorem example_book_within : exampleBook.Within 10 := by
  refine ⟨examplePhoneBook.people, ⟨examplePhoneBook.recent, example_book_sound⟩, ?_⟩
  have chats := congrArg (fun list => (list.map fun pair => pair.2 + 1).sum) example_phone_book_chats
  rw [List.map_map] at chats
  exact le_of_eq chats

/-- A rename is cut behind the calls of the example, and a start-up and a call follow. -/
theorem cut_runs_refine_example :
    ∃ people, Model.Lives (exampleCalls.map (fun call => .done call (.status .strgOk)) ++
        [.cut exampleRename
            (Machine.restart (exampleBook.cut exampleRename 4) formattedDatabase).1,
          .restart (Machine.restart exampleCutBook.card formattedDatabase).1,
          .done .contactCount (exampleRestarted.run (Call.run .contactCount)).1]) [] people ∧
      (exampleRestarted.run (Call.run .contactCount)).2.Holds people := by
  have started := (example_book_within.cut (by decide) id (.none (exampleBook.cut exampleRename 4))
    formattedDatabase).restart formattedDatabase
  apply @cut_runs_refine exampleMachine
  apply CutRun.calls example_calls_sufficient example_calls_answered
  apply CutRun.cut exampleRename 4 (example_book_within.room (by decide) exampleRename) id (.none _)
  apply CutRun.restart
  exact CutRun.done .contactCount (started.room (by decide) .contactCount) (.stop _)

/-- The call removes the chat of a number or gives it to another number. -/
def Call.removesChat (number : List Byte) : Call → Prop
  | .contactUpdate phone newName newPhone =>
      validPhone phone = some number ∧
        ∃ identity, checkedIdentity newName newPhone = some identity ∧ identity.phone ≠ number
  | .contactRemove phone | .messageRemoveChat phone => validPhone phone = some number
  | _ => False

/-- The message that a call adds to the chat of a number. -/
def Call.addsTo (number : List Byte) : Call → Option Message
  | .messageAdd phone timestamp direction (some text) =>
      if validPhone phone = some number ∧ timestamp ≠ 0#32 then
        some (createMessage timestamp direction text.val)
      else none
  | _ => none

namespace Happening

/-- The chat or its number is removed, or may be removed by a call that is cut. -/
def removesChat (number : List Byte) : Happening → Prop
  | .done call reply => call.removesChat number ∧ reply = .status .strgOk
  | .cut call _ => call.removesChat number
  | .restart _ => False

/-- The message was added and the caller knows. -/
def acknowledged (number : List Byte) : Happening → Option Message
  | .done call (.status .strgOk) => call.addsTo number
  | _ => none

def attempted (number : List Byte) : Happening → Option Message
  | .done call _ | .cut call _ => call.addsTo number
  | .restart _ => none

end Happening

/-- What `database_message_get_chat` shows of a chat. -/
def chatReply (chat : List Message) (start n : Nat) : StrgRet × List Message :=
  if chat = [] then (.strgEmpty, [])
  else if n = 0 then (.strgOk, [])
  else if chat.length ≤ start then (.strgFail, [])
  else (.strgOk, (chat.drop start).take n)

def Machine.ShowsChat (machine : Machine) (phone : Option CString) (chat : List Message) : Prop :=
  ∀ start n, (machine.run (databaseMessageGetChat phone start n true)).1 = chatReply chat start n

section Chats

variable {people : List Person} {number : List Byte}

/-- The people are told apart by their numbers. -/
def Model.Unique (people : List Person) : Prop :=
  ∀ left ∈ people, ∀ right ∈ people, left.identity.phone = right.identity.phone → left = right

theorem holds_unique {machine : Machine} (holds : machine.Holds people) : Model.Unique people := by
  obtain ⟨recent, view, chain, listing, mounted, tidy, is⟩ := holds
  intro left leftIn right rightIn same
  have known := @Mounted.person_unique _ _ _ _ _ mounted left right
  rw [is] at known
  exact known leftIn rightIn same

theorem find_member (unique : Model.Unique people) {person : Person} (member : person ∈ people) :
    Model.find ⟨people, []⟩ person.identity.phone = some person := by
  cases found : Model.find ⟨people, []⟩ person.identity.phone with
  | none => exact absurd rfl (Model.find_none (by rw [found]; rfl) member)
  | some other =>
      obtain ⟨otherIn, same⟩ := Model.find_some found
      rw [unique other otherIn person member same]

theorem mounted_shows_chat {machine : Machine} {view : View} {chain : Nat → List Nat}
    {listing : Listing} (mounted : Mounted machine.db machine.card view chain listing)
    {person : Person} (member : person ∈ (modelOf machine.db view chain listing).people)
    {phone : Option CString} (valid : validPhone phone = some person.identity.phone) :
    machine.ShowsChat phone person.chat := by
  have unique : Model.Unique (modelOf machine.db view chain listing).people :=
    fun left leftIn right rightIn => mounted.person_unique leftIn rightIn
  have found : (modelOf machine.db view chain listing).find person.identity.phone = some person :=
    find_member unique member
  intro start n
  rw [Machine.run_of (get_chat_spec mounted phone start n true)]
  unfold Model.getChat
  rw [valid]
  dsimp only
  rw [found]
  rfl

theorem holds_shows_chat {machine : Machine} (holds : machine.Holds people) {person : Person}
    (member : person ∈ people) {phone : Option CString}
    (valid : validPhone phone = some person.identity.phone) :
    machine.ShowsChat phone person.chat := by
  obtain ⟨recent, view, chain, listing, mounted, tidy, is⟩ := holds
  refine mounted_shows_chat mounted ?_ valid
  rw [is]
  exact member

theorem adds_to_other {phone str : Option CString} {timestamp : BitVec 32} {direction : Bool}
    (other : validPhone phone ≠ some number) :
    (Call.messageAdd phone timestamp direction str).addsTo number = none := by
  cases str with
  | none => rfl
  | some text => exact if_neg fun both => other both.1

/-- A person with this number has the newer messages in front of the chat. -/
def Model.Keeps (number : List Byte) (newer : List Message) (person : Person)
    (after : List Person) : Prop :=
  ∃ survivor ∈ after, survivor.identity.phone = number ∧ survivor.chat = newer ++ person.chat

section Keeps

variable {model : Model} {person : Person}

theorem member_keeps {after : List Person} (is : person.identity.phone = number)
    (member : person ∈ after) : Model.Keeps number [] person after :=
  ⟨person, member, is, rfl⟩

theorem find_number (unique : Model.Unique model.people) (member : person ∈ model.people)
    (is : person.identity.phone = number) : model.find number = some person := by
  rw [← is]
  exact find_member unique member

theorem insert_without_keeps (member : person ∈ model.people)
    (is : person.identity.phone = number) {other : List Byte} (different : other ≠ number)
    (changed : Person) :
    Model.Keeps number [] person (Model.insert changed (Model.without other model.people)) := by
  apply member_keeps is
  rw [Model.mem_insert, Model.mem_without]
  exact Or.inr ⟨member, fun same => different (same.symm.trans is)⟩

theorem add_contact_keeps (member : person ∈ model.people) (is : person.identity.phone = number)
    (name phone : Option CString) :
    Model.Keeps number [] person (model.addContact name phone).2.people := by
  apply member_keeps is
  unfold Model.addContact
  split
  · exact member
  · split
    · exact member
    · split
      · exact member
      · exact Model.mem_insert.mpr (Or.inr member)

theorem update_contact_keeps (unique : Model.Unique model.people) (member : person ∈ model.people)
    (is : person.identity.phone = number) {phone newName newPhone : Option CString}
    (spared : ¬(Call.contactUpdate phone newName newPhone).removesChat number) :
    Model.Keeps number [] person (model.updateContact phone newName newPhone).2.people := by
  unfold Model.updateContact
  split
  · rename_i other identity valid checked
    split
    · exact member_keeps is member
    · rename_i updated found
      split
      · exact member_keeps is member
      · by_cases same : other = number
        · -- the number is kept, and the chat with it
          rw [same] at valid found
          have stays : identity.phone = number :=
            by_contra fun changed => spared ⟨valid, identity, checked, changed⟩
          rw [find_number unique member is] at found
          obtain rfl := Option.some.inj found
          exact ⟨⟨identity, person.chat⟩, Model.mem_insert.mpr (Or.inl rfl), stays, rfl⟩
        · exact insert_without_keeps member is same _
  · exact member_keeps is member

theorem remove_contact_keeps (member : person ∈ model.people)
    (is : person.identity.phone = number) {phone : Option CString}
    (spared : validPhone phone ≠ some number) :
    Model.Keeps number [] person (model.removeContact phone).2.people := by
  apply member_keeps is
  unfold Model.removeContact
  split
  · exact member
  · rename_i other valid
    split
    · exact member
    · rw [Model.mem_without]
      refine ⟨member, fun same => spared ?_⟩
      rw [valid, ← is, same]

theorem remove_chat_keeps (member : person ∈ model.people) (is : person.identity.phone = number)
    {phone : Option CString} (spared : validPhone phone ≠ some number) :
    Model.Keeps number [] person (model.removeChat phone).2.people := by
  unfold Model.removeChat
  split
  · exact member_keeps is member
  · rename_i other valid
    split
    · exact member_keeps is member
    · split
      · exact member_keeps is member
      · apply insert_without_keeps member is
        rintro rfl
        exact spared valid

theorem adds_unchecked {phone str : Option CString} {timestamp : BitVec 32} {direction : Bool}
    (given : ∀ unnamed text, checkedIdentity (some noName) phone = some unnamed →
      str = some text → False) :
    (Call.messageAdd phone timestamp direction str).addsTo number = none := by
  cases str with
  | none => rfl
  | some text =>
      apply if_neg
      rintro ⟨valid, _⟩
      obtain ⟨unnamed, checked, _⟩ := valid_phone_identity valid
      exact given unnamed text checked rfl

theorem add_message_keeps (unique : Model.Unique model.people) (member : person ∈ model.people)
    (is : person.identity.phone = number) (phone : Option CString) (timestamp : BitVec 32)
    (direction : Bool) (str : Option CString) :
    Model.Keeps number ((Call.messageAdd phone timestamp direction str).addsTo number).toList person
      (model.addMessage phone timestamp direction str).2.people := by
  unfold Model.addMessage
  split
  · rename_i unnamed text checked
    have valid := (checked_identity_some checked).2
    by_cases zero : timestamp = 0#32
    · have none_ : (Call.messageAdd phone timestamp direction (some text)).addsTo number = none :=
        if_neg fun both => both.2 zero
      rw [if_pos zero, none_]
      exact member_keeps is member
    · rw [if_neg zero]
      by_cases mine : unnamed.phone = number
      · have adds : (Call.messageAdd phone timestamp direction (some text)).addsTo number =
            some (createMessage timestamp direction text.val) :=
          if_pos ⟨by rw [valid, mine], zero⟩
        rw [adds, mine, find_number unique member is]
        exact ⟨⟨person.identity, createMessage timestamp direction text.val :: person.chat⟩,
          Model.mem_insert.mpr (Or.inl rfl), is, rfl⟩
      · have other : validPhone phone ≠ some number := by
          rw [valid]
          exact fun same => mine (Option.some.inj same)
        rw [adds_to_other other]
        dsimp only
        split
        · exact insert_without_keeps member is mine _
        · split
          · exact member_keeps is member
          · exact member_keeps is (Model.mem_insert.mpr (Or.inr member))
  · rename_i given
    rw [adds_unchecked given]
    exact member_keeps is member

theorem next_keeps_chat (unique : Model.Unique model.people) (member : person ∈ model.people)
    (is : person.identity.phone = number) {call : Call} (spared : ¬call.removesChat number) :
    Model.Keeps number (call.addsTo number).toList person (Model.next call model).people := by
  cases call with
  | contactAdd name phone => exact add_contact_keeps member is name phone
  | contactUpdate phone newName newPhone => exact update_contact_keeps unique member is spared
  | contactRemove phone => exact remove_contact_keeps member is spared
  | messageRemoveChat phone => exact remove_chat_keeps member is spared
  | messageAdd phone timestamp direction str =>
      exact add_message_keeps unique member is phone timestamp direction str
  | _ => exact member_keeps is member

theorem refused_update_same {phone newName newPhone : Option CString}
    (refused : (model.updateContact phone newName newPhone).1 ≠ .strgOk) :
    (model.updateContact phone newName newPhone).2 = model := by
  unfold Model.updateContact at refused ⊢
  grind

theorem refused_remove_same {phone : Option CString}
    (refused : (model.removeContact phone).1 ≠ .strgOk) : (model.removeContact phone).2 = model := by
  unfold Model.removeContact at refused ⊢
  grind

theorem refused_chat_same {phone : Option CString}
    (refused : (model.removeChat phone).1 ≠ .strgOk) : (model.removeChat phone).2 = model := by
  unfold Model.removeChat at refused ⊢
  grind

theorem removal_refused {call : Call} {reply : Reply} (removes : call.removesChat number)
    (answers : ∀ expected, Model.reply call model = some expected → reply = expected)
    (refused : reply ≠ .status .strgOk) :
    Model.next call model = model ∧ call.addsTo number = none := by
  cases call with
  | contactUpdate phone newName newPhone =>
      refine ⟨refused_update_same fun done => refused ?_, rfl⟩
      rw [answers _ rfl, done]
  | contactRemove phone =>
      refine ⟨refused_remove_same fun done => refused ?_, rfl⟩
      rw [answers _ rfl, done]
  | messageRemoveChat phone =>
      refine ⟨refused_chat_same fun done => refused ?_, rfl⟩
      rw [answers _ rfl, done]
  | _ => exact removes.elim

/-- A call that ended keeps the chat unless it removed it. -/
theorem done_keeps_chat (unique : Model.Unique people) (member : person ∈ people)
    (is : person.identity.phone = number) {call : Call} {reply : Reply}
    (answers : Model.Answers call people reply)
    (spared : ¬(Happening.done call reply).removesChat number) :
    Model.Keeps number (call.addsTo number).toList person (Model.nextPeople call people) := by
  obtain ⟨recent, _, known⟩ := answers
  have people_ : Model.nextPeople call people = (Model.next call ⟨people, recent⟩).people :=
    (next_people call ⟨people, recent⟩).symm
  rw [people_]
  by_cases removes : call.removesChat number
  · obtain ⟨same, none_⟩ := removal_refused removes known fun done => spared ⟨removes, done⟩
    rw [same, none_]
    exact member_keeps is member
  · exact @next_keeps_chat number ⟨people, recent⟩ person unique member is call removes

end Keeps

theorem interrupted_keeps_chat (unique : Model.Unique people) {person : Person}
    (member : person ∈ people) (is : person.identity.phone = number) {call : Call}
    (spared : ¬call.removesChat number) {later : List Person}
    (interrupted : Model.Interrupted call people later) :
    Model.Keeps number [] person later ∨
      Model.Keeps number (call.addsTo number).toList person later := by
  cases interrupted with
  | unchanged same =>
      rw [same]
      exact Or.inl (member_keeps is member)
  | done same =>
      rw [same]
      exact Or.inr (@next_keeps_chat number ⟨people, []⟩ person unique member is call spared)
  | entered unnamed phone timestamp direction str _ _ _ _ same =>
      rw [same]
      exact Or.inl (member_keeps is (Model.mem_insert.mpr (Or.inr member)))
  | emptied phone other isRemoval valid same =>
      subst isRemoval
      have different : person.identity.phone ≠ other := by
        rintro rfl
        exact spared (by rw [← is]; exact valid)
      rw [same]
      exact Or.inl (member_keeps is (mem_with_chat.mpr (Or.inl ⟨member, different⟩)))

theorem filter_map_cons_append {A B : Type} (f : A → Option B) (head : A) (rest : List A) :
    (head :: rest).filterMap f = (f head).toList ++ rest.filterMap f := by
  rw [List.filterMap_cons]
  cases f head <;> rfl

theorem acknowledged_attempted (number : List Byte) (happening : Happening) :
    (happening.acknowledged number).toList.Sublist (happening.attempted number).toList := by
  cases happening with
  | done call reply =>
      unfold Happening.acknowledged
      split
      · rename_i same
        cases same
        exact List.Sublist.refl _
      · exact List.nil_sublist _
  | _ => exact List.nil_sublist _

theorem reverse_append_option {A : Type} (newer : List A) (added : Option A) :
    (newer ++ added.toList).reverse = added.toList ++ newer.reverse := by
  rw [List.reverse_append]
  cases added <;> rfl

/-- What a run adds to the chat of a person: all that is acknowledged, and nothing that no call
was about. -/
def GrowsBy (trace : List Happening) (number : List Byte) (newer : List Message) : Prop :=
  (trace.filterMap (Happening.acknowledged number)).Sublist newer.reverse ∧
    newer.reverse.Sublist (trace.filterMap (Happening.attempted number))

section Growth

variable {rest : List Happening} {newer : List Message} {call : Call}

theorem GrowsBy.done (grows : GrowsBy rest number newer) (reply : Reply) :
    GrowsBy (.done call reply :: rest) number (newer ++ (call.addsTo number).toList) := by
  unfold GrowsBy
  rw [reverse_append_option, filter_map_cons_append, filter_map_cons_append]
  constructor
  · exact (acknowledged_attempted number (.done call reply)).append grows.1
  · exact (List.Sublist.refl _).append grows.2

theorem GrowsBy.lost (grows : GrowsBy rest number newer) (ret : StrgRet) :
    GrowsBy (.cut call ret :: rest) number newer := by
  unfold GrowsBy
  rw [filter_map_cons_append, filter_map_cons_append]
  constructor
  · exact grows.1
  · exact grows.2.trans (List.sublist_append_right _ _)

theorem GrowsBy.finished (grows : GrowsBy rest number newer) (ret : StrgRet) :
    GrowsBy (.cut call ret :: rest) number (newer ++ (call.addsTo number).toList) := by
  unfold GrowsBy
  rw [reverse_append_option, filter_map_cons_append, filter_map_cons_append]
  constructor
  · exact grows.1.trans (List.sublist_append_right _ _)
  · exact (List.Sublist.refl _).append grows.2

theorem Model.Keeps.append {person survivor : Person} {added : List Message} {after : List Person}
    (later : Model.Keeps number newer survivor after)
    (chat : survivor.chat = added ++ person.chat) :
    Model.Keeps number (newer ++ added) person after := by
  obtain ⟨last, inAfter, is, lastChat⟩ := later
  refine ⟨last, inAfter, is, ?_⟩
  rw [lastChat, chat, List.append_assoc]

end Growth

theorem cut_run_keeps_chat {machine last : Machine} {trace : List Happening}
    (run : CutRun machine trace last) (holds : machine.Holds people) {person : Person}
    (member : person ∈ people) (is : person.identity.phone = number)
    (spared : ∀ happening ∈ trace, ¬happening.removesChat number) :
    ∃ later newer, last.Holds later ∧ Model.Keeps number newer person later ∧
      GrowsBy trace number newer := by
  induction run generalizing people person with
  | stop machine =>
      exact ⟨people, [], holds, member_keeps is member, List.Sublist.refl _, List.Sublist.refl _⟩
  | @done machine last rest call room later ih =>
      obtain ⟨next, answers⟩ := call_holds holds room
      obtain ⟨survivor, inNext, phone, chat⟩ := done_keeps_chat (holds_unique holds) member is
        answers (spared _ List.mem_cons_self)
      obtain ⟨people', newer, known, keeps, grows⟩ := ih next inNext phone fun happening inRest =>
        spared happening (List.mem_cons_of_mem _ inRest)
      exact ⟨people', _, known, keeps.append chat, grows.done _⟩
  | @cut machine last rest card call count room whole cuts memory later ih =>
      obtain ⟨next, _, known, interrupted⟩ := cut_holds holds room whole cuts memory
      have sparedRest : ∀ happening ∈ rest, ¬happening.removesChat number := fun happening inRest =>
        spared happening (List.mem_cons_of_mem _ inRest)
      rcases interrupted_keeps_chat (holds_unique holds) member is (spared _ List.mem_cons_self)
        interrupted with same | added
      · obtain ⟨survivor, inNext, phone, chat⟩ := same
        obtain ⟨people', newer, lastKnown, keeps, grows⟩ := ih known inNext phone sparedRest
        have whole_ := keeps.append chat
        rw [List.append_nil] at whole_
        exact ⟨people', newer, lastKnown, whole_, grows.lost _⟩
      · obtain ⟨survivor, inNext, phone, chat⟩ := added
        obtain ⟨people', newer, lastKnown, keeps, grows⟩ := ih known inNext phone sparedRest
        exact ⟨people', _, lastKnown, keeps.append chat, grows.finished _⟩
  | @restart machine last rest memory later ih =>
      obtain ⟨_, next⟩ := restart_holds holds memory
      exact ih next member is fun happening inRest =>
        spared happening (List.mem_cons_of_mem _ inRest)

theorem added_newest {model : Model} {phone str : Option CString} {timestamp : BitVec 32}
    {direction : Bool} (valid : validPhone phone = some number)
    (added : (model.addMessage phone timestamp direction str).1 = .strgOk) :
    ∃ text older, ∃ person ∈ (model.addMessage phone timestamp direction str).2.people,
      str = some text ∧ person.identity.phone = number ∧
      person.chat = createMessage timestamp direction text.val :: older := by
  obtain ⟨unnamed, checked, rfl, _⟩ := valid_phone_identity valid
  unfold Model.addMessage at added ⊢
  rw [checked] at added ⊢
  cases str with
  | none => cases added
  | some text =>
      dsimp only at added ⊢
      split at added
      · cases added
      · rename_i timed
        rw [if_neg timed]
        cases found : model.find unnamed.phone with
        | some person =>
            exact ⟨text, person.chat, _, Model.mem_insert.mpr (Or.inl rfl), rfl,
              (Model.find_some found).2, rfl⟩
        | none =>
            rw [found] at added
            dsimp only at added ⊢
            split at added
            · cases added
            · rename_i room
              rw [if_neg room]
              exact ⟨text, [], _, Model.mem_insert.mpr (Or.inl rfl), rfl, rfl, rfl⟩

theorem sent_stays {middle last : Machine} (holds_ : middle.Holds people) {after : List Happening}
    {phone str : Option CString} (valid : validPhone phone = some number) {timestamp : BitVec 32}
    {direction : Bool}
    (room : ¬Exhausts (.messageAdd phone timestamp direction str) middle.db middle.card)
    (accepted : (middle.run (Call.run (.messageAdd phone timestamp direction str))).1 =
      .status .strgOk)
    (later : CutRun (middle.run (Call.run (.messageAdd phone timestamp direction str))).2 after
      last) (spared : ∀ happening ∈ after, ¬happening.removesChat number) :
    ∃ text older newer, str = some text ∧
      (middle.run (Call.run (.messageAdd phone timestamp direction str))).2.ShowsChat phone
        (createMessage timestamp direction text.val :: older) ∧
      last.ShowsChat phone (newer ++ createMessage timestamp direction text.val :: older) ∧
      GrowsBy after number newer := by
  obtain ⟨recent, sound⟩ := holds_
  obtain ⟨next, answers⟩ := Machine.call_sound sound _ room
  have added : ((⟨people, recent⟩ : Model).addMessage phone timestamp direction str).1 = .strgOk := by
    have reply := answers _ rfl
    rw [accepted] at reply
    exact (Reply.status.inj reply).symm
  obtain ⟨text, older, person, member, given, is, chat⟩ := added_newest valid added
  have holds : (middle.run (Call.run (.messageAdd phone timestamp direction str))).2.Holds
      ((⟨people, recent⟩ : Model).addMessage phone timestamp direction str).2.people := ⟨_, next⟩
  obtain ⟨lastPeople, newer, lastHolds, ⟨survivor, inLast, lastIs, lastChat⟩, grows⟩ :=
    cut_run_keeps_chat later holds member is spared
  have first := holds_shows_chat holds member (by rw [is]; exact valid)
  have last_ := holds_shows_chat lastHolds inLast (by rw [lastIs]; exact valid)
  rw [chat] at first lastChat
  rw [lastChat] at last_
  exact ⟨text, older, newer, given, first, last_, grows⟩

end Chats

/-- An acknowledged message stays in its chat with everything older, and the chat grows by the
acknowledged messages in their order, through any number of power cuts and start-ups. -/
theorem acknowledged_messages_survive {machine middle last : Machine}
    {before after : List Happening} (run : CutRun machine.format before middle)
    {phone str : Option CString} {number : List Byte} (valid : validPhone phone = some number)
    {timestamp : BitVec 32} {direction : Bool}
    (room : ¬Exhausts (.messageAdd phone timestamp direction str) middle.db middle.card)
    (accepted : (middle.run (Call.run (.messageAdd phone timestamp direction str))).1 =
      .status .strgOk)
    (later : CutRun (middle.run (Call.run (.messageAdd phone timestamp direction str))).2 after
      last) (spared : ∀ happening ∈ after, ¬happening.removesChat number) :
    ∃ text older newer, str = some text ∧
      (middle.run (Call.run (.messageAdd phone timestamp direction str))).2.ShowsChat phone
        (createMessage timestamp direction text.val :: older) ∧
      last.ShowsChat phone (newer ++ createMessage timestamp direction text.val :: older) ∧
      (after.filterMap (Happening.acknowledged number)).Sublist newer.reverse ∧
      newer.reverse.Sublist (after.filterMap (Happening.attempted number)) := by
  obtain ⟨people, _, holds⟩ := cut_run_lives run (format_nobody machine)
  obtain ⟨text, older, newer, given, first, last_, acknowledged, attempted⟩ :=
    sent_stays holds valid room accepted later spared
  exact ⟨text, older, newer, given, first, last_, acknowledged, attempted⟩

/-- The second message of a chat is cut in its first transaction. -/
theorem acknowledged_messages_survive_example :
    ∃ text older newer, some exampleText = some text ∧
      exampleChatMachine.ShowsChat (some exampleText)
        (createMessage 7#32 true text.val :: older) ∧
      (Machine.restart (exampleChatMachine.cut
        (.messageAdd (some exampleText) 8#32 true (some exampleText)) 3)
          formattedDatabase).2.ShowsChat (some exampleText)
        (newer ++ createMessage 7#32 true text.val :: older) ∧
      ([Happening.cut (.messageAdd (some exampleText) 8#32 true (some exampleText))
          (Machine.restart (exampleChatMachine.cut
            (.messageAdd (some exampleText) 8#32 true (some exampleText)) 3)
              formattedDatabase).1].filterMap
        (Happening.acknowledged exampleText.val)).Sublist newer.reverse ∧
      newer.reverse.Sublist ([Happening.cut
          (.messageAdd (some exampleText) 8#32 true (some exampleText))
          (Machine.restart (exampleChatMachine.cut
            (.messageAdd (some exampleText) 8#32 true (some exampleText)) 3)
              formattedDatabase).1].filterMap (Happening.attempted exampleText.val)) := by
  have accepted := (Machine.call_sound exampleMachine.format_sound _ example_chat_room).2
    (.status .strgOk) rfl
  obtain ⟨_, _, _, _, fills⟩ := @chat_fills_start _ exampleMachine (some exampleText) 7#32 true
    exampleText example_valid (by decide)
  have laterRoom : ¬Exhausts (.messageAdd (some exampleText) 8#32 true (some exampleText))
      exampleChatMachine.db exampleChatMachine.card := by
    have some_ : exampleChatMachine.db.messageAllocator.freeStack ≠ [] := by
      unfold exampleChatMachine
      exact fills.stack_some (by decide)
    exact fun exhausts => some_ exhausts.2
  have whole : ¬exampleChatMachine.SplitsChat
      (.messageAdd (some exampleText) 8#32 true (some exampleText)) 3 := by
    intro split
    unfold Machine.SplitsChat at split
    exact absurd split.2.1 (by decide)
  have run : CutRun exampleChatMachine _ _ :=
    .cut _ 3 laterRoom whole (CutInits.none _) formattedDatabase (.stop _)
  apply @acknowledged_messages_survive exampleMachine exampleMachine.format _ [] _ (.stop _)
    (some exampleText) (some exampleText) exampleText.val (by decide) 7#32 true example_chat_room
    accepted
  · exact run
  · intro happening member
    rw [List.mem_singleton.mp member]
    exact id

end SdDatabase
