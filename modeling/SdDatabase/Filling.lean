import SdDatabase.Reboot

/-!
# Filling a chat

A format hands out the message sectors from the last one down. The messages of the
first chat fill the last sector, and when it is full the next one is in front of it.
-/

namespace SdDatabase

open Bytes Device

set_option autoImplicit false

section Filling

variable {machine : Machine} {view : View} {chain : Nat → List Nat} {listing : Listing}
  {number : List Byte} {slot left : Nat} {messages : List Message}

theorem range_reverse {count : Nat} (some_ : 0 < count) :
    (List.range count).reverse = (count - 1) :: (List.range (count - 1)).reverse := by
  obtain ⟨before, rfl⟩ := Nat.exists_eq_succ_of_ne_zero some_.ne'
  rw [Nat.succ_eq_add_one, Nat.add_sub_cancel, List.range_succ, List.reverse_append]
  rfl

/-- The only chat takes the sectors from `left` on, and the other sectors are free. -/
structure ChatFills (machine : Machine) (view : View) (chain : Nat → List Nat)
    (listing : Listing) (number : List Byte) (slot left : Nat) (messages : List Message) :
    Prop where
  reachable : Reachable machine
  mounted : Mounted machine.db machine.card view chain listing
  tidy : Tidy view chain
  contact : ∃ identity, view.contact slot = some identity ∧ identity.phone = number
  only : ∀ other identity, view.contact other = some identity → other = slot
  inside : left < totalMessageSectorSize
  whole : chain slot = List.range' left (totalMessageSectorSize - left)
  chat : chatOf view chain slot = messages
  newest : ∃ mSector, view.sector left = some mSector ∧ messages.length =
    messageSectorCapacity * (totalMessageSectorSize - 1 - left) + mSector.header.msgCount.toNat
  stack : machine.db.messageAllocator.freeStack = (List.range left).reverse

theorem chat_sectors_cons {left : Nat} (inside : left < totalMessageSectorSize) :
    List.range' left (totalMessageSectorSize - left) =
      left :: List.range' (left + 1) (totalMessageSectorSize - (left + 1)) := by
  rw [show totalMessageSectorSize - left = totalMessageSectorSize - (left + 1) + 1 by omega,
    List.range'_succ]

theorem Added.machine_run {phone str : Option CString} {timestamp : BitVec 32} {direction : Bool}
    {model : Model} {identity : Identity} {message : Message} {next : Database}
    {log : WriteLog Sector} {later : View} {laterChain : Nat → List Nat}
    (added : Added (databaseMessageAdd phone timestamp direction str) machine.db machine.card view
      chain model identity slot message next log later laterChain listing) :
    machine.run (Call.run (.messageAdd phone timestamp direction str)) =
      (.status .strgOk, ⟨next, applyWrites log machine.card⟩) := by
  refine Machine.run_of ?_
  have logEq : log = log ++ [] := (List.append_nil log).symm
  rw [Call.run, logEq]
  exact out_bind_both added.run rfl

/-- The first message behind a format. -/
theorem chat_fills_start (before : Machine) {phone : Option CString} {timestamp : BitVec 32}
    (direction : Bool) (text : CString) (valid : validPhone phone = some number)
    (timed : timestamp ≠ 0#32) :
    ∃ view chain listing slot, ChatFills
      (before.format.run (Call.run (.messageAdd phone timestamp direction (some text)))).2 view chain
      listing number slot (totalMessageSectorSize - 1)
      [createMessage timestamp direction text.val] := by
  have db : before.format.db = formattedDatabase :=
    congrArg Machine.db (Machine.format_eq before)
  have mounted := before.format_mounts
  obtain ⟨unnamed, _, rfl, noName_⟩ := valid_phone_identity valid
  have absent : ∀ sector other, blankView.contact sector = some other →
      other.phone ≠ unnamed.phone := by
    intro sector other stored
    cases stored
  obtain ⟨sector, rest, stack⟩ :
      ∃ sector rest, before.format.db.contactAllocator.freeStack = sector :: rest := by
    refine List.exists_cons_of_ne_nil ?_
    rw [db]
    unfold formattedDatabase
    rw [ne_eq, List.reverse_eq_nil_iff, List.range_eq_nil]
    simp
  have room : before.format.db.messageAllocator.freeStack ≠ [] := by
    rw [db]
    exact format_allocator_some
  obtain ⟨next, log, later, laterChain, listing, added⟩ := @message_add_new _ _ _ _ _ mounted
    unnamed noName_ absent _ _ stack room _ _ _ direction text valid rfl timed
  have reachable : Reachable (before.format.run
      (Call.run (.messageAdd phone timestamp direction (some text)))).2 :=
    .called (.formatted before) _ fun exhausts => room exhausts.2
  rw [added.machine_run] at reachable ⊢
  obtain ⟨sectors, chained, growth⟩ := added.growth
  have free : before.format.db.messageAllocator.freeStack =
      (totalMessageSectorSize - 1) :: (List.range (totalMessageSectorSize - 1)).reverse := by
    rw [db]
    unfold formattedDatabase
    dsimp only
    exact range_reverse (by simp)
  rw [free] at growth
  cases growth with
  | started index _ taken sectorsEq is =>
      obtain ⟨rfl, rest⟩ := List.cons_eq_cons.mp taken
      refine ⟨later, laterChain, listing, sector, reachable, added.mounted, added.tidy blank_tidy,
        ⟨unnamed, ?_, rfl⟩, ?_, by simp, ?_, added.messages,
        ⟨(createNewMessageSector sector uint16Max).push (createMessage timestamp direction text.val),
          ?_, ?_⟩, rest.symm⟩
      · rw [added.contact]
        exact set_contact_self _ _ _
      · intro other identity stored
        by_contra different
        rw [added.contact, set_contact_other _ _ different] at stored
        cases stored
      · rw [chained, Function.update_self, sectorsEq]
        rfl
      · rw [is]
        exact set_sector_self _ _ _
      · rw [Nat.sub_self, push_count (new_sector_room _ _)]
        rfl
  | appended _ _ _ impossible => cases impossible
  | grown _ _ _ _ impossible => cases impossible

theorem ChatFills.push (fills : ChatFills machine view chain listing number slot left messages)
    {phone : Option CString} {timestamp : BitVec 32} (direction : Bool) (text : CString)
    (valid : validPhone phone = some number) (timed : timestamp ≠ 0#32)
    (room : messages.length < messageSectorCapacity * totalMessageSectorSize) :
    ∃ view chain listing left, ChatFills
      (machine.run (Call.run (.messageAdd phone timestamp direction (some text)))).2 view chain
      listing number slot left (createMessage timestamp direction text.val :: messages) := by
  obtain ⟨identity, stored, rfl⟩ := fills.contact
  obtain ⟨mSector, found, count⟩ := fills.newest
  obtain ⟨hashSlot, occupied, rfl, _⟩ := fills.mounted.core.slot_of stored
  have inside := fills.inside
  have chained := chat_sectors_cons inside
  have size : totalMessageSectorSize = 28586 := rfl
  have capacity : messageSectorCapacity = 3 := rfl
  have below : messageSectorCapacity ≤ mSector.header.msgCount.toNat → 0 < left := by
    intro full
    rw [size] at inside room count
    rw [capacity] at full room count
    omega
  have given : NeedsSector view chain (machine.db.htable.htable hashSlot).sector →
      machine.db.messageAllocator.freeStack ≠ [] := by
    intro needs
    have full := needs left _ mSector (fills.whole.trans chained) found
    rw [fills.stack, range_reverse (below full)]
    exact List.cons_ne_nil _ _
  obtain ⟨next, log, later, laterChain, added⟩ := @message_add_known _ _ _ _ _ _ _ fills.mounted
    occupied stored given _ _ _ direction text valid rfl timed
  have reachable : Reachable (machine.run
      (Call.run (.messageAdd phone timestamp direction (some text)))).2 := by
    refine .called fills.reachable _ ?_
    rintro ⟨asks, none_⟩
    rw [asks_known_iff fills.mounted.core occupied stored direction valid rfl timed] at asks
    exact given asks none_
  rw [added.machine_run] at reachable ⊢
  have contact : later.contact (machine.db.htable.htable hashSlot).sector = some identity := by
    rw [added.contact]
    exact set_contact_self _ _ _
  have only : ∀ other otherIdentity, later.contact other = some otherIdentity →
      other = (machine.db.htable.htable hashSlot).sector := by
    intro other otherIdentity otherStored
    by_contra different
    rw [added.contact, set_contact_other _ _ different] at otherStored
    exact different (fills.only other otherIdentity otherStored)
  have messages_ : chatOf later laterChain (machine.db.htable.htable hashSlot).sector =
      createMessage timestamp direction text.val :: messages := by
    rw [added.messages, fills.chat]
  obtain ⟨sectors, chains, growth⟩ := added.growth
  cases growth with
  | started index none_ =>
      rw [fills.whole, chained] at none_
      cases none_
  | appended first older other whole otherFound space kept same is =>
      obtain ⟨rfl, _⟩ := List.cons_eq_cons.mp ((fills.whole.trans chained).symm.trans whole)
      obtain rfl : other = mSector := Option.some_injective _ (otherFound.symm.trans found)
      refine ⟨later, laterChain, listing, left, reachable, added.mounted, added.tidy fills.tidy,
        ⟨identity, contact, rfl⟩, only, inside, ?_, messages_,
        ⟨other.push (createMessage timestamp direction text.val), ?_, ?_⟩, ?_⟩
      · rw [chains, Function.update_self, same, fills.whole]
      · rw [is]
        exact set_sector_self _ _ _
      · rw [List.length_cons, push_count space, count, Nat.add_assoc]
      · rw [kept, fills.stack]
  | grown first older other next whole otherFound full taken same is =>
      obtain ⟨rfl, _⟩ := List.cons_eq_cons.mp ((fills.whole.trans chained).symm.trans whole)
      obtain rfl : other = mSector := Option.some_injective _ (otherFound.symm.trans found)
      have some_ := below full
      rw [fills.stack, range_reverse some_] at taken
      obtain ⟨rfl, rest⟩ := List.cons_eq_cons.mp taken
      have different : left - 1 ≠ left := by omega
      refine ⟨later, laterChain, listing, left - 1, reachable, added.mounted,
        added.tidy fills.tidy, ⟨identity, contact, rfl⟩, only, by omega, ?_, messages_,
        ⟨(createNewMessageSector (machine.db.htable.htable hashSlot).sector left).push
          (createMessage timestamp direction text.val), ?_, ?_⟩, rest.symm⟩
      · rw [chains, Function.update_self, same, fills.whole,
          chat_sectors_cons (by omega : left - 1 < totalMessageSectorSize), Nat.sub_add_cancel some_]
      · rw [is]
        change (View.setSector _ left _).sector (left - 1) = _
        rw [set_sector_other _ _ different]
        exact set_sector_self _ _ _
      · have counted := fills.mounted.core.chats.counted
          (machine.db.htable.htable hashSlot).sector left (by rw [fills.whole, chained]; simp)
          other otherFound
        have empty : (createNewMessageSector (machine.db.htable.htable hashSlot).sector
            left).header.msgCount.toNat = 0 := rfl
        rw [List.length_cons, push_count (new_sector_room _ _), count, empty]
        rw [size] at inside ⊢
        rw [capacity] at counted full ⊢
        omega

theorem ChatFills.stack_some
    (fills : ChatFills machine view chain listing number slot left messages) (some_ : 0 < left) :
    machine.db.messageAllocator.freeStack ≠ [] := by
  rw [fills.stack, range_reverse some_]
  exact List.cons_ne_nil _ _

theorem ChatFills.left_eq (fills : ChatFills machine view chain listing number slot left messages)
    {sectors : Nat} (lower : messageSectorCapacity * sectors < messages.length)
    (upper : messages.length ≤ messageSectorCapacity * (sectors + 1)) :
    left = totalMessageSectorSize - 1 - sectors := by
  obtain ⟨mSector, found, count⟩ := fills.newest
  have counted := fills.mounted.core.chats.counted slot left
    (by rw [fills.whole, chat_sectors_cons fills.inside]; simp) mSector found
  have inside := fills.inside
  have size : totalMessageSectorSize = 28586 := rfl
  have capacity : messageSectorCapacity = 3 := rfl
  rw [size] at inside count ⊢
  rw [capacity] at counted count lower upper
  omega

theorem ChatFills.full (fills : ChatFills machine view chain listing number slot left messages)
    (full : messages.length = messageSectorCapacity * (totalMessageSectorSize - left)) :
    ∃ mSector, view.sector left = some mSector ∧
      messageSectorCapacity ≤ mSector.header.msgCount.toNat := by
  obtain ⟨mSector, found, count⟩ := fills.newest
  have inside := fills.inside
  have size : totalMessageSectorSize = 28586 := rfl
  have capacity : messageSectorCapacity = 3 := rfl
  refine ⟨mSector, found, ?_⟩
  rw [size] at inside count full
  rw [capacity] at count full ⊢
  omega

theorem ChatFills.rolls_over
    (fills : ChatFills machine view chain listing number slot left messages) (some_ : 0 < left)
    (full : messages.length = messageSectorCapacity * (totalMessageSectorSize - left)) :
    ∃ older mSector, RollsOver machine.db view chain number slot left (left - 1) older mSector := by
  obtain ⟨mSector, found, room⟩ := fills.full full
  refine ⟨_, mSector, fills.contact, fills.whole.trans (chat_sectors_cons fills.inside), found, room,
    (List.range (left - 1)).reverse, ?_⟩
  rw [fills.stack]
  exact range_reverse some_

end Filling

def exampleAdd (timestamp : BitVec 32) : Call :=
  .messageAdd (some exampleText) timestamp true (some exampleText)

def exampleMessage (timestamp : BitVec 32) : Message :=
  createMessage timestamp true exampleText.val

def exampleFullMachine : Machine :=
  ((exampleChatMachine.run (exampleAdd 8#32).run).2.run (exampleAdd 9#32).run).2

theorem example_valid : validPhone (some exampleText) = some exampleText.val := by decide

/-- The machine behind a number of messages of one contact. -/
def exampleAdds : Nat → Machine
  | 0 => exampleMachine.format
  | count + 1 => ((exampleAdds count).run (exampleAdd 7#32).run).2

theorem example_adds_fill {count : Nat}
    (room : count < messageSectorCapacity * totalMessageSectorSize) :
    ∃ view chain listing slot left messages,
      ChatFills (exampleAdds (count + 1)) view chain listing exampleText.val slot left messages ∧
        messages.length = count + 1 := by
  induction count with
  | zero =>
      obtain ⟨view, chain, listing, slot, fills⟩ :=
        @chat_fills_start _ exampleMachine (some exampleText) 7#32 true exampleText example_valid
          (by decide)
      exact ⟨view, chain, listing, slot, _, _, fills, rfl⟩
  | succ count ih =>
      obtain ⟨view, chain, listing, slot, left, messages, fills, length⟩ :=
        ih (Nat.lt_of_succ_lt room)
      rw [← length] at room
      obtain ⟨view, chain, listing, left, pushed⟩ :=
        @ChatFills.push _ _ _ _ _ _ _ _ fills (some exampleText) 7#32 true exampleText
          example_valid (by decide) room
      exact ⟨view, chain, listing, slot, left, _, pushed, by rw [List.length_cons, length]⟩

theorem example_full_fills : ∃ view chain listing slot,
    ChatFills exampleFullMachine view chain listing exampleText.val slot
      (totalMessageSectorSize - 1)
      [exampleMessage 9#32, exampleMessage 8#32, exampleMessage 7#32] := by
  have room : 2 < messageSectorCapacity * totalMessageSectorSize := by decide
  obtain ⟨view, chain, listing, slot, first⟩ :=
    @chat_fills_start _ exampleMachine (some exampleText) 7#32 true exampleText example_valid
      (by decide)
  obtain ⟨view, chain, listing, left, second⟩ :=
    @ChatFills.push _ _ _ _ _ _ _ _ first (some exampleText) 8#32 true exampleText example_valid
      (by decide) (lt_trans (by decide) room)
  obtain ⟨view, chain, listing, left, third⟩ :=
    @ChatFills.push _ _ _ _ _ _ _ _ second (some exampleText) 9#32 true exampleText example_valid
      (by decide) room
  have last := @ChatFills.left_eq _ _ _ _ _ _ _ _ third 0 (by simp) (by simp)
  rw [last] at third
  exact ⟨view, chain, listing, slot, third⟩

end SdDatabase
