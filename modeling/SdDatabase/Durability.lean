import SdDatabase.CutRuns
import SdDatabase.Exhaustion

/-!
# Acknowledged messages and power cuts

What a run with power cuts keeps of the messages that were acknowledged. They stay as long as
no cut falls between two transactions that a chat needs; between the two that make it grow,
the new sector stays behind as a second head, and a later start-up may take it for the first.
-/

namespace SdDatabase

open Bytes Device

set_option autoImplicit false

/-- Calls, start-ups and power cuts, start-ups being cut as well, as far as the calls and the
moments of the cuts are allowed. -/
inductive PowerRun (calls : Machine → Call → Prop) (cuts : Machine → Call → Nat → Prop) :
    Machine → List Happening → Machine → Prop where
  | stop (machine : Machine) : PowerRun calls cuts machine [] machine
  | done {machine last : Machine} {rest : List Happening} (call : Call)
      (allowed : calls machine call)
      (later : PowerRun calls cuts (machine.run call.run).2 rest last) :
      PowerRun calls cuts machine (.done call (machine.run call.run).1 :: rest) last
  | cut {machine last : Machine} {rest : List Happening} {card : Card Sector} (call : Call)
      (count : Nat) (allowed : calls machine call) (falls : cuts machine call count)
      (starts : CutInits (machine.cut call count) card) (memory : Database)
      (later : PowerRun calls cuts (Machine.restart card memory).2 rest last) :
      PowerRun calls cuts machine (.cut call (Machine.restart card memory).1 :: rest) last
  | restart {machine last : Machine} {rest : List Happening} (memory : Database)
      (later : PowerRun calls cuts (Machine.restart machine.card memory).2 rest last) :
      PowerRun calls cuts machine (.restart (Machine.restart machine.card memory).1 :: rest) last

/-- A message shown by one machine is shown by a later one, once and behind what was added since
then: all messages acknowledged in between, in their order, and none that no call added. -/
def KeepsMessage (sent last : Machine) (after : List Happening) (phone : Option CString)
    (number : List Byte) (timestamp : BitVec 32) (direction : Bool) (str : Option CString) : Prop :=
  ∃ text older newer, str = some text ∧
    sent.ShowsChat phone (createMessage timestamp direction text.val :: older) ∧
    last.ShowsChat phone (newer ++ createMessage timestamp direction text.val :: older) ∧
    GrowsBy after number newer

/-- A message whose call returned `STRG_OK` is kept until its chat is removed. -/
def KeepsAcknowledged (calls : Machine → Call → Prop) (cuts : Machine → Call → Nat → Prop) :
    Prop :=
  ∀ {machine middle last : Machine} {before after : List Happening} {phone str : Option CString}
    {number : List Byte} {timestamp : BitVec 32} {direction : Bool},
    PowerRun calls cuts machine.format before middle → validPhone phone = some number →
    calls middle (.messageAdd phone timestamp direction str) →
    (middle.run (Call.run (.messageAdd phone timestamp direction str))).1 = .status .strgOk →
    PowerRun calls cuts (middle.run (Call.run (.messageAdd phone timestamp direction str))).2
      after last →
    (∀ happening ∈ after, ¬happening.removesChat number) →
    KeepsMessage (middle.run (Call.run (.messageAdd phone timestamp direction str))).2 last after
      phone number timestamp direction str

namespace Machine

/-- The call finds a message sector if it needs one, or it is refused cleanly. -/
def FindsSector (machine : Machine) (call : Call) : Prop :=
  Exhausts call machine.db machine.card → ∀ phone timestamp direction str number,
    call = .messageAdd phone timestamp direction str → validPhone phone = some number →
    machine.RefusesCleanly number

end Machine

section Refused

variable {machine : Machine} {people : List Person}

/-- A call that is refused for the lack of a sector has no effect. -/
theorem refused_run (holds : machine.Holds people) {call : Call}
    (exhausts : Exhausts call machine.db machine.card) (finds_ : machine.FindsSector call) :
    out call.run machine.db machine.card = ((.status .strgFail, machine.db), []) := by
  obtain ⟨recent, view, chain, listing, mounted, tidy, is⟩ := holds
  obtain ⟨phone, timestamp, direction, text, number, rfl, valid, timed, misses⟩ :=
    exhausts_misses mounted exhausts
  have clean := finds_ exhausts phone timestamp direction (some text) number rfl valid
  obtain ⟨found, find⟩ := finds mounted.core number
  rcases insert_missing mounted valid misses (createMessage timestamp direction text.val) with
    ⟨_, insert⟩ | ⟨spoiled, _⟩
  · exact message_call_fails valid timed find insert
  · exact absurd clean spoiled

/-- A trace without the calls that had no effect. -/
structure Thins (thin trace : List Happening) : Prop where
  acknowledged : ∀ number, thin.filterMap (Happening.acknowledged number) =
    trace.filterMap (Happening.acknowledged number)
  attempted : ∀ number, (thin.filterMap (Happening.attempted number)).Sublist
    (trace.filterMap (Happening.attempted number))
  spared : ∀ number, (∀ happening ∈ trace, ¬happening.removesChat number) →
    ∀ happening ∈ thin, ¬happening.removesChat number

theorem thins_same : Thins [] [] :=
  ⟨fun _ => rfl, fun _ => List.Sublist.refl _, fun _ spared => spared⟩

theorem Thins.cons {thin trace : List Happening} (thins : Thins thin trace)
    (happening : Happening) : Thins (happening :: thin) (happening :: trace) where
  acknowledged number := by
    rw [filter_map_cons_append, filter_map_cons_append, thins.acknowledged]
  attempted number := by
    rw [filter_map_cons_append, filter_map_cons_append]
    exact (List.Sublist.refl _).append (thins.attempted number)
  spared number spared := by
    intro other member
    rcases List.mem_cons.mp member with rfl | later
    · exact spared _ List.mem_cons_self
    · exact thins.spared number (fun known inTrace => spared known (List.mem_cons_of_mem _ inTrace))
        other later

theorem Thins.refused {thin trace : List Happening} (thins : Thins thin trace) (call : Call) :
    Thins thin (.done call (.status .strgFail) :: trace) where
  acknowledged number := thins.acknowledged number
  attempted number := by
    rw [filter_map_cons_append]
    exact (thins.attempted number).trans (List.sublist_append_right _ _)
  spared number spared :=
    thins.spared number fun known inTrace => spared known (List.mem_cons_of_mem _ inTrace)

/-- A call that writes nothing takes the place of the one that is refused. -/
theorem Thins.replaced {thin trace : List Happening} (thins : Thins thin trace) (call : Call)
    (ret : StrgRet) : Thins (.cut .contactCount ret :: thin) (.cut call ret :: trace) where
  acknowledged number := thins.acknowledged number
  attempted number := by
    rw [filter_map_cons_append, filter_map_cons_append]
    exact (List.nil_sublist _).append (thins.attempted number)
  spared number spared := by
    intro other member
    rcases List.mem_cons.mp member with rfl | later
    · exact id
    · exact thins.spared number (fun known inTrace => spared known (List.mem_cons_of_mem _ inTrace))
        other later

/-- A run whose calls find their sectors or are refused cleanly, and whose cuts split no chat. -/
theorem power_run_thins {last : Machine} {trace : List Happening}
    (run : PowerRun Machine.FindsSector (fun machine call count => ¬machine.SplitsChat call count)
      machine trace last) (holds : machine.Holds people) :
    ∃ thin, CutRun machine thin last ∧ Thins thin trace := by
  induction run generalizing people with
  | stop machine => exact ⟨[], .stop machine, thins_same⟩
  | @done machine last rest call allowed later ih =>
      by_cases exhausts : Exhausts call machine.db machine.card
      · have same := Machine.run_of (refused_run holds exhausts allowed)
        rw [same] at ih ⊢
        obtain ⟨thin, run, thins⟩ := ih holds
        exact ⟨thin, run, thins.refused call⟩
      · obtain ⟨thin, run, thins⟩ := ih (call_holds holds exhausts).1
        exact ⟨_, .done call exhausts run, thins.cons _⟩
  | @cut machine last rest card call count allowed whole starts memory later ih =>
      by_cases exhausts : Exhausts call machine.db machine.card
      · -- nothing was written when the power went
        have kept : machine.cut call count = machine.cut .contactCount 0 := by
          rw [machine_cut_eq, machine_cut_eq, Machine.writes, refused_run holds exhausts allowed,
            List.take_nil, List.take_zero]
        have room : ¬Exhausts .contactCount machine.db machine.card := fun none_ => by cases none_.1
        rw [kept] at starts
        obtain ⟨after, _, next, _⟩ := cut_holds holds room id starts memory
        obtain ⟨thin, run, thins⟩ := ih next
        exact ⟨_, .cut .contactCount 0 room id starts memory run, thins.replaced call _⟩
      · obtain ⟨after, _, next, _⟩ := cut_holds holds exhausts whole starts memory
        obtain ⟨thin, run, thins⟩ := ih next
        exact ⟨_, .cut call count exhausts whole starts memory run, thins.cons _⟩
  | @restart machine last rest memory later ih =>
      obtain ⟨thin, run, thins⟩ := ih (restart_holds holds memory).2
      exact ⟨_, .restart memory run, thins.cons _⟩

end Refused

/-- Acknowledged messages stay in every run whose cuts split no chat. -/
theorem acknowledged_messages_kept {machine middle last : Machine}
    {before after : List Happening}
    (run : PowerRun Machine.FindsSector (fun machine call count => ¬machine.SplitsChat call count)
      machine.format before middle) {phone str : Option CString} {number : List Byte}
    (valid : validPhone phone = some number) {timestamp : BitVec 32} {direction : Bool}
    (finds_ : middle.FindsSector (.messageAdd phone timestamp direction str))
    (accepted : (middle.run (Call.run (.messageAdd phone timestamp direction str))).1 =
      .status .strgOk)
    (later : PowerRun Machine.FindsSector
      (fun machine call count => ¬machine.SplitsChat call count)
      (middle.run (Call.run (.messageAdd phone timestamp direction str))).2 after last)
    (spared : ∀ happening ∈ after, ¬happening.removesChat number) :
    KeepsMessage (middle.run (Call.run (.messageAdd phone timestamp direction str))).2 last after
      phone number timestamp direction str := by
  obtain ⟨_, first, _⟩ := power_run_thins run (format_nobody machine)
  obtain ⟨people, _, holds⟩ := cut_run_lives first (format_nobody machine)
  have room : ¬Exhausts (.messageAdd phone timestamp direction str) middle.db middle.card := by
    intro exhausts
    rw [Machine.run_of (refused_run holds exhausts finds_)] at accepted
    cases accepted
  obtain ⟨thin, second, thins⟩ := power_run_thins later (call_holds holds room).1
  obtain ⟨text, older, newer, given, shown, shownLater, acknowledged, attempted⟩ :=
    sent_stays holds valid room accepted second (thins.spared number spared)
  rw [thins.acknowledged] at acknowledged
  exact ⟨text, older, newer, given, shown, shownLater, acknowledged,
    attempted.trans (thins.attempted number)⟩

def exampleCutOnce : Machine :=
  (Machine.restart (exampleFullMachine.cut (exampleAdd 10#32) 4) formattedDatabase).2

def exampleKept : Machine :=
  (Machine.restart (exampleCutOnce.run (exampleAdd 11#32).run).2.card formattedDatabase).2

/-- The message behind a full sector is cut in its first transaction, and one more is added. -/
def exampleKeptTrace : List Happening :=
  [.cut (exampleAdd 10#32) (Machine.restart
      (exampleFullMachine.cut (exampleAdd 10#32) 4) formattedDatabase).1,
    .done (exampleAdd 11#32) (exampleCutOnce.run (exampleAdd 11#32).run).1,
    .restart (Machine.restart (exampleCutOnce.run (exampleAdd 11#32).run).2.card
      formattedDatabase).1]

theorem acknowledged_messages_kept_example :
    KeepsMessage exampleFullMachine exampleKept exampleKeptTrace (some exampleText)
      exampleText.val 9#32 true (some exampleText) := by
  have empty := format_within exampleMachine
  have once := empty.call (by decide) (exampleAdd 7#32)
  have twice := once.call (by decide) (exampleAdd 8#32)
  have full : exampleFullMachine.Within 6 := twice.call (by decide) (exampleAdd 9#32)
  have whole : ¬exampleFullMachine.SplitsChat (exampleAdd 10#32) 4 := fun split =>
    absurd split.2.1 (by decide)
  have cut : exampleCutOnce.Within 8 :=
    full.cut (by decide) whole (.none _) formattedDatabase
  have fits : ∀ {machine : Machine} {size : Nat}, machine.Within size →
      size < totalMessageSectorSize → ∀ call, machine.FindsSector call :=
    fun within few call exhausts => absurd exhausts (within.room few call)
  obtain ⟨first, _⟩ := Machine.call_sound exampleMachine.format_sound (exampleAdd 7#32)
    (empty.room (by decide) _)
  obtain ⟨second, _⟩ := Machine.call_sound first (exampleAdd 8#32) (once.room (by decide) _)
  have accepted := (Machine.call_sound second (exampleAdd 9#32) (twice.room (by decide) _)).2
    (.status .strgOk) rfl
  have before : PowerRun Machine.FindsSector (fun machine call count =>
      ¬machine.SplitsChat call count) exampleMachine.format _
      (exampleChatMachine.run (exampleAdd 8#32).run).2 :=
    .done (exampleAdd 7#32) (fits empty (by decide) _)
      (.done (exampleAdd 8#32) (fits once (by decide) _) (.stop _))
  have later : PowerRun Machine.FindsSector (fun machine call count =>
      ¬machine.SplitsChat call count) exampleFullMachine exampleKeptTrace exampleKept := by
    unfold exampleKeptTrace exampleKept
    apply PowerRun.cut (exampleAdd 10#32) 4 (fits full (by decide) _) whole (.none _)
      formattedDatabase
    apply PowerRun.done (exampleAdd 11#32) (fits cut (by decide) _)
    exact .restart formattedDatabase (.stop _)
  apply acknowledged_messages_kept before example_valid (fits twice (by decide) _) accepted
  · exact later
  · intro happening member
    simp only [exampleKeptTrace, List.mem_cons, List.not_mem_nil, or_false] at member
    rcases member with rfl | rfl | rfl
    · exact id
    · exact And.left
    · exact id

/-- A full sector with two sectors behind it. It points to `linked`; `lost` points back to it
as well, and to nothing. -/
structure TwoHeads (view : View) (slot full lost linked : Nat) (text : Message) : Prop where
  contacts : ∀ other, view.contact other ≠ none ↔ other = slot
  bound : slot < hashTableEntries
  order : linked < lost ∧ lost < full ∧ full + 1 = totalMessageSectorSize
  fullSector : ∃ mSector, view.sector full = some mSector ∧
    mSector.header.prev.toNat = uint16Max ∧ mSector.header.next.toNat = linked ∧
    mSector.header.contactIndex.toNat = slot ∧ 0 < mSector.header.msgCount.toNat ∧
    mSector.header.msgCount.toNat ≤ messageSectorCapacity
  lostSector : view.sector lost = some ((createNewMessageSector slot full).push text)
  linkedSector : ∃ message,
    view.sector linked = some ((createNewMessageSector slot full).push message)
  others : ∀ index, view.sector index ≠ none → index = full ∨ index = lost ∨ index = linked

section TwoHeads

variable {view : View} {slot full lost linked : Nat} {text : Message}

theorem TwoHeads.owner (heads : TwoHeads view slot full lost linked text) {index : Nat}
    {mSector : MessageSector} (found : view.sector index = some mSector) :
    mSector.header.contactIndex.toNat = slot := by
  obtain ⟨mFull, fullFound, _, _, owner, _⟩ := heads.fullSector
  obtain ⟨message, linkedFound⟩ := heads.linkedSector
  rcases heads.others index (by rw [found]; exact Option.some_ne_none _) with rfl | rfl | rfl
  · rw [fullFound, Option.some.injEq] at found
    rwa [← found]
  · rw [heads.lostSector, Option.some.injEq] at found
    rw [← found]
    exact grown_owner heads.bound
  · rw [linkedFound, Option.some.injEq] at found
    rw [← found]
    exact grown_owner heads.bound

/-- The chain behind the sector that is not linked. -/
def lostChain (slot full lost : Nat) : Nat → List Nat :=
  Function.update (fun _ => []) slot [lost, full]

theorem TwoHeads.chats (heads : TwoHeads view slot full lost linked text) :
    ChatsHold view (lostChain slot full lost) := by
  obtain ⟨mFull, fullFound, prev, _, _, some_, most⟩ := heads.fullSector
  have order := heads.order
  have size : totalMessageSectorSize = 28586 := rfl
  have chain : ∀ {other index : Nat}, index ∈ lostChain slot full lost other →
      other = slot ∧ (index = lost ∨ index = full) := by
    intro other index member
    by_cases here : other = slot
    · rw [here, lostChain, Function.update_self] at member
      exact ⟨here, by simpa using member⟩
    · rw [lostChain, Function.update_of_ne here] at member
      cases member
  refine ⟨fun other => ?_, fun other index member mSector found => ?_,
    fun other index member mSector found => ?_, fun other => ?_, fun other given => ?_⟩
  · by_cases here : other = slot
    · rw [headOf, here, lostChain, Function.update_self]
      refine ⟨rfl, _, heads.lostSector, ?_, mFull, fullFound, prev⟩
      rw [(push_links _ _).1, createNewMessageSector, BitVec.toNat_ofNat]
      omega
    · rw [headOf, lostChain, Function.update_of_ne here]
      rfl
  · rw [(chain member).1]
    exact heads.owner found
  · rcases (chain member).2 with rfl | rfl
    · rw [heads.lostSector, Option.some.injEq] at found
      rw [← found, push_count (new_sector_room _ _)]
      simp [createNewMessageSector]
    · rw [fullFound, Option.some.injEq] at found
      rw [← found]
      exact ⟨some_, most⟩
  · by_cases here : other = slot
    · rw [here, lostChain, Function.update_self]
      simp only [List.nodup_cons, List.mem_singleton, List.not_mem_nil, not_false_eq_true,
        List.nodup_nil, and_true]
      omega
    · rw [lostChain, Function.update_of_ne here]
      exact List.nodup_nil
  · obtain ⟨index, rest, whole⟩ := List.exists_cons_of_ne_nil given
    exact (heads.contacts other).mpr (chain (by rw [whole]; exact List.mem_cons_self)).1

/-- The mount takes the sector that is not linked for the newest one: its number is larger. -/
theorem TwoHeads.mountable (heads : TwoHeads view slot full lost linked text) :
    Mountable view (lostChain slot full lost) := by
  obtain ⟨mFull, fullFound, _, next, _⟩ := heads.fullSector
  obtain ⟨message, linkedFound⟩ := heads.linkedSector
  have order := heads.order
  have size : totalMessageSectorSize = 28586 := rfl
  refine ⟨fun first second left right leftStored rightStored _ => ?_, heads.chats,
    fun index mSector found => ?_, fun other => ?_⟩
  · rw [(heads.contacts first).mp (by rw [leftStored]; exact Option.some_ne_none _),
      (heads.contacts second).mp (by rw [rightStored]; exact Option.some_ne_none _)]
  · exact (heads.contacts _).mpr (heads.owner found)
  · by_cases here : other = slot
    · rw [headOf, here, lostChain, Function.update_self, List.headD_cons]
      refine latest_head_last (by omega) heads.lostSector ?_ (heads.owner heads.lostSector) ?_
      · rw [(push_links _ _).2.1, createNewMessageSector, BitVec.toNat_ofNat]
        by_contra given
        have end_ := heads.others _ given
        simp at end_
        omega
      · intro above mSector later found ahead
        rcases heads.others above (by rw [found]; exact Option.some_ne_none _) with
          rfl | rfl | rfl
        · rw [fullFound, Option.some.injEq] at found
          rw [← found, next, linkedFound] at ahead
          cases ahead
        · exact absurd later (lt_irrefl _)
        · omega
    · rw [headOf, lostChain, Function.update_of_ne here]
      apply latest_head_none
      intro index mSector found _ owner
      exact here (owner.symm.trans (heads.owner found))

theorem TwoHeads.newest (heads : TwoHeads view slot full lost linked text) :
    ∃ older, chatOf view (lostChain slot full lost) slot = text :: older := by
  refine ⟨chatMessages view.sector [full], ?_⟩
  rw [chatOf, lostChain, Function.update_self, chat_messages_cons heads.lostSector,
    new_sector_newest]
  rfl

/-- After the cut the chat grows again, by a sector with a smaller number than the lost one. -/
theorem linked_two_heads {machine : Machine} {chain : Nat → List Nat} {listing : Listing}
    {number : List Byte} {messages : List Message}
    (fills : ChatFills machine view chain listing number slot (totalMessageSectorSize - 1) messages)
    {mSector : MessageSector} (found : view.sector (totalMessageSectorSize - 1) = some mSector)
    (free : linked < totalMessageSectorSize - 2) {later : View} (message : Message)
    (contact : later.contact = view.contact)
    (sector : later.sector = ((view.grown slot (totalMessageSectorSize - 1)
      (totalMessageSectorSize - 2) text).linkedTo slot (totalMessageSectorSize - 1) linked mSector
        message).sector) :
    TwoHeads later slot (totalMessageSectorSize - 1) (totalMessageSectorSize - 2) linked text := by
  obtain ⟨identity, stored, _⟩ := fills.contact
  have chats := fills.mounted.core.chats
  have whole : chain slot = [totalMessageSectorSize - 1] := by
    rw [fills.whole]
    rfl
  have links := chats.linked slot
  have counted := chats.counted slot
  have owned := chats.owned slot
  rw [whole] at links counted owned
  obtain ⟨_, known, knownFound, prev⟩ := links
  obtain rfl : known = mSector := Option.some_injective _ (knownFound.symm.trans found)
  have size : totalMessageSectorSize = 28586 := rfl
  rw [size] at free found counted owned whole
  have sectorOther : ∀ index, index ≠ 28585 → index ≠ 28584 → index ≠ linked →
      later.sector index = view.sector index := by
    intro index notFull notLost notLinked
    rw [sector, View.linkedTo, set_sector_other _ _ (by omega), View.grown,
      set_sector_other _ _ notLinked, View.grown, set_sector_other _ _ (by omega)]
  refine ⟨fun other => ⟨fun given => ?_, ?_⟩, fills.mounted.core.contact_bound stored, by omega,
    ⟨known.pointTo linked, ?_, prev, ?_, ?_, ?_⟩, ?_, ⟨message, ?_⟩, fun index given => ?_⟩
  · rw [contact] at given
    obtain ⟨otherIdentity, otherStored⟩ := Option.ne_none_iff_exists'.mp given
    exact fills.only other otherIdentity otherStored
  · rintro rfl
    rw [contact, stored]
    exact Option.some_ne_none _
  · rw [sector]
    exact set_sector_self _ _ _
  · rw [MessageSector.pointTo, BitVec.toNat_ofNat]
    omega
  · exact owned 28585 List.mem_cons_self known found
  · exact counted 28585 List.mem_cons_self known found
  · rw [sector, View.linkedTo, set_sector_other _ _ (by omega), View.grown,
      set_sector_other _ _ (by omega)]
    exact set_sector_self _ _ _
  · rw [sector, View.linkedTo, set_sector_other _ _ (by omega)]
    exact set_sector_self _ _ _
  · by_contra none_
    rw [not_or, not_or, size] at none_
    rw [sectorOther index (by omega) (by omega) none_.2.2] at given
    obtain ⟨mOther, otherFound⟩ := Option.ne_none_iff_exists'.mp given
    have member := fills.tidy.covered index mOther otherFound
    have owner := chats.contacts _ (List.ne_nil_of_mem member)
    obtain ⟨otherIdentity, otherStored⟩ := Option.ne_none_iff_exists'.mp owner
    rw [fills.only _ otherIdentity otherStored, whole, List.mem_singleton] at member
    exact none_.1 member

end TwoHeads

/-- The fourth message of a chat is cut between its two transactions. -/
def exampleLost : Machine :=
  (Machine.restart (exampleFullMachine.cut (exampleAdd 10#32) 6) formattedDatabase).2

/-- The fifth message is accepted. -/
theorem example_lost_grows :
    ¬Exhausts (exampleAdd 11#32) exampleLost.db exampleLost.card ∧
    (exampleLost.run (exampleAdd 11#32).run).1 = .status .strgOk ∧
    ∃ later chain listing slot identity linked,
      Mounted (exampleLost.run (exampleAdd 11#32).run).2.db
        (exampleLost.run (exampleAdd 11#32).run).2.card later chain listing ∧
      later.contact slot = some identity ∧ identity.phone = exampleText.val ∧
      TwoHeads later slot (totalMessageSectorSize - 1) (totalMessageSectorSize - 2) linked
        (exampleMessage 10#32) := by
  obtain ⟨view, chain, listing, slot, fills⟩ := example_full_fills
  obtain ⟨older, mSector, rolls⟩ := fills.rolls_over (by decide) rfl
  have size : totalMessageSectorSize = 28586 := rfl
  obtain ⟨final, recovers, holds⟩ := @unlinked_cut _ _ _ _ fills.mounted fills.tidy
    (some exampleText) 10#32 true 6 _ _ _ _ _ _ rolls example_valid (by decide) exampleText
    (by decide) (by decide)
  have mountable := unlinked_mountable fills.mounted rolls fills.tidy (exampleMessage 10#32)
  unfold grownChain at mountable
  rw [if_neg (by omega)] at mountable
  obtain ⟨next, cutListing, started, _, remounted, _⟩ :=
    restart_spec recovers holds mountable (.none _) formattedDatabase
  have mounted : Mounted next.db next.card (view.grown slot (totalMessageSectorSize - 1)
      (totalMessageSectorSize - 2) (exampleMessage 10#32)) chain cutListing := remounted
  have lost : exampleLost = next := congrArg Prod.snd started
  rw [lost]
  obtain ⟨identity, stored, isNumber⟩ := fills.contact
  obtain ⟨hashSlot, occupied, rfl, _⟩ := mounted.core.slot_of stored
  have room : next.db.messageAllocator.freeStack ≠ [] := by
    have unused : view.sector 0 = none := by
      have top := (fills.mounted.core.messageFree.mem 0).mp (by
        rw [fills.stack, List.mem_reverse, List.mem_range]
        decide)
      exact not_not.mp top.2
    have member := (mounted.core.messageFree.mem 0).mpr ⟨by decide, by
      rw [grown_sector_other view _ (by decide), unused]
      exact not_not.mpr rfl⟩
    exact List.ne_nil_of_mem member
  obtain ⟨last, log, later, laterChain, added⟩ := @message_add_known _ _ _ _ _ _ _ mounted occupied
    stored (fun _ => room) (some exampleText) (some exampleText) 11#32 true exampleText
    (by rw [isNumber]; exact example_valid) rfl (by decide)
  have run : next.run (exampleAdd 11#32).run = (.status .strgOk, ⟨last, applyWrites log next.card⟩) :=
    added.machine_run
  obtain ⟨sectors, _, growth⟩ := added.growth
  have kept : (view.grown (next.db.htable.htable hashSlot).sector (totalMessageSectorSize - 1)
      (totalMessageSectorSize - 2) (exampleMessage 10#32)).sector (totalMessageSectorSize - 1) =
      some mSector := by
    rw [grown_sector_other view _ (by decide)]
    exact rolls.found
  have contact : later.contact = view.contact := by
    rw [added.contact]
    exact set_contact_same stored
  rw [run]
  refine ⟨fun exhausts => room exhausts.2, rfl, later, laterChain, cutListing,
    (next.db.htable.htable hashSlot).sector, identity, ?_⟩
  cases growth with
  | started index none_ =>
      rw [rolls.whole] at none_
      cases none_
  | appended newest _ mOther whole otherFound space =>
      obtain ⟨rfl, _⟩ := List.cons_eq_cons.mp (rolls.whole.symm.trans whole)
      obtain rfl : mOther = mSector := Option.some_injective _ (otherFound.symm.trans kept)
      exact absurd rolls.full (Nat.not_le.mpr space)
  | grown newest _ mOther taken whole otherFound full stack _ is =>
      obtain ⟨rfl, _⟩ := List.cons_eq_cons.mp (rolls.whole.symm.trans whole)
      obtain rfl : mOther = mSector := Option.some_injective _ (otherFound.symm.trans kept)
      obtain ⟨inside, unused⟩ := mounted.core.messageFree.top stack
      have notFull : taken ≠ totalMessageSectorSize - 1 := by
        rintro rfl
        exact unused (by rw [kept]; exact Option.some_ne_none _)
      have notLost : taken ≠ totalMessageSectorSize - 2 := by
        rintro rfl
        exact unused (by rw [grown_sector_next]; exact Option.some_ne_none _)
      refine ⟨taken, added.mounted, by rw [contact]; exact stored, isNumber, ?_⟩
      exact linked_two_heads fills rolls.found (by omega) _ contact is

/-- Behind the next start-up the chat begins with the message that was cut. -/
theorem example_lost_shows :
    ∃ older, (Machine.restart (exampleLost.run (exampleAdd 11#32).run).2.card
      formattedDatabase).2.ShowsChat (some exampleText) (exampleMessage 10#32 :: older) := by
  obtain ⟨_, _, later, chain, listing, slot, identity, linked, mounted, stored, isNumber, heads⟩ :=
    example_lost_grows
  obtain ⟨rebooted, newListing, run, _, remounted, _⟩ := restart_spec
    (Or.inl ⟨mounted.core.idle, rfl⟩) ⟨_, mounted.core.holds⟩ heads.mountable (.none _)
    formattedDatabase
  obtain ⟨older, chat⟩ := heads.newest
  rw [run]
  have shown := mounted_shows_chat remounted
    ((mem_people remounted ⟨identity, exampleMessage 10#32 :: older⟩).mpr ⟨slot, stored, chat⟩)
    (by rw [isNumber]; exact example_valid)
  exact ⟨older, shown⟩

theorem shows_chat_newest {machine : Machine} {phone : Option CString} {first second : Message}
    {older behind : List Message} (left : machine.ShowsChat phone (first :: older))
    (right : machine.ShowsChat phone (second :: behind)) : first = second := by
  have same := (left 0 1).symm.trans (right 0 1)
  unfold chatReply at same
  simpa using same

/-- A cut between the two transactions that make a chat grow lets a later start-up forget a message
that was acknowledged after it. -/
theorem unlinked_sector_hides_message :
    ¬KeepsAcknowledged (fun machine call => ¬Exhausts call machine.db machine.card)
      fun _ _ _ => True := by
  intro keeps
  have empty := format_within exampleMachine
  have once := empty.call (by decide) (exampleAdd 7#32)
  have twice := once.call (by decide) (exampleAdd 8#32)
  have full := twice.call (by decide) (exampleAdd 9#32)
  obtain ⟨room, accepted, _⟩ := example_lost_grows
  have before : PowerRun (fun machine call => ¬Exhausts call machine.db machine.card)
      (fun _ _ _ => True) exampleMachine.format _ exampleLost :=
    .done (exampleAdd 7#32) (empty.room (by decide) _)
      (.done (exampleAdd 8#32) (once.room (by decide) _)
        (.done (exampleAdd 9#32) (twice.room (by decide) _)
          (.cut (exampleAdd 10#32) 6 (full.room (by decide) _) trivial (.none _) formattedDatabase
            (.stop _))))
  obtain ⟨text, older, newer, given, _, shown, _, attempted⟩ := keeps before example_valid room
    accepted (.restart formattedDatabase (.stop _)) (by
      intro happening member
      rw [List.mem_singleton.mp member]
      exact id)
  obtain rfl := Option.some.inj given
  have none_ : newer = [] := List.reverse_eq_nil_iff.mp (List.sublist_nil.mp attempted)
  rw [none_] at shown
  obtain ⟨behind, lost⟩ := example_lost_shows
  have same := shows_chat_newest shown lost
  exact absurd (congrArg Message.timestampLo same) (by decide)

end SdDatabase
