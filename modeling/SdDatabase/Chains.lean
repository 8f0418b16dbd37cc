import SdDatabase.Chat

/-!
# The chats of all contacts

Every contact slot has its chain of message sectors. The chains are apart since
each sector names its contact; a view is tidy when also the forward links are
right and no sector in use is off the chains.
-/

namespace SdDatabase

open Bytes Device

set_option autoImplicit false

/-- Newest sector of every contact slot. -/
def headOf (chain : Nat → List Nat) (slot : Nat) : Nat := (chain slot).headD uint16Max

structure ChatsHold (view : View) (chain : Nat → List Nat) : Prop where
  linked : ∀ slot, PrevChain view.sector (headOf chain slot) (chain slot)
  owned : ∀ slot, ∀ index ∈ chain slot, ∀ mSector, view.sector index = some mSector →
    mSector.header.contactIndex.toNat = slot
  counted : ∀ slot, Counted view.sector (chain slot)
  separate : ∀ slot, (chain slot).Nodup
  contacts : ∀ slot, chain slot ≠ [] → view.contact slot ≠ none

/-- The forward links of a chain whose newest sector points to `next`. -/
def NextChain (sector : Nat → Option MessageSector) : Nat → List Nat → Prop
  | _, [] => True
  | next, index :: rest =>
      (∃ mSector, sector index = some mSector ∧ mSector.header.next.toNat = next) ∧
        NextChain sector index rest

structure Tidy (view : View) (chain : Nat → List Nat) : Prop where
  nexts : ∀ slot, NextChain view.sector uint16Max (chain slot)
  covered : ∀ index mSector, view.sector index = some mSector →
    index ∈ chain mSector.header.contactIndex.toNat

/-- The messages of a contact slot, newest first. -/
def chatOf (view : View) (chain : Nat → List Nat) (slot : Nat) : List Message :=
  chatMessages view.sector (chain slot)

section Chains

variable {view : View} {chain : Nat → List Nat}

theorem head_of_update (slot : Nat) (sectors : List Nat) :
    headOf (Function.update chain slot sectors) =
      Function.update (headOf chain) slot (sectors.headD uint16Max) := by
  funext other
  unfold headOf
  by_cases same : other = slot
  · rw [same, Function.update_self, Function.update_self]
  · rw [Function.update_of_ne same, Function.update_of_ne same]

theorem ChatsHold.member (chats : ChatsHold view chain) {slot index : Nat}
    (member : index ∈ chain slot) : ∃ mSector, view.sector index = some mSector :=
  Option.ne_none_iff_exists'.mp ((chats.linked slot).stored index member)

/-- A sector is on the chain of one contact only. -/
theorem ChatsHold.apart (chats : ChatsHold view chain) {first second index : Nat}
    (inFirst : index ∈ chain first) (inSecond : index ∈ chain second) : first = second := by
  obtain ⟨mSector, found⟩ := chats.member inFirst
  rw [← chats.owned first index inFirst mSector found,
    chats.owned second index inSecond mSector found]

theorem ChatsHold.short (chats : ChatsHold view chain)
    (bound : ∀ index, view.sector index ≠ none → index < totalMessageSectorSize) (slot : Nat) :
    (chain slot).length ≤ totalMessageSectorSize := by
  have inside : chain slot ⊆ List.range totalMessageSectorSize := by
    intro index member
    exact List.mem_range.mpr (bound index ((chats.linked slot).stored index member))
  have length := List.Subperm.length_le (List.subperm_of_subset (chats.separate slot) inside)
  rwa [List.length_range] at length

theorem ChatsHold.head_member (chats : ChatsHold view chain) {slot : Nat}
    (bound : ∀ index, view.sector index ≠ none → index < totalMessageSectorSize) :
    headOf chain slot = uint16Max ↔ chain slot = [] := by
  unfold headOf
  cases whole : chain slot with
  | nil => simp
  | cons index rest =>
      have inside := bound index
        ((chats.linked slot).stored index (by rw [whole]; simp))
      simp at inside
      simp
      omega

/-- The messages of a chain depend on its sectors only. -/
theorem chat_messages_congr {sector other : Nat → Option MessageSector} {sectors : List Nat}
    (same : ∀ index ∈ sectors, other index = sector index) :
    chatMessages other sectors = chatMessages sector sectors := by
  unfold chatMessages
  rw [List.flatMap_congr]
  intro index member
  rw [same index member]

theorem NextChain.congr {sector other : Nat → Option MessageSector} {next : Nat}
    {sectors : List Nat} (links : NextChain sector next sectors)
    (same : ∀ index ∈ sectors, other index = sector index) : NextChain other next sectors := by
  induction sectors generalizing next with
  | nil => trivial
  | cons index rest ih =>
      obtain ⟨⟨mSector, found, points⟩, older⟩ := links
      refine ⟨⟨mSector, by rw [same index (by simp)]; exact found, points⟩, ?_⟩
      exact ih older fun other_ member => same other_ (by simp [member])

end Chains

section Changes

variable {view later : View} {chain : Nat → List Nat} {slot : Nat} {sectors : List Nat}

/-- The chat of one contact is replaced; the other chats keep their sectors. -/
structure ChatChange (view later : View) (chain : Nat → List Nat) (slot : Nat)
    (sectors : List Nat) : Prop where
  contact : later.contact = view.contact
  others : ∀ other, other ≠ slot → ∀ index ∈ chain other,
    later.sector index = view.sector index
  linked : PrevChain later.sector (sectors.headD uint16Max) sectors
  owned : ∀ index ∈ sectors, ∀ mSector, later.sector index = some mSector →
    mSector.header.contactIndex.toNat = slot
  counted : Counted later.sector sectors
  separate : sectors.Nodup
  given : sectors ≠ [] → view.contact slot ≠ none

theorem ChatsHold.change (chats : ChatsHold view chain)
    (change : ChatChange view later chain slot sectors) :
    ChatsHold later (Function.update chain slot sectors) where
  linked other := by
    rw [head_of_update]
    by_cases same : other = slot
    · rw [same, Function.update_self, Function.update_self]
      exact change.linked
    · rw [Function.update_of_ne same, Function.update_of_ne same]
      exact (chats.linked other).congr (change.others other same)
  owned other index member mSector found := by
    by_cases same : other = slot
    · rw [same, Function.update_self] at member
      rw [same]
      exact change.owned index member mSector found
    · rw [Function.update_of_ne same] at member
      rw [change.others other same index member] at found
      exact chats.owned other index member mSector found
  counted other := by
    intro index member mSector found
    by_cases same : other = slot
    · rw [same, Function.update_self] at member
      exact change.counted index member mSector found
    · rw [Function.update_of_ne same] at member
      rw [change.others other same index member] at found
      exact chats.counted other index member mSector found
  separate other := by
    by_cases same : other = slot
    · rw [same, Function.update_self]
      exact change.separate
    · rw [Function.update_of_ne same]
      exact chats.separate other
  contacts other some_ := by
    rw [change.contact]
    by_cases same : other = slot
    · rw [same, Function.update_self] at some_
      rw [same]
      exact change.given some_
    · rw [Function.update_of_ne same] at some_
      exact chats.contacts other some_

theorem chat_of_change_other (change : ChatChange view later chain slot sectors) {other : Nat}
    (different : other ≠ slot) :
    chatOf later (Function.update chain slot sectors) other = chatOf view chain other := by
  unfold chatOf
  rw [Function.update_of_ne different]
  exact chat_messages_congr (change.others other different)

theorem chat_of_change_self :
    chatOf later (Function.update chain slot sectors) slot =
      chatMessages later.sector sectors := by
  rw [chatOf, Function.update_self]

theorem Tidy.change (tidy : Tidy view chain)
    (change : ChatChange view later chain slot sectors)
    (links : NextChain later.sector uint16Max sectors)
    (kept : ∀ index mSector, later.sector index = some mSector →
      mSector.header.contactIndex.toNat ≠ slot → view.sector index = some mSector)
    (mine : ∀ index mSector, later.sector index = some mSector →
      mSector.header.contactIndex.toNat = slot → index ∈ sectors) :
    Tidy later (Function.update chain slot sectors) where
  nexts other := by
    by_cases same : other = slot
    · rw [same, Function.update_self]
      exact links
    · rw [Function.update_of_ne same]
      exact (tidy.nexts other).congr (change.others other same)
  covered index mSector found := by
    by_cases same : mSector.header.contactIndex.toNat = slot
    · rw [same, Function.update_self]
      exact mine index mSector found same
    · rw [Function.update_of_ne same]
      exact tidy.covered index mSector (kept index mSector found same)

end Changes

section Push

variable {mSector : MessageSector} (room : mSector.header.msgCount.toNat < messageSectorCapacity)
  (message : Message)

include room

theorem push_count :
    (mSector.push message).header.msgCount.toNat = mSector.header.msgCount.toNat + 1 := by
  have capacity : messageSectorCapacity = 3 := by simp
  simp only [MessageSector.push, BitVec.toNat_add, BitVec.toNat_ofNat]
  omega

theorem push_newest : (mSector.push message).newest = message :: mSector.newest := by
  have capacity : messageSectorCapacity = 3 := by simp
  unfold MessageSector.newest
  rw [push_count room, newest_first_succ]
  congr 1
  · exact array_get_set_self _ (by omega) _ _
  · unfold newestFirst
    apply List.map_congr_left
    intro slot member
    have below : slot < mSector.header.msgCount.toNat := by simpa using member
    exact array_get_set_other _ (by omega) _ _

end Push

@[simp] theorem push_links (mSector : MessageSector) (message : Message) :
    (mSector.push message).header.prev = mSector.header.prev ∧
      (mSector.push message).header.next = mSector.header.next ∧
      (mSector.push message).header.contactIndex = mSector.header.contactIndex := ⟨rfl, rfl, rfl⟩

theorem new_sector_room (contactIndex prev : Nat) :
    (createNewMessageSector contactIndex prev).header.msgCount.toNat < messageSectorCapacity := by
  simp [createNewMessageSector]

theorem new_sector_newest (contactIndex prev : Nat) (message : Message) :
    ((createNewMessageSector contactIndex prev).push message).newest = [message] := by
  rw [push_newest (new_sector_room contactIndex prev)]
  rfl

theorem point_to_newest (mSector : MessageSector) (next : Nat) :
    (mSector.pointTo next).newest = mSector.newest := rfl

theorem chat_messages_cons {sector : Nat → Option MessageSector} {index : Nat}
    {mSector : MessageSector} (found : sector index = some mSector) (rest : List Nat) :
    chatMessages sector (index :: rest) = mSector.newest ++ chatMessages sector rest := by
  simp [chatMessages, found]

section Program

variable {view : View} {chain : Nat → List Nat} {slot : Nat} (chats : ChatsHold view chain)

include chats

theorem other_chain {other index : Nat} (mine : index ∈ chain slot) (different : other ≠ slot) :
    index ∉ chain other :=
  fun member => different (chats.apart member mine)

theorem append_change {newest : Nat} {older : List Nat} (whole : chain slot = newest :: older)
    {mSector : MessageSector} (found : view.sector newest = some mSector)
    (room : mSector.header.msgCount.toNat < messageSectorCapacity) (message : Message) :
    ChatChange view (view.setSector newest (some (mSector.push message))) chain slot
      (newest :: older) := by
  have mine : newest ∈ chain slot := by
    rw [whole]
    simp
  have nodup := chats.separate slot
  rw [whole] at nodup
  have notOlder := (List.nodup_cons.mp nodup).1
  have olderSame : ∀ index ∈ older,
      (view.setSector newest (some (mSector.push message))).sector index = view.sector index :=
    fun index member => set_sector_other _ _ fun same => notOlder (by rwa [← same])
  have linked := chats.linked slot
  have counted := chats.counted slot
  rw [whole] at linked counted
  obtain ⟨_, stored, storedFound, olderLinked⟩ := linked
  obtain rfl : stored = mSector := Option.some_injective _ (storedFound.symm.trans found)
  refine ⟨rfl, ?_, ?_, ?_, ?_, nodup, fun _ => chats.contacts slot (by rw [whole]; simp)⟩
  · intro other different index member
    exact set_sector_other _ _ fun same =>
      other_chain chats mine different (by rwa [← same])
  · exact ⟨rfl, _, set_sector_self _ _ _, olderLinked.congr olderSame⟩
  · intro index member other stored
    rcases List.mem_cons.mp member with rfl | member
    · rw [set_sector_self, Option.some.injEq] at stored
      have owner := chats.owned slot index mine _ found
      rw [← stored]
      exact owner
    · rw [olderSame index member] at stored
      exact chats.owned slot index (by rw [whole]; simp [member]) other stored
  · intro index member other stored
    rcases List.mem_cons.mp member with rfl | member
    · rw [set_sector_self, Option.some.injEq] at stored
      rw [← stored, push_count room]
      omega
    · rw [olderSame index member] at stored
      exact counted index (by simp [member]) other stored

theorem append_messages {newest : Nat} {older : List Nat} (whole : chain slot = newest :: older)
    {mSector : MessageSector} (found : view.sector newest = some mSector)
    (room : mSector.header.msgCount.toNat < messageSectorCapacity) (message : Message) :
    chatMessages (view.setSector newest (some (mSector.push message))).sector (newest :: older) =
      message :: chatOf view chain slot := by
  have nodup := chats.separate slot
  rw [whole] at nodup
  have notOlder := (List.nodup_cons.mp nodup).1
  rw [chat_messages_cons (set_sector_self _ _ _), push_newest room, chatOf, whole,
    chat_messages_cons found, List.cons_append]
  congr 2
  exact chat_messages_congr fun index member =>
    set_sector_other _ _ fun same => notOlder (by rwa [← same])

theorem append_tidy (tidy : Tidy view chain) {newest : Nat} {older : List Nat}
    (whole : chain slot = newest :: older) {mSector : MessageSector}
    (found : view.sector newest = some mSector)
    (room : mSector.header.msgCount.toNat < messageSectorCapacity) (message : Message) :
    Tidy (view.setSector newest (some (mSector.push message)))
      (Function.update chain slot (newest :: older)) := by
  have mine : newest ∈ chain slot := by
    rw [whole]
    simp
  have nodup := chats.separate slot
  rw [whole] at nodup
  have notOlder := (List.nodup_cons.mp nodup).1
  have links := tidy.nexts slot
  rw [whole] at links
  obtain ⟨⟨stored, storedFound, points⟩, olderLinks⟩ := links
  obtain rfl : stored = mSector := Option.some_injective _ (storedFound.symm.trans found)
  refine tidy.change (append_change chats whole found room message) ?_ ?_ ?_
  · refine ⟨⟨_, set_sector_self _ _ _, points⟩, olderLinks.congr fun index member => ?_⟩
    exact set_sector_other _ _ fun same => notOlder (by rwa [← same])
  · intro index other there different
    by_cases same : index = newest
    · rw [same, set_sector_self, Option.some.injEq] at there
      rw [← there] at different
      exact absurd (chats.owned slot newest mine _ found) different
    · rwa [set_sector_other _ _ same] at there
  · intro index other there owner
    by_cases same : index = newest
    · rw [same]
      simp
    · rw [set_sector_other _ _ same] at there
      have covered := tidy.covered index other there
      rwa [owner, whole] at covered

/-- The first message of a chat, in a sector that was free. -/
theorem start_change (bound : slot < hashTableEntries) (given : view.contact slot ≠ none)
    {index : Nat} (free : view.sector index = none) (message : Message) :
    ChatChange view
      (view.setSector index (some ((createNewMessageSector slot uint16Max).push message)))
      chain slot [index] where
  contact := rfl
  others other _ position member := set_sector_other _ _ fun same =>
    (chats.linked other).stored position member (by rw [same, free])
  linked := ⟨rfl, _, set_sector_self _ _ _, by
    rw [(push_links _ _).1]
    rfl⟩
  owned position member mSector found := by
    obtain rfl := List.mem_singleton.mp member
    rw [set_sector_self, Option.some.injEq] at found
    rw [← found, (push_links _ _).2.2, createNewMessageSector, BitVec.toNat_ofNat]
    simp at bound
    omega
  counted position member mSector found := by
    obtain rfl := List.mem_singleton.mp member
    rw [set_sector_self, Option.some.injEq] at found
    rw [← found, push_count (new_sector_room _ _)]
    simp [createNewMessageSector]
  separate := List.nodup_singleton _
  given _ := given

omit chats in
theorem start_messages {index : Nat} (none_ : chain slot = []) (message : Message) :
    chatMessages
      (view.setSector index (some ((createNewMessageSector slot uint16Max).push message))).sector
      [index] = message :: chatOf view chain slot := by
  rw [chat_messages_cons (set_sector_self _ _ _), new_sector_newest, chatOf, none_]
  rfl

theorem start_tidy (tidy : Tidy view chain) (bound : slot < hashTableEntries)
    (given : view.contact slot ≠ none) (none_ : chain slot = []) {index : Nat}
    (free : view.sector index = none) (message : Message) :
    Tidy (view.setSector index (some ((createNewMessageSector slot uint16Max).push message)))
      (Function.update chain slot [index]) := by
  have change := start_change chats bound given free message
  refine tidy.change change ⟨⟨_, set_sector_self _ _ _, rfl⟩, trivial⟩ ?_ ?_
  · intro position mSector found different
    by_cases same : position = index
    · rw [same, set_sector_self, Option.some.injEq] at found
      refine absurd (change.owned index (by simp) mSector ?_) different
      rw [set_sector_self, found]
    · rwa [set_sector_other _ _ same] at found
  · intro position mSector found owner
    by_cases same : position = index
    · simp [same]
    · rw [set_sector_other _ _ same] at found
      have covered := tidy.covered position mSector found
      rw [owner, none_] at covered
      simp at covered

theorem grow_change (bound : slot < hashTableEntries) {newest : Nat} {older : List Nat}
    (whole : chain slot = newest :: older) {mSector : MessageSector}
    (found : view.sector newest = some mSector) (low : newest < 65536) {next : Nat}
    (free : view.sector next = none) (message : Message) {later : View}
    (contact : later.contact = view.contact)
    (added : later.sector next = some ((createNewMessageSector slot newest).push message))
    (linked : later.sector newest = some mSector ∨
      later.sector newest = some (mSector.pointTo next))
    (others : ∀ index, index ≠ next → index ≠ newest → later.sector index = view.sector index) :
    ChatChange view later chain slot (next :: newest :: older) := by
  have mine : newest ∈ chain slot := by
    rw [whole]
    simp
  have nodup := chats.separate slot
  rw [whole] at nodup
  have notOlder := (List.nodup_cons.mp nodup).1
  have stored : ∀ index ∈ chain slot, index ≠ next := by
    rintro index member rfl
    exact (chats.linked slot).stored index member free
  rw [whole] at stored
  have olderSame : ∀ index ∈ older, later.sector index = view.sector index := by
    intro index member
    exact others index (stored index (by simp [member])) fun same =>
      notOlder (by rwa [← same])
  have chainLinked := chats.linked slot
  have counted := chats.counted slot
  rw [whole] at chainLinked counted
  obtain ⟨_, known, knownFound, olderLinked⟩ := chainLinked
  obtain rfl : known = mSector := Option.some_injective _ (knownFound.symm.trans found)
  obtain ⟨kept, keptFound, keptPrev, keptOwner, keptCount⟩ : ∃ kept,
      later.sector newest = some kept ∧ kept.header.prev = known.header.prev ∧
        kept.header.contactIndex = known.header.contactIndex ∧
        kept.header.msgCount = known.header.msgCount := by
    rcases linked with same | pointing
    · exact ⟨known, same, rfl, rfl, rfl⟩
    · exact ⟨_, pointing, rfl, rfl, rfl⟩
  refine ⟨contact, ?_, ?_, ?_, ?_, ?_, fun _ => chats.contacts slot (by rw [whole]; simp)⟩
  · intro other different index member
    refine others index ?_ ?_
    · rintro rfl
      exact (chats.linked other).stored index member free
    · rintro rfl
      exact other_chain chats mine different member
  · refine ⟨rfl, _, added, ?_⟩
    rw [(push_links _ _).1, createNewMessageSector, BitVec.toNat_ofNat]
    refine ⟨by omega, kept, keptFound, ?_⟩
    rw [keptPrev]
    exact olderLinked.congr olderSame
  · intro index member other there
    rcases List.mem_cons.mp member with rfl | member
    · rw [added, Option.some.injEq] at there
      rw [← there, (push_links _ _).2.2, createNewMessageSector, BitVec.toNat_ofNat]
      simp at bound
      omega
    · rcases List.mem_cons.mp member with rfl | member
      · rw [keptFound, Option.some.injEq] at there
        rw [← there, keptOwner]
        exact chats.owned slot index mine known found
      · rw [olderSame index member] at there
        exact chats.owned slot index (by rw [whole]; simp [member]) other there
  · intro index member other there
    rcases List.mem_cons.mp member with rfl | member
    · rw [added, Option.some.injEq] at there
      rw [← there, push_count (new_sector_room _ _)]
      simp [createNewMessageSector]
    · rcases List.mem_cons.mp member with rfl | member
      · rw [keptFound, Option.some.injEq] at there
        rw [← there, keptCount]
        exact counted index (by simp) known found
      · rw [olderSame index member] at there
        exact counted index (by simp [member]) other there
  · refine List.nodup_cons.mpr ⟨?_, nodup⟩
    intro member
    exact stored next member rfl

theorem grow_messages {newest : Nat} {older : List Nat} (whole : chain slot = newest :: older)
    {mSector : MessageSector} (found : view.sector newest = some mSector) {next : Nat}
    (free : view.sector next = none) (message : Message) {later : View}
    (added : later.sector next = some ((createNewMessageSector slot newest).push message))
    (linked : later.sector newest = some mSector ∨
      later.sector newest = some (mSector.pointTo next))
    (others : ∀ index, index ≠ next → index ≠ newest → later.sector index = view.sector index) :
    chatMessages later.sector (next :: newest :: older) = message :: chatOf view chain slot := by
  have nodup := chats.separate slot
  rw [whole] at nodup
  have notOlder := (List.nodup_cons.mp nodup).1
  have olderSame : chatMessages later.sector older = chatMessages view.sector older := by
    refine chat_messages_congr fun index member => others index ?_ ?_
    · rintro rfl
      exact (chats.linked slot).stored index (by rw [whole]; simp [member]) free
    · rintro rfl
      exact notOlder member
  have newestSame : chatMessages later.sector (newest :: older) =
      mSector.newest ++ chatMessages view.sector older := by
    rcases linked with same | pointing
    · rw [chat_messages_cons same, olderSame]
    · rw [chat_messages_cons pointing, point_to_newest, olderSame]
  rw [chat_messages_cons added, new_sector_newest, newestSame, chatOf, whole,
    chat_messages_cons found]
  rfl

theorem grow_tidy (tidy : Tidy view chain) (bound : slot < hashTableEntries) {newest : Nat}
    {older : List Nat} (whole : chain slot = newest :: older) {mSector : MessageSector}
    (found : view.sector newest = some mSector) (low : newest < 65536) {next : Nat}
    (free : view.sector next = none) (nextLow : next < 65536) (message : Message) {later : View}
    (contact : later.contact = view.contact)
    (added : later.sector next = some ((createNewMessageSector slot newest).push message))
    (linked : later.sector newest = some (mSector.pointTo next))
    (others : ∀ index, index ≠ next → index ≠ newest → later.sector index = view.sector index) :
    Tidy later (Function.update chain slot (next :: newest :: older)) := by
  have change := grow_change chats bound whole found low free message contact added
    (Or.inr linked) others
  have nodup := chats.separate slot
  rw [whole] at nodup
  have notOlder := (List.nodup_cons.mp nodup).1
  have links := tidy.nexts slot
  rw [whole] at links
  have known : ∀ index mSector', later.sector index = some mSector' → index = next ∨
      index = newest ∨ view.sector index = some mSector' := by
    intro index other there
    by_cases isNext : index = next
    · exact Or.inl isNext
    · by_cases isNewest : index = newest
      · exact Or.inr (Or.inl isNewest)
      · rw [others index isNext isNewest] at there
        exact Or.inr (Or.inr there)
  refine tidy.change change ?_ ?_ ?_
  · refine ⟨⟨_, added, rfl⟩, ⟨_, linked, ?_⟩, links.2.congr fun index member => ?_⟩
    · simp only [MessageSector.pointTo, BitVec.toNat_ofNat]
      omega
    · refine others index ?_ ?_
      · rintro rfl
        exact (chats.linked slot).stored index (by rw [whole]; simp [member]) free
      · rintro rfl
        exact notOlder member
  · intro index other there different
    rcases known index other there with rfl | rfl | stored
    · exact absurd (change.owned index (by simp) other there) different
    · exact absurd (change.owned index (by simp) other there) different
    · exact stored
  · intro index other there owner
    rcases known index other there with rfl | rfl | stored
    · simp
    · simp
    · have covered := tidy.covered index other stored
      rw [owner, whole] at covered
      simp [List.mem_cons.mp covered]

theorem drop_change (count : Nat) :
    ChatChange view (view.clearSectors ((chain slot).take count)) chain slot
      ((chain slot).drop count) := by
  have nodup := chats.separate slot
  have same : ∀ index, index ∉ (chain slot).take count →
      (view.clearSectors ((chain slot).take count)).sector index = view.sector index :=
    fun index outside => if_neg outside
  have disjoint : ∀ index ∈ (chain slot).drop count, index ∉ (chain slot).take count := by
    intro index behind front
    rw [← List.take_append_drop count (chain slot), List.nodup_append] at nodup
    exact nodup.2.2 index front index behind rfl
  have dropped : ∀ (start : Nat) (sectors : List Nat) (skipped : Nat),
      PrevChain view.sector start sectors →
      PrevChain view.sector ((sectors.drop skipped).headD uint16Max) (sectors.drop skipped) := by
    intro start sectors skipped linked
    induction skipped generalizing start sectors with
    | zero =>
        rw [List.drop_zero]
        cases sectors with
        | nil => exact rfl
        | cons index rest => exact ⟨rfl, linked.2⟩
    | succ skipped ih =>
        cases sectors with
        | nil => exact rfl
        | cons index rest =>
            obtain ⟨_, mSector, _, older⟩ := linked
            exact ih _ rest older
  have inChain : ∀ index ∈ (chain slot).drop count, index ∈ chain slot :=
    fun index member => List.mem_of_mem_drop member
  refine ⟨rfl, ?_, ?_, ?_, ?_, ?_, ?_⟩
  · intro other different index member
    refine same index fun front => ?_
    exact other_chain chats (List.mem_of_mem_take front) different member
  · exact (dropped _ _ count (chats.linked slot)).congr fun index member =>
      same index (disjoint index member)
  · intro index member mSector found
    rw [same index (disjoint index member)] at found
    exact chats.owned slot index (inChain index member) mSector found
  · intro index member mSector found
    rw [same index (disjoint index member)] at found
    exact chats.counted slot index (inChain index member) mSector found
  · exact nodup.sublist (List.drop_sublist _ _)
  · intro some_
    refine chats.contacts slot fun none_ => some_ ?_
    rw [none_, List.drop_nil]

theorem clear_tidy (tidy : Tidy view chain) :
    Tidy (view.clearSectors (chain slot)) (Function.update chain slot []) := by
  have change := @drop_change _ _ slot chats (chain slot).length
  rw [List.take_length, List.drop_length] at change
  have stored : ∀ index mSector, (view.clearSectors (chain slot)).sector index = some mSector →
      index ∉ chain slot ∧ view.sector index = some mSector := by
    intro index mSector found
    simp only [View.clearSectors] at found
    split at found
    · cases found
    · exact ⟨by assumption, found⟩
  refine tidy.change change trivial ?_ ?_
  · exact fun index mSector found _ => (stored index mSector found).2
  · intro index mSector found owner
    obtain ⟨outside, there⟩ := stored index mSector found
    have covered := tidy.covered index mSector there
    rw [owner] at covered
    exact absurd covered outside

end Program

end SdDatabase
