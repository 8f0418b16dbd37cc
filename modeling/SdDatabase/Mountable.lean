import SdDatabase.Remount
import SdDatabase.MessageCalls

/-!
# What a power cut leaves can be mounted

The views that a cut in a call may leave on the card, each with the chains that
the mount finds on it: all sectors of a tidy view, the rest of a chat that was
being removed, and a chat whose new sector is not yet linked.
-/

namespace SdDatabase

open Bytes Device

set_option autoImplicit false

section Mountable

variable {view other : View} {chain : Nat → List Nat}

theorem ChatsHold.congr (chats : ChatsHold view chain) (contact : other.contact = view.contact)
    (sector : other.sector = view.sector) : ChatsHold other chain where
  linked := by
    rw [sector]
    exact chats.linked
  owned := by
    rw [sector]
    exact chats.owned
  counted := by
    rw [sector]
    exact chats.counted
  separate := chats.separate
  contacts := by
    rw [contact]
    exact chats.contacts

theorem latest_head_congr (sector : other.sector = view.sector) (slot count : Nat) :
    latestHead other slot count = latestHead view slot count := by
  induction count with
  | zero => rfl
  | succ count ih =>
      unfold latestHead
      rw [sector, ih]

theorem Mountable.congr (mountable : Mountable view chain) (contact : other.contact = view.contact)
    (sector : other.sector = view.sector) : Mountable other chain where
  distinct := by
    rw [contact]
    exact mountable.distinct
  chats := mountable.chats.congr contact sector
  owners := by
    rw [contact, sector]
    exact mountable.owners
  heads slot := by
    rw [latest_head_congr sector]
    exact mountable.heads slot

theorem mountable_of_links (distinct : Distinct view.contact) (chats : ChatsHold view chain)
    (bound : ∀ index, view.sector index ≠ none → index < totalMessageSectorSize)
    (covered : ∀ index mSector, view.sector index = some mSector →
      index ∈ chain mSector.header.contactIndex.toNat)
    (links : ∀ slot, ∃ start, NextChain view.sector start (chain slot) ∧
      (chain slot = [] ∨ view.sector start = none)) : Mountable view chain where
  distinct := distinct
  chats := chats
  owners index mSector stored := chats.contacts _ fun none_ => by
    have member := covered index mSector stored
    rw [none_] at member
    cases member
  heads slot := by
    obtain ⟨start, linked, free⟩ := links slot
    cases whole : chain slot with
    | nil =>
        rw [headOf, whole]
        refine latest_head_none fun index mSector stored _ owner => ?_
        have member := covered index mSector stored
        rw [owner, whole] at member
        cases member
    | cons newest older =>
        have member : newest ∈ chain slot := by
          rw [whole]
          simp
        obtain ⟨mSector, stored⟩ := chats.member member
        rw [whole] at linked free
        obtain ⟨known, knownStored, points⟩ := linked.1
        obtain rfl : known = mSector := Option.some_injective _ (knownStored.symm.trans stored)
        have head : view.sector known.header.next.toNat = none := by
          rw [points]
          exact free.resolve_left (by simp)
        rw [headOf, whole]
        refine latest_head_last (bound newest (by rw [stored]; exact Option.some_ne_none _)) stored
          head (chats.owned slot newest member known stored) ?_
        intro index mSector above found ahead owner
        have inside := covered index mSector found
        rw [owner, whole] at inside
        exact (Nat.ne_of_lt above) (next_chain_head linked free inside found ahead)

theorem tidy_mountable (distinct : Distinct view.contact) (chats : ChatsHold view chain)
    (bound : ∀ index, view.sector index ≠ none → index < totalMessageSectorSize)
    (tidy : Tidy view chain) : Mountable view chain := by
  refine mountable_of_links distinct chats bound tidy.covered fun slot =>
    ⟨uint16Max, tidy.nexts slot, Or.inr ?_⟩
  by_contra given
  have inside := bound uint16Max given
  simp at inside

theorem Core.mountable {db : Database} {card : Card Sector} (core : Core db card view chain)
    (tidy : Tidy view chain) : Mountable view chain :=
  tidy_mountable core.distinct core.chats core.holds.messages.bound tidy

theorem NextChain.drop {sector : Nat → Option MessageSector} {start : Nat} {sectors : List Nat}
    (links : NextChain sector start sectors) (count : Nat) :
    ∃ last, NextChain sector last (sectors.drop count) ∧
      (last = start ∨ last ∈ sectors.take count) := by
  induction count generalizing start sectors with
  | zero => exact ⟨start, links, Or.inl rfl⟩
  | succ count ih =>
      cases sectors with
      | nil => exact ⟨start, trivial, Or.inl rfl⟩
      | cons index rest =>
          obtain ⟨last, behind, place⟩ := ih links.2
          refine ⟨last, behind, Or.inr ?_⟩
          rw [List.take_succ_cons, List.mem_cons]
          exact place

theorem shortened_mountable (distinct : Distinct view.contact) (chats : ChatsHold view chain)
    (bound : ∀ index, view.sector index ≠ none → index < totalMessageSectorSize)
    (tidy : Tidy view chain) (slot count : Nat) :
    Mountable (view.clearSectors ((chain slot).take count))
      (Function.update chain slot ((chain slot).drop count)) := by
  have change := @drop_change _ _ slot chats count
  have stored : ∀ index mSector,
      (view.clearSectors ((chain slot).take count)).sector index = some mSector →
      index ∉ (chain slot).take count ∧ view.sector index = some mSector := by
    intro index mSector found
    simp only [View.clearSectors] at found
    split at found
    · cases found
    · exact ⟨by assumption, found⟩
  have kept : ∀ index, index ∉ (chain slot).take count →
      (view.clearSectors ((chain slot).take count)).sector index = view.sector index :=
    fun index outside => if_neg outside
  have endFree : (view.clearSectors ((chain slot).take count)).sector uint16Max = none := by
    by_contra given
    obtain ⟨mSector, found⟩ := Option.ne_none_iff_exists'.mp given
    have inside := bound uint16Max (by rw [(stored _ _ found).2]; exact Option.some_ne_none _)
    simp at inside
  refine mountable_of_links distinct (chats.change change) ?_ ?_ fun other => ?_
  · intro index given
    obtain ⟨mSector, found⟩ := Option.ne_none_iff_exists'.mp given
    exact bound index (by rw [(stored _ _ found).2]; exact Option.some_ne_none _)
  · intro index mSector found
    obtain ⟨outside, there⟩ := stored index mSector found
    have covered := tidy.covered index mSector there
    by_cases mine : mSector.header.contactIndex.toNat = slot
    · rw [mine] at covered ⊢
      rw [Function.update_self]
      rw [← List.take_append_drop count (chain slot), List.mem_append] at covered
      exact covered.resolve_left outside
    · rwa [Function.update_of_ne mine]
  · by_cases mine : other = slot
    · obtain ⟨last, links, place⟩ := (tidy.nexts slot).drop count
      rw [mine, Function.update_self]
      refine ⟨last, links.congr fun index member => kept index fun front => ?_, Or.inr ?_⟩
      · have nodup := chats.separate slot
        rw [← List.take_append_drop count (chain slot), List.nodup_append] at nodup
        exact nodup.2.2 index front index member rfl
      · rcases place with rfl | removed
        · exact endFree
        · exact if_pos removed
    · rw [Function.update_of_ne mine]
      refine ⟨uint16Max, (tidy.nexts other).congr fun index member => kept index fun front => ?_,
        Or.inr endFree⟩
      exact mine (chats.apart member (List.mem_of_mem_take front))

/-- The chains that the mount finds when the power was cut between the two transactions
of a roll-over: of the two sectors without a successor the larger one is the head. -/
def grownChain (chain : Nat → List Nat) (slot newest next : Nat) : Nat → List Nat :=
  if newest < next then Function.update chain slot (next :: chain slot) else chain

section Grown

variable {slot newest next : Nat} {older : List Nat} {message : Message}

theorem grown_sector_next (view : View) (slot newest next : Nat) (message : Message) :
    (view.grown slot newest next message).sector next =
      some ((createNewMessageSector slot newest).push message) := set_sector_self _ _ _

theorem grown_sector_other (view : View) {slot newest next index : Nat} (message : Message)
    (different : index ≠ next) :
    (view.grown slot newest next message).sector index = view.sector index :=
  set_sector_other _ _ different

theorem tidy_head_iff (tidy : Tidy view chain) (endFree : view.sector uint16Max = none)
    {index : Nat} {mSector : MessageSector} (found : view.sector index = some mSector) :
    view.sector mSector.header.next.toNat = none ↔
      headOf chain mSector.header.contactIndex.toNat = index := by
  have member := tidy.covered index mSector found
  have links := tidy.nexts mSector.header.contactIndex.toNat
  constructor
  · exact next_chain_head links (Or.inr endFree) member found
  · intro newest
    unfold headOf at newest
    cases whole : chain mSector.header.contactIndex.toNat with
    | nil =>
        rw [whole] at member
        cases member
    | cons head older =>
        rw [whole] at links newest
        obtain rfl : head = index := newest
        obtain ⟨known, knownFound, points⟩ := links.1
        obtain rfl : known = mSector := Option.some_injective _ (knownFound.symm.trans found)
        rw [points]
        exact endFree

theorem latest_head_same {slot count : Nat}
    (same : ∀ index,
      (other.sector index = view.sector index ∧ ∀ mSector, view.sector index = some mSector →
        other.sector mSector.header.next.toNat = view.sector mSector.header.next.toNat) ∨
      ((∀ mSector, view.sector index = some mSector → mSector.header.contactIndex.toNat ≠ slot) ∧
        ∀ mSector, other.sector index = some mSector →
          mSector.header.contactIndex.toNat ≠ slot)) :
    latestHead other slot count = latestHead view slot count := by
  have skipped : ∀ (seen : View) (count : Nat), (∀ mSector, seen.sector count = some mSector →
      mSector.header.contactIndex.toNat ≠ slot) →
      latestHead seen slot (count + 1) = latestHead seen slot count := by
    intro seen count apart
    rw [latestHead]
    cases found : seen.sector count with
    | none => rfl
    | some mSector => exact if_neg fun both => apart mSector found both.2
  induction count with
  | zero => rfl
  | succ count ih =>
      rcases same count with ⟨kept, heads⟩ | ⟨before, after⟩
      · rw [latestHead, latestHead, kept]
        cases found : view.sector count with
        | none => exact ih
        | some mSector =>
            dsimp only
            rw [heads mSector found, ih]
      · rw [skipped other count after, skipped view count before, ih]

theorem next_chain_next {sector : Nat → Option MessageSector} {start index : Nat}
    {sectors : List Nat} (links : NextChain sector start sectors) (member : index ∈ sectors)
    {mSector : MessageSector} (found : sector index = some mSector) :
    mSector.header.next.toNat = start ∨ sector mSector.header.next.toNat ≠ none := by
  induction sectors generalizing start with
  | nil => cases member
  | cons head older ih =>
      obtain ⟨⟨known, knownFound, points⟩, behind⟩ := links
      rcases List.mem_cons.mp member with rfl | inOlder
      · obtain rfl : known = mSector := Option.some_injective _ (knownFound.symm.trans found)
        exact Or.inl points
      · right
        rcases ih behind inOlder with same | used
        · rw [same, knownFound]
          exact Option.some_ne_none _
        · exact used

theorem grown_owner (slotBound : slot < hashTableEntries) :
    ((createNewMessageSector slot newest).push message).header.contactIndex.toNat = slot := by
  rw [(push_links _ _).2.2, createNewMessageSector, BitVec.toNat_ofNat]
  simp at slotBound
  omega

theorem grown_end (endFree : view.sector uint16Max = none) (inside : next < uint16Max) :
    (view.grown slot newest next message).sector uint16Max = none := by
  rw [grown_sector_other view message (by omega), endFree]

/-- Without a successor are now the new sector and at most those that were heads before. -/
theorem grown_heads (tidy : Tidy view chain) (endFree : view.sector uint16Max = none)
    (slotBound : slot < hashTableEntries) (free : view.sector next = none) {index : Nat}
    {mOther : MessageSector}
    (there : (view.grown slot newest next message).sector index = some mOther)
    (ahead : (view.grown slot newest next message).sector mOther.header.next.toNat = none) :
    (index = next ∧ mOther.header.contactIndex.toNat = slot) ∨
      headOf chain mOther.header.contactIndex.toNat = index := by
  by_cases same : index = next
  · left
    rw [same, grown_sector_next] at there
    obtain rfl := Option.some_injective _ there
    exact ⟨same, grown_owner slotBound⟩
  · right
    rw [grown_sector_other view message same] at there
    rcases next_chain_next (tidy.nexts _) (tidy.covered index mOther there) there with ends | used
    · exact (tidy_head_iff tidy endFree there).mp (by rw [ends]; exact endFree)
    · have notNext : mOther.header.next.toNat ≠ next := by
        intro points
        rw [points] at used
        exact used free
      rw [grown_sector_other view message notNext] at ahead
      exact absurd ahead used

theorem grown_chats_hold (chats : ChatsHold view chain) (slotBound : slot < hashTableEntries)
    (whole : chain slot = newest :: older) (low : newest < 65536)
    (free : view.sector next = none) :
    ChatsHold (view.grown slot newest next message) (grownChain chain slot newest next) := by
  have others := fun index => @grown_sector_other view slot newest next index message
  unfold grownChain
  split
  · obtain ⟨mSector, found⟩ := @ChatsHold.member _ _ chats slot newest (by rw [whole]; simp)
    have different : newest ≠ next := by
      rintro rfl
      rw [free] at found
      cases found
    rw [whole]
    exact chats.change (grow_change chats slotBound whole found low free message rfl
      (grown_sector_next view slot newest next message)
      (Or.inl (by rw [others newest different, found])) fun index notNext _ => others index notNext)
  · have kept : ∀ other, ∀ index ∈ chain other,
        (view.grown slot newest next message).sector index = view.sector index := by
      intro other index member
      refine others index ?_
      rintro rfl
      exact (chats.linked other).stored index member free
    refine ⟨fun other => (chats.linked other).congr (kept other), ?_, ?_, chats.separate,
      chats.contacts⟩
    · intro other index member mOther there
      rw [kept other index member] at there
      exact chats.owned other index member mOther there
    · intro other index member mOther there
      rw [kept other index member] at there
      exact chats.counted other index member mOther there

/-- Of the old head and the new sector, which both have no successor, the mount takes the one
with the larger number. -/
theorem grown_latest_here (chats : ChatsHold view chain) (tidy : Tidy view chain)
    (endFree : view.sector uint16Max = none) (slotBound : slot < hashTableEntries)
    (whole : chain slot = newest :: older) (low : newest < totalMessageSectorSize)
    (free : view.sector next = none) (inside : next < totalMessageSectorSize) :
    latestHead (view.grown slot newest next message) slot totalMessageSectorSize =
      headOf (grownChain chain slot newest next) slot := by
  have size : totalMessageSectorSize = 28586 := rfl
  have endKept : (view.grown slot newest next message).sector uint16Max = none :=
    grown_end endFree (by simp; omega)
  have headOfSlot : headOf chain slot = newest := by
    rw [headOf, whole]
    rfl
  unfold grownChain
  by_cases above : newest < next
  · have nextHead : (view.grown slot newest next message).sector
        ((createNewMessageSector slot newest).push message).header.next.toNat = none := by
      rw [(push_links _ _).2.1, createNewMessageSector, BitVec.toNat_ofNat]
      exact endKept
    rw [if_pos above, headOf, Function.update_self]
    refine latest_head_last inside (grown_sector_next view slot newest next message) nextHead
      (grown_owner slotBound) fun index mOther behind there ahead same => ?_
    rcases grown_heads tidy endFree slotBound free there ahead with ⟨rfl, _⟩ | head
    · exact lt_irrefl _ behind
    · rw [same, headOfSlot] at head
      have order : next < index := behind
      omega
  · have links := tidy.nexts slot
    rw [whole] at links
    obtain ⟨mSector, found, points⟩ := links.1
    have different : newest ≠ next := by
      rintro rfl
      rw [free] at found
      cases found
    have newestHead : (view.grown slot newest next message).sector
        mSector.header.next.toNat = none := by
      rw [points]
      exact endKept
    rw [if_neg above, headOfSlot]
    refine latest_head_last low (by rw [grown_sector_other view message different, found])
      newestHead (chats.owned slot newest (by rw [whole]; simp) mSector found)
      fun index mOther behind there ahead same => ?_
    rcases grown_heads tidy endFree slotBound free there ahead with ⟨rfl, _⟩ | head
    · omega
    · rw [same, headOfSlot] at head
      omega

theorem grown_latest_other (mountable : Mountable view chain) (tidy : Tidy view chain)
    (endFree : view.sector uint16Max = none) (slotBound : slot < hashTableEntries)
    (free : view.sector next = none) (inside : next < uint16Max) {other : Nat}
    (mine : other ≠ slot) :
    latestHead (view.grown slot newest next message) other totalMessageSectorSize =
      headOf (grownChain chain slot newest next) other := by
  have chainOther : headOf (grownChain chain slot newest next) other = headOf chain other := by
    unfold grownChain
    split
    · rw [headOf, Function.update_of_ne mine, headOf]
    · rfl
  rw [chainOther, ← mountable.heads other]
  refine latest_head_same fun index => ?_
  by_cases same : index = next
  · right
    rw [same, grown_sector_next, free]
    refine ⟨fun _ none_ => absurd none_ (Option.some_ne_none _).symm, fun mOther there sameOwner => ?_⟩
    obtain rfl := Option.some_injective _ there
    exact mine (sameOwner.symm.trans (grown_owner slotBound))
  · left
    refine ⟨grown_sector_other view message same, fun mOther there => ?_⟩
    rcases next_chain_next (tidy.nexts _) (tidy.covered index mOther there) there with ends | used
    · rw [ends, grown_end endFree inside, endFree]
    · rw [grown_sector_other view message fun points => by rw [points] at used; exact used free]

theorem grown_mountable (mountable : Mountable view chain)
    (bound : ∀ index, view.sector index ≠ none → index < totalMessageSectorSize)
    (tidy : Tidy view chain) (slotBound : slot < hashTableEntries)
    (whole : chain slot = newest :: older) (free : view.sector next = none)
    (inside : next < totalMessageSectorSize) :
    Mountable (view.grown slot newest next message) (grownChain chain slot newest next) := by
  have chats := mountable.chats
  have size : totalMessageSectorSize = 28586 := rfl
  have low := bound newest ((chats.linked slot).stored newest (by rw [whole]; simp))
  have endFree : view.sector uint16Max = none := by
    by_contra given
    have := bound uint16Max given
    simp at this
  refine ⟨mountable.distinct, grown_chats_hold chats slotBound whole (by omega) free, ?_, ?_⟩
  · intro index mOther there
    by_cases same : index = next
    · rw [same, grown_sector_next] at there
      obtain rfl := Option.some_injective _ there
      rw [grown_owner slotBound]
      exact chats.contacts slot (by rw [whole]; simp)
    · rw [grown_sector_other view message same] at there
      exact mountable.owners index mOther there
  · intro other
    by_cases mine : other = slot
    · rw [mine]
      exact grown_latest_here chats tidy endFree slotBound whole low free inside
    · exact grown_latest_other mountable tidy endFree slotBound free (by simp; omega) mine

end Grown

end Mountable

end SdDatabase
