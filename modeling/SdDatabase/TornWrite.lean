import SdDatabase.Exhaustion
import SdDatabase.MessageCut

/-!
# Torn sectors

A power cut that leaves one sector with arbitrary content and a wrong checksum. The
start-up recovers from every torn sector but the journal header, which it refuses
unless the torn header looks blank.
-/

namespace SdDatabase

open Bytes Device

set_option autoImplicit false

def Call.phones : Call → List (List Byte)
  | .contactAdd _ phone => (validPhone phone).toList
  | .contactUpdate phone _ newPhone => (validPhone phone).toList ++ (validPhone newPhone).toList
  | .contactRemove phone => (validPhone phone).toList
  | .messageAdd phone _ _ _ => (validPhone phone).toList
  | .messageRemoveChat phone => (validPhone phone).toList
  | _ => []

/-- The people with other phone numbers are the same in both phone books. -/
def Model.SameOthers (phones : List (List Byte)) (before after : List Person) : Prop :=
  ∀ person : Person, person.identity.phone ∉ phones → (person ∈ after ↔ person ∈ before)

section Others

variable {phones : List (List Byte)} {people : List Person}

theorem others_refl : Model.SameOthers phones people people := fun _ _ => Iff.rfl

theorem others_insert {person : Person} (touched : person.identity.phone ∈ phones) :
    Model.SameOthers phones people (Model.insert person people) := by
  intro other untouched
  rw [Model.mem_insert]
  refine ⟨fun either => either.resolve_left ?_, Or.inr⟩
  rintro rfl
  exact untouched touched

theorem others_without {phone : List Byte} (touched : phone ∈ phones) :
    Model.SameOthers phones people (Model.without phone people) := by
  intro other untouched
  rw [Model.mem_without]
  refine ⟨And.left, fun member => ⟨member, ?_⟩⟩
  rintro rfl
  exact untouched touched

theorem others_with_chat {phone : List Byte} (touched : phone ∈ phones) (chat : List Message) :
    Model.SameOthers phones people (Model.withChat phone chat people) := by
  intro other untouched
  have different : other.identity.phone ≠ phone := by
    rintro rfl
    exact untouched touched
  rw [mem_with_chat]
  constructor
  · rintro (⟨member, _⟩ | ⟨before, _, same, rfl⟩)
    · exact member
    · exact absurd same different
  · exact fun member => Or.inl ⟨member, different⟩

theorem Model.SameOthers.trans {middle after : List Person}
    (first : Model.SameOthers phones people middle)
    (second : Model.SameOthers phones middle after) :
    Model.SameOthers phones people after :=
  fun person untouched => (second person untouched).trans (first person untouched)

theorem next_others (call : Call) (model : Model) :
    Model.SameOthers call.phones model.people (Model.next call model).people := by
  cases call with
  | contactAdd name phone =>
      change Model.SameOthers _ _ (Model.addContact name phone model).2.people
      unfold Model.addContact
      cases checked : checkedIdentity name phone with
      | none => exact others_refl
      | some identity =>
          have touched : identity.phone ∈ (Call.contactAdd name phone).phones := by
            rw [Call.phones, (checked_identity_some checked).2]
            exact List.mem_singleton_self _
          dsimp only
          split
          · exact others_refl
          · split
            · exact others_refl
            · exact others_insert touched
  | contactUpdate phone newName newPhone =>
      change Model.SameOthers _ _ (Model.updateContact phone newName newPhone model).2.people
      unfold Model.updateContact
      cases valid : validPhone phone with
      | none => exact others_refl
      | some number =>
          cases checked : checkedIdentity newName newPhone with
          | none => exact others_refl
          | some identity =>
              have touched : number ∈ (Call.contactUpdate phone newName newPhone).phones := by
                rw [Call.phones, valid]
                exact List.mem_append_left _ (List.mem_singleton_self _)
              have newTouched :
                  identity.phone ∈ (Call.contactUpdate phone newName newPhone).phones := by
                rw [Call.phones, (checked_identity_some checked).2]
                exact List.mem_append_right _ (List.mem_singleton_self _)
              dsimp only
              split
              · exact others_refl
              · split
                · exact others_refl
                · exact (others_without touched).trans (others_insert newTouched)
  | contactRemove phone =>
      change Model.SameOthers _ _ (Model.removeContact phone model).2.people
      unfold Model.removeContact
      cases valid : validPhone phone with
      | none => exact others_refl
      | some number =>
          have touched : number ∈ (Call.contactRemove phone).phones := by
            rw [Call.phones, valid]
            exact List.mem_singleton_self _
          dsimp only
          split
          · exact others_refl
          · exact others_without touched
  | messageAdd phone timestamp direction str =>
      change Model.SameOthers _ _ (Model.addMessage phone timestamp direction str model).2.people
      unfold Model.addMessage
      cases checked : checkedIdentity (some noName) phone with
      | none => exact others_refl
      | some unnamed =>
          have touched : unnamed.phone ∈ (Call.messageAdd phone timestamp direction str).phones := by
            rw [Call.phones, (checked_identity_some checked).2]
            exact List.mem_singleton_self _
          cases str with
          | none => exact others_refl
          | some text =>
              dsimp only
              split
              · exact others_refl
              · cases found : model.find unnamed.phone with
                | some person =>
                    have same := (Model.find_some found).2
                    exact (others_without touched).trans (others_insert (by rwa [same]))
                | none =>
                    dsimp only
                    split
                    · exact others_refl
                    · exact others_insert touched
  | messageRemoveChat phone =>
      change Model.SameOthers _ _ (Model.removeChat phone model).2.people
      unfold Model.removeChat
      cases valid : validPhone phone with
      | none => exact others_refl
      | some number =>
          have touched : number ∈ (Call.messageRemoveChat phone).phones := by
            rw [Call.phones, valid]
            exact List.mem_singleton_self _
          dsimp only
          cases found : model.find number with
          | none => exact others_refl
          | some person =>
              have same := (Model.find_some found).2
              dsimp only
              split
              · exact others_refl
              · exact (others_without touched).trans (others_insert (by rwa [same]))
  | _ => exact others_refl

end Others

/-- A start-up can mount the view, and it shows the other people as they were. -/
def Spares (view : View) (chain : Nat → List Nat) (phones : List (List Byte)) (seen : View) :
    Prop :=
  ∃ seenChain people, Mountable seen seenChain ∧ InOrder people ∧
    (∀ person, person ∈ people ↔ person ∈ book seen seenChain) ∧
    ∀ person : Person, person.identity.phone ∉ phones →
      (person ∈ people ↔ person ∈ book view chain)

section Spares

variable {machine : Machine} {view : View} {chain : Nat → List Nat} {listing : Listing}
  (mounted : Mounted machine.db machine.card view chain listing) (tidy : Tidy view chain)
  {phones : List (List Byte)}

include mounted tidy

theorem spares_old : Spares view chain phones view :=
  ⟨chain, _, mounted.core.mountable tidy, people_in_order mounted, mem_people mounted,
    fun person _ => mem_people mounted person⟩

omit tidy in
theorem spares_people {seen : View} {seenChain : Nat → List Nat} {people : List Person}
    (mountable : Mountable seen seenChain) (order : InOrder people)
    (members : ∀ person, person ∈ people ↔ person ∈ book seen seenChain)
    (others : Model.SameOthers phones (modelOf machine.db view chain listing).people people) :
    Spares view chain phones seen :=
  ⟨seenChain, people, mountable, order, members, fun person untouched =>
    (others person untouched).trans (mem_people mounted person)⟩

theorem spares_entered {slot : Nat} {unnamed : Identity} (free : view.contact slot = none)
    (absent : ∀ sector other, view.contact sector = some other → other.phone ≠ unnamed.phone)
    (touched : unnamed.phone ∈ phones) :
    Spares view chain phones (view.setContact slot (some unnamed)) := by
  have new : ∀ person ∈ (modelOf machine.db view chain listing).people,
      nameKey person.identity ≠ nameKey unnamed := by
    intro person member same
    obtain ⟨place, stored, _⟩ := (mem_people mounted person).mp member
    exact absent place person.identity stored (name_key_phone same)
  exact spares_people mounted (entered_mountable mounted tidy absent)
    (insert_in_order (people_in_order mounted) new) (entered_book mounted free)
    (others_insert touched)

omit tidy in
theorem spares_later {later : View} {laterChain : Nat → List Nat} {laterListing : Listing}
    {next : Machine} (laterMounted : Mounted next.db next.card later laterChain laterListing)
    (laterTidy : Tidy later laterChain)
    (others : Model.SameOthers phones (modelOf machine.db view chain listing).people
      (modelOf next.db later laterChain laterListing).people) {seen : View}
    (contact : seen.contact = later.contact) (sector : seen.sector = later.sector) :
    Spares view chain phones seen := by
  have books : book seen laterChain = book later laterChain := by
    unfold book chatOf
    rw [contact, sector]
  exact spares_people mounted
    ((laterMounted.core.mountable laterTidy).congr contact sector) (people_in_order laterMounted)
    (fun person => by rw [books]; exact mem_people laterMounted person) others

theorem spares_shortened {slot : Nat} {identity : Identity}
    (stored : view.contact slot = some identity) (touched : identity.phone ∈ phones)
    (count : Nat) :
    Spares view chain phones (view.clearSectors ((chain slot).take count)) := by
  have change := @drop_change _ _ slot mounted.core.chats count
  exact spares_people mounted
    (shortened_mountable mounted.core.distinct mounted.core.chats mounted.core.holds.messages.bound
      tidy slot count)
    (with_chat_in_order (people_in_order mounted) _ _)
    (with_chat_book mounted stored rfl fun other different => chat_of_change_other change different)
    (others_with_chat touched _)

theorem spares_unlinked {number : List Byte} {slot newest next : Nat} {older : List Nat}
    {mSector : MessageSector}
    (rolls : RollsOver machine.db view chain number slot newest next older mSector)
    (touched : number ∈ phones) (message : Message) :
    Spares view chain phones (view.grown slot newest next message) := by
  have mountable := unlinked_mountable mounted rolls tidy message
  obtain ⟨identity, stored, rfl⟩ := rolls.contact
  unfold grownChain at mountable
  by_cases above : newest < next
  · rw [if_pos above, rolls.whole] at mountable
    obtain ⟨change, _⟩ := unlinked_change mounted rolls message
    exact spares_people mounted mountable (with_chat_in_order (people_in_order mounted) _ _)
      (with_chat_book mounted stored change.contact fun other different =>
        chat_of_change_other change different) (others_with_chat touched _)
  · rw [if_neg above] at mountable
    obtain ⟨_, _, free, _⟩ := rolls.bounds mounted
    have chats : ∀ other, chatOf (view.grown slot newest next message) chain other =
        chatOf view chain other := by
      intro other
      refine chat_messages_congr fun index member => grown_sector_other view message ?_
      rintro rfl
      exact (mounted.core.chats.linked other).stored index member free
    have books : book (view.grown slot newest next message) chain = book view chain := by
      unfold book
      simp only [chats]
      rfl
    refine spares_people mounted mountable (people_in_order mounted) (fun person => ?_)
      others_refl
    rw [books]
    exact mem_people mounted person

theorem call_views_spare {call : Call} {next : Machine} {later : View}
    {laterChain : Nat → List Nat} {laterListing : Listing}
    (laterMounted : Mounted next.db next.card later laterChain laterListing)
    (laterTidy : Tidy later laterChain)
    (model : modelOf next.db later laterChain laterListing =
      Model.next call (modelOf machine.db view chain listing)) {count : Nat} {seen : View}
    (known : callViews machine.db view chain call later laterChain count seen) :
    Spares view chain call.phones seen := by
  have others := next_others call (modelOf machine.db view chain listing)
  rw [← model] at others
  have done := fun {seen : View} => @spares_later _ _ _ _ mounted _ _ _ _ _ laterMounted
    laterTidy others seen
  have either : seen = view ∨ seen = later → Spares view chain call.phones seen := by
    rintro (rfl | rfl)
    · exact spares_old mounted tidy
    · exact done rfl rfl
  have removal : ∀ phone, (validPhone phone).toList = call.phones →
      shortened view chain phone later laterChain count seen →
      Spares view chain call.phones seen := by
    rintro phone same (rfl | ⟨slot, identity, stored, given, rfl⟩)
    · exact done rfl rfl
    · refine spares_shortened mounted tidy stored ?_ _
      rw [← same, given]
      exact List.mem_singleton_self _
  cases call with
  | messageAdd phone timestamp direction str =>
      have views : addViews machine.db view chain phone timestamp direction str later laterChain
        count seen := known
      rcases views with ⟨same, _⟩ | ⟨number, text, valid, _, _, message⟩
      · exact either (Or.inl same)
      · have touched : number ∈ (Call.messageAdd phone timestamp direction str).phones := by
          rw [Call.phones, valid]
          exact List.mem_singleton_self _
        cases message with
        | before same _ => exact either (Or.inl same)
        | entered slot unnamed absent free is same =>
            obtain ⟨rfl, _⟩ := is
            rw [same]
            exact spares_entered mounted tidy free absent touched
        | unlinked slot newest added older mSector rolls _ _ same =>
            rw [same]
            exact spares_unlinked mounted tidy rolls touched _
        | after contact sector _ => exact done contact sector
  | contactRemove phone => exact removal phone rfl known
  | messageRemoveChat phone => exact removal phone rfl known
  | _ => exact either known

end Spares

/-- A full chat is given the sector number `UINT16_MAX`, and the contact sector that it
wraps to is not in use. -/
def Machine.WritesAstray (machine : Machine) (call : Call) : Prop :=
  Exhausts call machine.db machine.card ∧
    ∃ phone timestamp direction str number hashSlot,
      call = .messageAdd phone timestamp direction str ∧ validPhone phone = some number ∧
      (machine.run (findOccupied number)).1 = .ok hashSlot ∧
      (machine.db.htable.htable hashSlot).latestMsgExtent ≠ uint16Max ∧
      usageBit machine.db.usageBitmap (u16 (messageDataSector uint16Max)) = false

theorem call_spares {machine : Machine} {view : View} {chain : Nat → List Nat} {listing : Listing}
    (mounted : Mounted machine.db machine.card view chain listing) (tidy : Tidy view chain)
    (call : Call) (stays : ¬machine.WritesAstray call) :
    CrashSafe (machine.writes call) machine.card
      fun _ seen => Spares view chain call.phones seen := by
  by_cases exhausts : Exhausts call machine.db machine.card
  · have core := mounted.core
    obtain ⟨phone, timestamp, direction, text, number, rfl, valid, timed, misses⟩ :=
      exhausts_misses mounted exhausts
    obtain ⟨found, find⟩ := finds core number
    have unchanged : machine.RefusesCleanly number →
        CrashSafe (machine.writes (.messageAdd phone timestamp direction (some text)))
          machine.card fun _ seen => Spares view chain
            (Call.messageAdd phone timestamp direction (some text)).phones seen := by
      intro clean
      rcases insert_missing mounted valid misses (createMessage timestamp direction text.val) with
        ⟨_, insert⟩ | ⟨spoiled, _⟩
      · rw [Machine.writes, message_call_fails valid timed find insert]
        exact crash_safe_nil core.idle core.holds fun _ => spares_old mounted tidy
      · exact absurd clean spoiled
    rcases look_up core number with ⟨hashSlot, identity, _, _, _, run⟩ | ⟨absent, run⟩
    · refine unchanged ⟨fun new => absurd (by rw [Machine.run_of run]) (new hashSlot),
        fun other same => ?_⟩
      by_contra neither
      rw [not_or, Bool.not_eq_true] at neither
      exact stays ⟨exhausts, phone, timestamp, direction, some text, number, other, rfl, valid, same,
        neither⟩
    · cases stack : machine.db.contactAllocator.freeStack with
      | nil =>
          refine unchanged ⟨fun _ => stack, fun other same => ?_⟩
          rw [Machine.run_of run] at same
          cases same
      | cons sector rest =>
          obtain ⟨unnamed, _, rfl, noName_⟩ := valid_phone_identity valid
          obtain ⟨next, log, insert, _, safe⟩ := insert_new_enters core unnamed noName_ absent stack
            misses.1 (createMessage timestamp direction text.val)
          have free : view.contact sector = none := not_not.mp (core.contactFree.top stack).2
          have touched : unnamed.phone ∈
              (Call.messageAdd phone timestamp direction (some text)).phones := by
            rw [Call.phones, valid]
            exact List.mem_singleton_self _
          rw [Machine.writes, message_call_fails valid timed find insert]
          refine safe.mono fun _ seen known => ?_
          rcases known with rfl | rfl
          · exact spares_old mounted tidy
          · exact spares_entered mounted tidy free absent touched
  · obtain ⟨later, laterChain, laterListing, laterMounted, laterTidy, model, safe⟩ :=
      call_leads mounted tidy call exhausts
    exact safe.mono fun _ seen known =>
      call_views_spare mounted tidy laterMounted laterTidy model known

/-- The card behind a power cut in write number `count` of a call, which leaves the sector
it is to with the given content. -/
def Machine.tornCard (machine : Machine) (call : Call) (count : Nat) (torn : Sector) :
    Card Sector :=
  match (machine.writes call)[count]? with
  | some entry => Function.update (machine.cut call count) entry.1 torn
  | none => machine.cut call count

/-- A start-up behind the torn write shows the people that the call is not about. -/
def Machine.TornSafe (machine : Machine) (call : Call) (count : Nat) (torn : Sector)
    (memory : Database) : Prop :=
  ∃ rebooted before after,
    Machine.restart (machine.tornCard call count torn) memory = (.strgOk, rebooted) ∧
    machine.Shows before ∧ rebooted.Shows after ∧
    Model.SameOthers call.phones before.people after.people

theorem restart_fails {card : Card Sector} {memory : Database}
    (good : getSuperheaderStatus (card superheaderSector) = .good)
    (journal : ∀ db, (out journalInit db card).1.1 = false) :
    (Machine.restart card memory).1 = .strgFail := by
  have check : out superheaderCheck memory.clear card = ((.good, memory.clear), []) := by
    rw [superheaderCheck, out_bind_of (out_readSectorRaw _ _ _)]
    simp only [u16_of_lt (by decide : superheaderSector < 65536), apply_writes_nil, good]
    rfl
  change (out databaseInit memory card).1.1 = .strgFail
  unfold databaseInit
  rw [out_bind_of (out_modify _ _ _)]
  simp only [apply_writes_nil]
  rw [out_bind_of check]
  simp only [apply_writes_nil]
  unfold databaseMount
  rw [out_bind_of (out_modify _ _ _)]
  simp only [apply_writes_nil]
  rw [out_bind]
  dsimp only
  rw [journal]
  rfl

theorem journal_init_corrupted {card : Card Sector}
    (corrupted : journalHeaderStatus (card jrnlHeaderSector) = .corrupted) (db : Database) :
    (out journalInit db card).1.1 = false := by
  have status : out getJournalStatus db card = ((.corrupted, db), []) := by
    unfold getJournalStatus
    rw [out_bind_of (out_readSectorRaw _ _ _)]
    simp only [u16_of_lt (by decide : jrnlHeaderSector < 65536), apply_writes_nil, corrupted]
    rfl
  rw [journalInit, out_bind_of status]
  rfl

section Torn

variable {machine : Machine} {view : View} {chain : Nat → List Nat} {listing : Listing}
  (mounted : Mounted machine.db machine.card view chain listing) (tidy : Tidy view chain)
  {call : Call} (stays : ¬machine.WritesAstray call) {count : Nat} {entry : Nat × Sector}
  (written : (machine.writes call)[count]? = some entry) {torn : Sector} (memory : Database)

include mounted tidy stays written

theorem torn_safe (readable : TornReadable entry.1 torn) :
    machine.TornSafe call count torn memory := by
  obtain ⟨final, seen, restores, known, holds⟩ :=
    (call_spares mounted tidy call stays).torn count entry written torn readable
  have spares : Spares view chain call.phones seen := known.elim id id
  obtain ⟨seenChain, people, mountable, order, members, others⟩ := spares
  obtain ⟨rebooted, newListing, run, _, remounted, _⟩ :=
    restart_restores restores holds mountable memory
  have card : machine.tornCard call count torn = Function.update
      (applyWrites ((machine.writes call).take count) machine.card) entry.1 torn := by
    rw [Machine.tornCard, written, machine_cut_eq]
  refine ⟨rebooted, _, _, by rw [card, run], mounted_shows mounted, mounted_shows remounted,
    fun person untouched => ?_⟩
  rw [people_of_book remounted order members, others person untouched, mem_people mounted]

theorem torn_refused (header : entry.1 = jrnlHeaderSector)
    (corrupted : journalHeaderStatus torn = .corrupted) :
    (Machine.restart (machine.tornCard call count torn) memory).1 = .strgFail := by
  obtain ⟨final, seen, recovers, _, _, holds⟩ := (call_spares mounted tidy call stays).cut count
  rw [← machine_cut_eq] at recovers
  have card : machine.tornCard call count torn =
      Function.update (machine.cut call count) entry.1 torn := by
    rw [Machine.tornCard, written]
  rw [header] at card
  refine restart_fails ?_ (journal_init_corrupted ?_)
  · rw [card, Function.update_of_ne (by simp), ← recovers.restores.superheader]
    exact holds.superheader
  · rw [card, Function.update_self]
    exact corrupted

end Torn

/-- A start-up recovers from a torn write in a call, unless the journal header is torn and
does not look blank; then it is refused. -/
theorem torn_write_recovers_iff {machine : Machine} (reachable : Reachable machine) (call : Call)
    (stays : ¬machine.WritesAstray call) {count : Nat} {entry : Nat × Sector}
    (written : (machine.writes call)[count]? = some entry) {torn : Sector}
    (bad : sectorCrcValid torn = false) (memory : Database) :
    (machine.TornSafe call count torn memory ↔
        ¬(entry.1 = jrnlHeaderSector ∧ journalHeaderStatus torn = .corrupted)) ∧
      (entry.1 = jrnlHeaderSector → journalHeaderStatus torn = .corrupted →
        (Machine.restart (machine.tornCard call count torn) memory).1 = .strgFail) := by
  obtain ⟨_, view, chain, listing, mounted, tidy, _⟩ := reachable.sound
  have refused := @torn_refused _ _ _ _ mounted tidy _ stays _ _ written torn memory
  refine ⟨⟨?_, fun readable => torn_safe mounted tidy stays written memory fun header => ?_⟩, refused⟩
  · rintro ⟨rebooted, _, _, run, _⟩ ⟨header, corrupted⟩
    have failed := refused header corrupted
    rw [run] at failed
    cases failed
  · have status : journalHeaderStatus torn = .uninitialized ∨
        journalHeaderStatus torn = .corrupted := by
      unfold journalHeaderStatus
      rw [bad]
      rw [if_pos Bool.not_false]
      split
      · exact Or.inl rfl
      · exact Or.inr rfl
    exact status.resolve_right fun corrupted => readable ⟨header, corrupted⟩

/-- A journal header that was written but for its checksum. -/
def exampleTorn : Sector := spoiled (toSector (journalDataInit .callHist 0))

theorem example_torn_corrupted : journalHeaderStatus exampleTorn = .corrupted := by
  have header : (ofSector exampleTorn : JournalHeader) = journalDataInit .callHist 0 := by
    rw [exampleTorn, ofSector, payload_spoiled]
    exact of_to_sector _
  unfold journalHeaderStatus
  rw [header, exampleTorn, spoiled_invalid]
  rfl

theorem call_add_header {machine : Machine} {view : View} {chain : Nat → List Nat}
    {listing : Listing} (mounted : Mounted machine.db machine.card view chain listing)
    {phone : Option CString} {number : List Byte} (valid : validPhone phone = some number)
    (absent : ∀ sector other, view.contact sector = some other → other.phone ≠ number) :
    ∃ entry, (machine.writes (.callAdd phone))[1]? = some entry ∧ entry.1 = jrnlHeaderSector := by
  have find := out_findOccupied_new mounted.core absent
  obtain ⟨index, content, rest, saves⟩ := history_add_saves callHistoryFrame mounted.core.holds
    mounted.core.callRing ⟨BitVec.ofNat 16 uint16Max, createContact [] number, 0#8⟩
  have writes : machine.writes (.callAdd phone) =
      journalAddLog .callHist (callHistoryLayout.dataStart + index) content
        machine.db.usageBitmap ++ rest := by
    refine Eq.trans ?_ saves
    unfold Machine.writes Call.run databaseCallAdd
    simp only [valid]
    rw [out_bind, out_bind_of find]
    simp only [apply_writes_nil, List.nil_append, out_pure, List.append_nil]
    rfl
  rw [writes]
  exact ⟨_, rfl, rfl⟩

theorem example_header_written : ∃ entry,
    (exampleMachine.format.writes (.callAdd (some exampleText)))[1]? = some entry ∧
      entry.1 = jrnlHeaderSector := by
  refine call_add_header exampleMachine.format_mounts example_valid fun sector other stored => ?_
  cases stored

theorem example_stays : ¬exampleMachine.format.WritesAstray (.callAdd (some exampleText)) := by
  rintro ⟨⟨asks, _⟩, _⟩
  cases asks

theorem torn_write_recovers_example : ∃ entry,
    (exampleMachine.format.writes (.callAdd (some exampleText)))[1]? = some entry ∧
      sectorCrcValid exampleTorn = false ∧
      (exampleMachine.format.TornSafe (.callAdd (some exampleText)) 1 exampleTorn
          formattedDatabase ↔
        ¬(entry.1 = jrnlHeaderSector ∧ journalHeaderStatus exampleTorn = .corrupted)) := by
  obtain ⟨entry, written, _⟩ := example_header_written
  have bad : sectorCrcValid exampleTorn = false := spoiled_invalid _
  exact ⟨entry, written, bad, (torn_write_recovers_iff (.formatted exampleMachine) _ example_stays
    written bad formattedDatabase).1⟩

/-- The header is torn in the first call for an unknown number. -/
theorem torn_header_stops : Reachable exampleMachine.format ∧
    (∃ entry, (exampleMachine.format.writes (.callAdd (some exampleText)))[1]? = some entry) ∧
      sectorCrcValid exampleTorn = false ∧
      ¬exampleMachine.format.TornSafe (.callAdd (some exampleText)) 1 exampleTorn
        formattedDatabase := by
  obtain ⟨entry, written, header⟩ := example_header_written
  refine ⟨.formatted exampleMachine, ⟨entry, written⟩, spoiled_invalid _, ?_⟩
  rintro ⟨rebooted, _, _, run, _⟩
  have failed := torn_refused exampleMachine.format_mounts blank_tidy example_stays written
    formattedDatabase header example_torn_corrupted
  rw [run] at failed
  cases failed

end SdDatabase
