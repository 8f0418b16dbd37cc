import SdDatabase.BlindIndexes
import SdDatabase.BlindLookup
import SdDatabase.CleanRemount
import SdDatabase.Filling

/-!
# Answers with failing reads

A call that only reads keeps the database when reads fail, and an answer that reports
success is the answer of a healthy card. The one thing that goes wrong is in the lookup: a
contact whose record cannot be read there is answered as one that does not exist.
-/

namespace SdDatabase

open Bytes Device OpenAddressing

set_option autoImplicit false

def Reply.refuses : Reply → Prop
  | .status ret => ret ≠ .strgOk
  | .contact result => Reports result
  | .rank result => Reports result
  | .count _ => False
  | .contacts ret _ => ret ≠ .strgOk
  | .messages ret _ => ret ≠ .strgOk
  | .recent ret _ => ret ≠ .strgOk
  | .chats ret _ => ret ≠ .strgOk
  | .calls ret _ => ret ≠ .strgOk

/-- The answer to a call is an error or what the database answers on a healthy card. -/
def Machine.AnswersTruly (machine : Machine) (call : Call) (answer : Reply) : Prop :=
  answer.refuses ∨ answer = (machine.run call.run).1

/-- The answers to some calls behind one another. -/
def askCalls : List Call → DbM (List Reply)
  | [] => return []
  | call :: rest => do
      let first ← call.run
      let later ← askCalls rest
      return first :: later

/-- The number of contacts with the same hash in front of the entry of a number. -/
def readsBefore (table : HashTable) (phone : Nat → Option (List Byte)) (number : List Byte)
    (slot : Nat) : Nat :=
  (suspects hashPhone (phoneCell table phone) number
    ((phonePath table.size number).takeWhile fun index => decide (index ≠ slot))).length

section Lookup

variable {db : Database} {card : Card Sector} {view : View} {chain : Nat → List Nat}
  (core : Core db card view chain)

include core

theorem Core.numbers_stored : NumbersStored db card (contactPhones view.contact) := by
  intro sector number stored
  rw [stored_phone_record core.holds.contacts]
  exact stored

theorem blind_findOccupied_free {phone : List Byte} {fails : Nat → Bool}
    (free : ∀ slot, (doubtfulProbe hashPhone (phoneCell db.htable (contactPhones view.contact))
      phone (phonePath db.htable.size phone) none fails).1 = some slot →
      (phoneCell db.htable (contactPhones view.contact) slot).IsFree) :
    ∃ later, exec (findOccupied phone) db (.blind fails) card =
      ((.error .strgEmpty, db), .blind later, card) := by
  have small : db.htable.size < 65536 := by
    rw [core.table.size]
    decide
  have found := blind_hashFindEntry core.table.phones core.numbers_stored small phone fails
  refine ⟨fun index => fails (index +
    (doubtfulProbe hashPhone (phoneCell db.htable (contactPhones view.contact)) phone
      (phonePath db.htable.size phone) none fails).2), ?_⟩
  rw [findOccupied, exec_bind, findOccupiedEntry, exec_bind_of found]
  cases end_ : (doubtfulProbe hashPhone (phoneCell db.htable (contactPhones view.contact))
      phone (phonePath db.htable.size phone) none fails).1 with
  | none => rfl
  | some slot =>
      have notOccupied := phone_cell_free_iff.mp (free slot end_)
      dsimp only
      rw [exec_bind_of (exec_get _ _ _), if_neg notOccupied]
      rfl

theorem blind_findOccupied_new {phone : List Byte}
    (absent : ∀ sector identity, view.contact sector = some identity → identity.phone ≠ phone)
    (fails : Nat → Bool) :
    ∃ later, exec (findOccupied phone) db (.blind fails) card =
      ((.error .strgEmpty, db), .blind later, card) := by
  apply blind_findOccupied_free core
  apply doubtful_free fails
  · intro index _
    apply core.table.phones.absent_cell
    intro sector stored
    obtain ⟨identity, found, same⟩ := Option.map_eq_some_iff.mp stored
    exact absent sector identity found same
  · rintro slot ⟨⟩

theorem Core.own_path {hashSlot : Nat} {identity : Identity}
    (occupied : (db.htable.htable hashSlot).state = .occupied)
    (stored : view.contact (db.htable.htable hashSlot).sector = some identity) :
    ∃ before after, phonePath db.htable.size identity.phone = before ++ hashSlot :: after ∧
      (phonePath db.htable.size identity.phone).takeWhile
        (fun index => decide (index ≠ hashSlot)) = before ∧
      (∀ index ∈ before, phoneCell db.htable (contactPhones view.contact) index ≠ .empty ∧
        phoneCell db.htable (contactPhones view.contact) index ≠ .occupied identity.phone) ∧
      (∀ index ∈ after,
        phoneCell db.htable (contactPhones view.contact) index ≠ .occupied identity.phone) ∧
      phoneCell db.htable (contactPhones view.contact) hashSlot = .occupied identity.phone := by
  have phones := core.table.phones
  obtain ⟨number, entry⟩ := phones.entry hashSlot occupied
  have same : number = identity.phone :=
    Option.some_injective _ (entry.stored.symm.trans (contact_phones_some stored))
  rw [same] at entry
  have own := entry.cell occupied
  obtain ⟨before, after, split, full⟩ := entry.reaches
  have nodup := phone_path_nodup (by rw [core.table.size]; exact table_size_prime :
    db.htable.size.Prime) identity.phone
  rw [split] at nodup
  have parts := List.nodup_append.mp nodup
  have notBefore : hashSlot ∉ before := fun member =>
    parts.2.2 hashSlot member hashSlot List.mem_cons_self rfl
  have notAfter : hashSlot ∉ after := (List.nodup_cons.mp parts.2.1).1
  have only : ∀ index, phoneCell db.htable (contactPhones view.contact) index =
      .occupied identity.phone → index = hashSlot :=
    fun index content => phones.unique core.distinct.phones own content
  refine ⟨before, after, split, ?_, ?_, ?_, own⟩
  · rw [split, List.takeWhile_append_of_pos, List.takeWhile_cons_of_neg, List.append_nil]
    · simp
    · intro index member
      exact decide_eq_true fun isSlot => notBefore (by rwa [← isSlot])
  · intro index member
    exact ⟨full index member, fun content => notBefore (by rwa [← only index content])⟩
  · intro index member content
    exact notAfter (by rwa [← only index content])

/-- A stored contact is found unless the read of its own record fails. -/
theorem blind_findOccupied_known {hashSlot : Nat} {identity : Identity}
    (occupied : (db.htable.htable hashSlot).state = .occupied)
    (stored : view.contact (db.htable.htable hashSlot).sector = some identity)
    (fails : Nat → Bool) :
    (fails (readsBefore db.htable (contactPhones view.contact) identity.phone hashSlot) = false →
      exec (findOccupied identity.phone) db (.blind fails) card = ((.ok hashSlot, db),
        .blind fun index => fails (index +
          (readsBefore db.htable (contactPhones view.contact) identity.phone hashSlot + 1)),
        card)) ∧
    (fails (readsBefore db.htable (contactPhones view.contact) identity.phone hashSlot) = true →
      ∃ later, exec (findOccupied identity.phone) db (.blind fails) card =
        ((.error .strgEmpty, db), .blind later, card)) := by
  have phones := core.table.phones
  have small : db.htable.size < 65536 := by
    rw [core.table.size]
    decide
  obtain ⟨before, after, split, front, earlier, later, own⟩ := core.own_path occupied stored
  have search := @doubtful_only _ _ _ _ hashPhone
    (phoneCell db.htable (contactPhones view.contact)) identity.phone before after hashSlot fails
    earlier later own
  rw [← split] at search
  unfold readsBefore
  rw [front]
  constructor
  · intro read
    rw [findOccupied, exec_bind, findOccupiedEntry,
      exec_bind_of (blind_hashFindEntry phones core.numbers_stored small _ fails), search.1 read]
    dsimp only
    rw [exec_bind_of (exec_get _ _ _), if_pos occupied]
    rfl
  · intro failed
    exact blind_findOccupied_free core (search.2 failed)

theorem trace_findOccupied_known {hashSlot : Nat} {identity : Identity}
    (occupied : (db.htable.htable hashSlot).state = .occupied)
    (stored : view.contact (db.htable.htable hashSlot).sector = some identity) :
    ∃ earlier, readTrace (findOccupied identity.phone) db (.blind fun _ => false) card =
        earlier ++ [contactBlock (db.htable.htable hashSlot).sector] ∧
      earlier.length =
        readsBefore db.htable (contactPhones view.contact) identity.phone hashSlot := by
  have phones := core.table.phones
  have small : db.htable.size < 65536 := by
    rw [core.table.size]
    decide
  obtain ⟨before, after, split, front, earlier, behind, own⟩ := core.own_path occupied stored
  have search : readTrace (hashFindEntry identity.phone) db (.blind fun _ => false) card =
      ((suspects hashPhone (phoneCell db.htable (contactPhones view.contact)) identity.phone
        before ++ [hashSlot]).map fun index => contactBlock (db.htable.htable index).sector) := by
    rw [hashFindEntry, read_trace_get]
    dsimp only
    rw [u16_of_lt small]
    apply trace_probeFrom phones core.numbers_stored _ _ _ earlier own
    · exact after
    · rw [← List.range_eq_range']
      exact split
  refine ⟨(suspects hashPhone (phoneCell db.htable (contactPhones view.contact)) identity.phone
    before).map fun index => contactBlock (db.htable.htable index).sector, ?_, ?_⟩
  · have found := blind_hashFindEntry phones core.numbers_stored small identity.phone
      fun _ => false
    have doubtful := (@doubtful_only _ _ _ _ hashPhone
      (phoneCell db.htable (contactPhones view.contact)) identity.phone before after hashSlot
      (fun _ => false) earlier behind own).1 rfl
    rw [← split] at doubtful
    rw [doubtful] at found
    have entry : readTrace (findOccupiedEntry identity.phone) db (.blind fun _ => false) card =
        readTrace (hashFindEntry identity.phone) db (.blind fun _ => false) card := by
      rw [findOccupiedEntry, read_trace_bind_of found]
      dsimp only
      rw [read_trace_get, if_pos occupied]
      exact List.append_nil _
    rw [findOccupied, read_trace_bind, entry, search, List.map_append, List.append_assoc]
    generalize exec (findOccupiedEntry identity.phone) db (.blind fun _ => false) card = outcome
    rcases outcome with ⟨⟨answer | slot, later⟩, rest⟩ <;> rfl
  · rw [List.length_map, readsBefore, front]

theorem fragile_findOccupied (phone : List Byte) :
    FragileAt id (fun answer => answer = .error .strgEmpty) (findOccupied phone) db card := by
  intro fails
  rcases look_up core phone with ⟨hashSlot, identity, occupied, stored, rfl, run⟩ | ⟨absent, run⟩
  · have known := blind_findOccupied_known core occupied stored fails
    cases read : fails (readsBefore db.htable (contactPhones view.contact) identity.phone
        hashSlot) with
    | false => exact ⟨_, db, _, known.1 read, rfl, Or.inr (congrArg Prod.fst run)⟩
    | true =>
        obtain ⟨later, missed⟩ := known.2 read
        exact ⟨_, db, later, missed, rfl, Or.inl rfl⟩
  · obtain ⟨later, missed⟩ := blind_findOccupied_new core absent fails
    exact ⟨_, db, later, missed, rfl, Or.inl rfl⟩

end Lookup

section Programs

variable {K : Type} {key : Database → K}

theorem fragile_listContacts (count rank : Nat) (read : List Contact) :
    Fragile key (fun answer => answer.1 ≠ .strgOk) (listContacts count rank read) := by
  induction count generalizing rank read with
  | zero => exact fragile_pure _
  | succ count ih =>
      unfold listContacts
      apply fragile_get
      intro db
      split
      · exact fragile_pure _
      · apply fragile_get
        intro db
        apply (fragile_readContact _).orError
        · intro answer
          cases answer with
          | error ret => exact fragile_pure _
          | ok contact => exact ih _ _
        · exact fun ret bad memory faults card => bad

theorem fragile_listChats (count rank : Nat) (read : List ChatSummary) :
    Fragile key (fun answer => answer.1 ≠ .strgOk) (listChats count rank read) := by
  induction count generalizing rank read with
  | zero => exact fragile_pure _
  | succ count ih =>
      unfold listChats
      apply fragile_get
      intro db
      split
      · exact fragile_pure _
      · apply fragile_get
        intro db
        apply (fragile_readContact _).orError
        · intro answer
          cases answer with
          | error ret => exact fragile_pure _
          | ok contact =>
              apply (fragile_readNMessages _ _ _).bind
              · rintro ⟨ret, latest⟩
                cases ret with
                | strgOk => exact ih _ _
                | _ => exact fragile_pure _
              · rintro ⟨ret, latest⟩ bad memory faults card
                cases ret with
                | strgOk => exact absurd rfl bad
                | _ => exact bad
        · exact fun ret bad memory faults card => bad

theorem fragile_lowerBoundLoop (array : SortedArray) (probe : SortedArrayProbe)
    (fuel lo hi : Nat) (isMatch : Bool) :
    Fragile key Reports (lowerBoundLoop array probe fuel lo hi isMatch) := by
  induction fuel generalizing lo hi isMatch with
  | zero => exact fragile_pure _
  | succ fuel ih =>
      unfold lowerBoundLoop
      refine Fragile.ite ?_ (fragile_pure _)
      dsimp only
      split
      · exact fragile_pure _
      · have compared : ∀ entry, Fragile key Reports (probeCmp probe entry) := fun entry =>
          Fragile.ite (fragile_tiebreakFn _ _) (fragile_pure _)
        apply (compared _).orError
        · intro order
          cases order with
          | error ret => exact fragile_pure _
          | ok order => exact Fragile.ite (ih _ _ _) (ih _ _ _)
        · exact fun ret bad memory faults card => bad

theorem fragile_sortedArraySeek (text : List Byte) :
    Fragile key Reports (sortedArraySeek text) := by
  unfold sortedArraySeek
  refine Fragile.ite (fragile_pure _) ?_
  apply fragile_get
  intro db
  apply (fragile_lowerBoundLoop _ _ _ _ _ _).orError
  · intro answer
    cases answer with
    | error ret => exact fragile_pure _
    | ok found =>
        obtain ⟨rank, _⟩ := found
        exact fragile_pure _
  · exact fun ret bad memory faults card => bad

variable {E : Type} (layout : HistoryLayout E)

theorem fragile_readHistory (sectorIndex pos n : Nat) (read : List E) :
    Fragile key (fun answer => answer.1 ≠ .strgOk) (readHistory layout sectorIndex pos n read) := by
  unfold readHistory
  apply Fragile.orError (fragile_readSector _)
  · intro answer
    cases answer with
    | error ret => exact fragile_pure _
    | ok content => exact Fragile.ite (fragile_pure _) (fragile_pure _)
  · exact fun ret bad memory faults card => bad

theorem fragile_readOlderHistory (occupancy n sectorsLeft index : Nat) (read : List E) :
    Fragile key (fun answer => answer.1 ≠ .strgOk)
      (readOlderHistory layout occupancy n sectorsLeft index read) := by
  induction sectorsLeft generalizing index read with
  | zero => exact fragile_pure _
  | succ sectorsLeft ih =>
      unfold readOlderHistory
      refine Fragile.ite (fragile_pure _) ?_
      apply (fragile_readHistory layout _ _ _ _).bind
      · rintro ⟨ret, longer⟩
        cases ret with
        | strgOk => exact ih _ _
        | _ => exact fragile_pure _
      · rintro ⟨ret, longer⟩ bad memory faults card
        cases ret with
        | strgOk => exact absurd rfl bad
        | _ => exact bad

theorem fragile_historyGetRange (start n : Nat) :
    Fragile key (fun answer => answer.1 ≠ .strgOk) (historyGetRange layout start n) := by
  unfold historyGetRange
  apply fragile_get
  intro db
  apply Fragile.orError (fragile_readSector _)
  · intro answer
    cases answer with
    | error ret => exact fragile_pure _
    | ok content =>
        refine Fragile.ite (fragile_pure _) ?_
        refine Fragile.ite (fragile_pure _) ?_
        refine Fragile.ite (fragile_pure _) ?_
        apply (fragile_readHistory layout _ _ _ _).bind
        · rintro ⟨ret, read⟩
          cases ret with
          | strgOk => exact fragile_readOlderHistory layout _ _ _ _ _
          | _ => exact fragile_pure _
        · rintro ⟨ret, read⟩ bad memory faults card
          cases ret with
          | strgOk => exact absurd rfl bad
          | _ => exact bad
  · exact fun ret bad memory faults card => bad

end Programs

section Calls

variable {db : Database} {card : Card Sector} {view : View} {chain : Nat → List Nat}

theorem fragile_reply {A : Type} {program : DbM A} {refused : A → Prop}
    (fragile : FragileAt id refused program db card) (reply : A → Reply)
    (refuses : ∀ answer, refused answer → (reply answer).refuses) :
    FragileAt id Reply.refuses (do return reply (← program)) db card :=
  fragile.bind (fun _ last _ => fragile_pure _ last card)
    fun answer refusal _ _ _ => refuses answer refusal

variable (core : Core db card view chain)

include core

theorem fragile_contactGet (phone : Option CString) (out : Bool) :
    FragileAt id Reports (databaseContactGet phone out) db card := by
  unfold databaseContactGet
  split
  · apply (fragile_findOccupied core _).bind
    · intro found last _
      cases found with
      | error ret => exact fragile_pure _ last card
      | ok slot =>
          apply fragile_get
          exact fun memory => fragile_readContact _
    · rintro found rfl memory faults card ⟨⟩
  · exact fragile_pure _ _ _

theorem fragile_messageGetChat (phone : Option CString) (start n : Nat) (out : Bool) :
    FragileAt id (fun answer => answer.1 ≠ .strgOk) (databaseMessageGetChat phone start n out) db
      card := by
  unfold databaseMessageGetChat
  split
  · apply (fragile_findOccupied core _).bind
    · intro found last _
      cases found with
      | error ret => exact fragile_pure _ last card
      | ok slot =>
          apply fragile_get
          intro memory
          exact Fragile.ite (fragile_pure _) (fragile_readNMessages _ _ _)
    · rintro found rfl memory faults card ⟨⟩
  · exact fragile_pure _ _ _

theorem fragile_call {call : Call} (reads : call.reads) :
    FragileAt id Reply.refuses call.run db card := by
  cases call with
  | contactGet phone out => exact fragile_reply (fragile_contactGet core phone out) _ fun _ => id
  | contactList start n out =>
      have listed : Fragile id (fun answer => answer.1 ≠ .strgOk)
          (databaseContactList start n out) :=
        Fragile.ite (fragile_pure _) (fragile_get fun memory =>
          Fragile.ite (fragile_pure _) (fragile_listContacts _ _ _))
      exact fragile_reply (listed db card) (fun answer => .contacts answer.1 answer.2) fun _ => id
  | contactSeek text out =>
      have ranked : Fragile id Reports (databaseContactSeek text out) := by
        unfold databaseContactSeek
        split
        · exact fragile_sortedArraySeek _
        · exact fragile_pure _
      exact fragile_reply (ranked db card) _ fun _ => id
  | contactCount =>
      have counted : Fragile id (fun _ => False) databaseContactCount :=
        fragile_get fun memory => fragile_pure _
      exact fragile_reply (counted db card) _ fun _ => id
  | messageGetChat phone start n out =>
      exact fragile_reply (fragile_messageGetChat core phone start n out)
        (fun answer => .messages answer.1 answer.2) fun _ => id
  | messageRecent start n out =>
      have recent : Fragile id (fun answer => answer.1 ≠ .strgOk)
          (databaseMessageRecent start n out) :=
        Fragile.ite (fragile_pure _) (fragile_historyGetRange messageHistoryLayout start n)
      exact fragile_reply (recent db card) (fun answer => .recent answer.1 answer.2) fun _ => id
  | chatList start n out =>
      have listed : Fragile id (fun answer => answer.1 ≠ .strgOk) (databaseChatList start n out) :=
        Fragile.ite (fragile_pure _) (fragile_get fun memory =>
          Fragile.ite (fragile_pure _) (fragile_listChats _ _ _))
      exact fragile_reply (listed db card) (fun answer => .chats answer.1 answer.2) fun _ => id
  | chatCount =>
      have counted : Fragile id (fun _ => False) databaseChatCount :=
        fragile_get fun memory => fragile_pure _
      exact fragile_reply (counted db card) _ fun _ => id
  | callRecent start n out =>
      have recent : Fragile id (fun answer => answer.1 ≠ .strgOk) (databaseCallRecent start n out) :=
        Fragile.ite (fragile_pure _) (fragile_historyGetRange callHistoryLayout start n)
      exact fragile_reply (recent db card) (fun answer => .calls answer.1 answer.2) fun _ => id
  | _ => exact absurd reads Bool.false_ne_true

end Calls

/-- Reading calls behind one another, with any reads failing: the database stays as it is, and
every answer that reports no error is the true one. -/
theorem blind_answers_true {machine : Machine} (reachable : Reachable machine)
    (calls : List Call) (reads : ∀ call ∈ calls, call.reads) (fails : Nat → Bool) :
    ∃ answers later, exec (askCalls calls) machine.db (.blind fails) machine.card =
        ((answers, machine.db), .blind later, machine.card) ∧
      List.Forall₂ machine.AnswersTruly calls answers := by
  obtain ⟨model, view, chain, listing, mounted, _⟩ := reachable.sound
  induction calls generalizing fails with
  | nil => exact ⟨[], fails, rfl, .nil⟩
  | cons call rest ih =>
      obtain ⟨answer, last, middle, ran, kept, known⟩ :=
        fragile_call mounted.core (reads call List.mem_cons_self) fails
      have same : last = machine.db := kept
      rw [same] at ran known
      obtain ⟨answers, later, asked, truthful⟩ :=
        ih (fun other member => reads other (List.mem_cons_of_mem _ member)) middle
      refine ⟨answer :: answers, later, ?_, .cons ?_ truthful⟩
      · rw [askCalls, exec_bind_of ran, exec_bind_of asked]
        rfl
      · exact known.imp_right fun same => (congrArg Prod.fst same).symm

theorem blind_answers_true_example :
    ∃ answers later, exec (askCalls [.chatCount, .messageRecent 0 1 true]) exampleChatMachine.db
        (.blind fun index => decide (index = 0)) exampleChatMachine.card =
          ((answers, exampleChatMachine.db), .blind later, exampleChatMachine.card) ∧
      List.Forall₂ exampleChatMachine.AnswersTruly [.chatCount, .messageRecent 0 1 true] answers :=
  blind_answers_true example_chat_reachable _ (by simp [Call.reads]) _

/-- What `database_contact_get` answers when reads fail: a number that is not stored is never
found, and a stored one, whose record is read last in the lookup and once more behind it, is
answered as missing when the first of these two reads fails, with an error when the second one
fails, and truly otherwise. -/
theorem blind_contact_get {machine : Machine} (reachable : Reachable machine)
    {phone : Option CString} {number : List Byte} (valid : validPhone phone = some number) :
    ((machine.run (databaseContactGet phone true)).1 = .error .strgEmpty ∧
      ∀ fails, (exec (databaseContactGet phone true) machine.db (.blind fails)
        machine.card).1.1 = .error .strgEmpty) ∨
    ∃ hashSlot earlier record,
      (machine.run (findOccupied number)).1 = .ok hashSlot ∧
      readTrace (findOccupied number) machine.db .healthy machine.card =
        earlier ++ [contactBlock (machine.db.htable.htable hashSlot).sector] ∧
      readTrace (databaseContactGet phone true) machine.db .healthy machine.card =
        earlier ++ [contactBlock (machine.db.htable.htable hashSlot).sector,
          contactBlock (machine.db.htable.htable hashSlot).sector] ∧
      (machine.run (databaseContactGet phone true)).1 = .ok record ∧
      ∀ fails, (exec (databaseContactGet phone true) machine.db (.blind fails)
        machine.card).1.1 =
          if fails earlier.length then .error .strgEmpty
          else if fails (earlier.length + 1) then .error .strgFail else .ok record := by
  obtain ⟨model, view, chain, listing, mounted, _⟩ := reachable.sound
  have core := mounted.core
  unfold databaseContactGet
  rw [valid]
  dsimp only
  rcases look_up core number with ⟨hashSlot, identity, occupied, stored, rfl, run⟩ | ⟨absent, run⟩
  · right
    obtain ⟨earlier, trace, length⟩ := trace_findOccupied_known core occupied stored
    have record : storedContact machine.db.usageBitmap machine.card
        (machine.db.htable.htable hashSlot).sector = some identity.record := by
      rw [stored_contact_record core.holds.contacts, stored]
      rfl
    refine ⟨hashSlot, earlier, identity.record, congrArg Prod.fst (Machine.run_of run), trace, ?_,
      ?_, fun fails => ?_⟩
    · have found := (blind_findOccupied_known core occupied stored fun _ => false).1 rfl
      rw [healthy_blind, read_trace_bind_of found, trace]
      dsimp only
      rw [read_trace_get, trace_readContact (stored_contact_used record), List.append_assoc]
      rfl
    · rw [Machine.run_of (out_bind_both run
        (out_bind_both (out_get _ _) (out_readContact_slot core stored)))]
    · have known := blind_findOccupied_known core occupied stored fails
      rw [← length] at known
      cases own : fails earlier.length with
      | true =>
          obtain ⟨later, missed⟩ := known.2 own
          rw [exec_bind_of missed]
          rfl
      | false =>
          rw [exec_bind_of (known.1 own)]
          dsimp only
          rw [exec_bind_of (exec_get _ _ _), blind_readContact record, Nat.zero_add]
          rfl
  · left
    refine ⟨?_, fun fails => ?_⟩
    · rw [Machine.run, out_bind_of run]
      rfl
    · obtain ⟨later, missed⟩ := blind_findOccupied_new core absent fails
      rw [exec_bind_of missed]
      rfl

theorem blind_contact_get_example :
    ((exampleChatMachine.run (databaseContactGet (some exampleText) true)).1 =
        .error .strgEmpty ∧
      ∀ fails, (exec (databaseContactGet (some exampleText) true) exampleChatMachine.db
        (.blind fails) exampleChatMachine.card).1.1 = .error .strgEmpty) ∨
    ∃ hashSlot earlier record,
      (exampleChatMachine.run (findOccupied exampleText.val)).1 = .ok hashSlot ∧
      readTrace (findOccupied exampleText.val) exampleChatMachine.db .healthy
          exampleChatMachine.card =
        earlier ++ [contactBlock (exampleChatMachine.db.htable.htable hashSlot).sector] ∧
      readTrace (databaseContactGet (some exampleText) true) exampleChatMachine.db .healthy
          exampleChatMachine.card =
        earlier ++ [contactBlock (exampleChatMachine.db.htable.htable hashSlot).sector,
          contactBlock (exampleChatMachine.db.htable.htable hashSlot).sector] ∧
      (exampleChatMachine.run (databaseContactGet (some exampleText) true)).1 = .ok record ∧
      ∀ fails, (exec (databaseContactGet (some exampleText) true) exampleChatMachine.db
        (.blind fails) exampleChatMachine.card).1.1 =
          if fails earlier.length then .error .strgEmpty
          else if fails (earlier.length + 1) then .error .strgFail else .ok record :=
  blind_contact_get example_chat_reachable example_valid

end SdDatabase
