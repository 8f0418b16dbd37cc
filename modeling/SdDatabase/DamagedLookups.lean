import SdDatabase.ContactRecords
import SdDatabase.SectorDamage

/-!
# Lookups on damaged storage

`hash_find_contact` and `hash_find_message` return the code of a read as a `bool`, in which
only `STRG_FAIL` is false. An empty slot and a wrong checksum then look like a record that
was found, although nothing was written for the caller.
-/

namespace SdDatabase

open Bytes Device BitScan

set_option autoImplicit false

/-- A read that does not give the stored block fails or gives one with a wrong checksum. -/
def DamageShows (faults : Faults Sector) : Prop :=
  ∀ read block, faults.reads read = .returns block → sectorCrcValid block = false

/-- What a read behind a usage bit gives. -/
def guardedAnswer {A : Type} (used : Bool) (fault : ReadFault Sector) (stored : Sector)
    (parse : Sector → Except StrgRet A) : Except StrgRet A :=
  if used then
    match fault.answer stored with
    | none => .error .strgFail
    | some content => if sectorCrcValid content then parse content else .error .strgCorrupt
  else .error .strgEmpty

/-- The faults behind a read that a usage bit guards. -/
def afterGuarded (used : Bool) (faults : Faults Sector) : Faults Sector :=
  if used then faults.afterRead else faults

theorem DamageShows.after {faults : Faults Sector} (shows_ : DamageShows faults) (used : Bool) :
    DamageShows (afterGuarded used faults) := by
  cases used with
  | false => exact shows_
  | true => exact fun read => shows_ (read + 1)

section Answers

variable {A : Type} {used : Bool} {fault : ReadFault Sector} {stored : Sector}
  {parse : Sector → Except StrgRet A}

/-- The read fails, or it gives the stored block and its checksum is right. -/
def PlainRead (used : Bool) (fault : ReadFault Sector) (stored : Sector) : Prop :=
  used = true ∧ (fault = .fails ∨ fault = .healthy ∧ sectorCrcValid stored = true)

theorem guarded_answer_fails :
    guardedAnswer true .fails stored parse = .error .strgFail := rfl

theorem guarded_answer_healthy (valid : sectorCrcValid stored = true) :
    guardedAnswer true .healthy stored parse = parse stored :=
  if_pos valid

theorem guarded_answer_unreadable
    (seen : ∀ block, fault = .returns block → sectorCrcValid block = false)
    (unreadable : ¬PlainRead used fault stored) :
    ∃ ret, guardedAnswer used fault stored parse = .error ret ∧ ret.toBool = true ∧
      (used = true → ret = .strgCorrupt) := by
  cases used with
  | false => exact ⟨.strgEmpty, rfl, rfl, fun used => absurd used Bool.false_ne_true⟩
  | true =>
      have wrong : ∀ content, fault.answer stored = some content →
          sectorCrcValid content = false := by
        intro content answer
        cases fault with
        | fails => cases answer
        | healthy =>
            obtain rfl := Option.some.inj answer
            by_contra valid
            rw [Bool.not_eq_false] at valid
            exact unreadable ⟨rfl, Or.inr ⟨rfl, valid⟩⟩
        | returns block =>
            obtain rfl := Option.some.inj answer
            exact seen _ rfl
      refine ⟨.strgCorrupt, ?_, rfl, fun _ => rfl⟩
      unfold guardedAnswer
      rw [if_pos rfl]
      cases answer : fault.answer stored with
      | none =>
          cases fault with
          | fails => exact absurd ⟨rfl, Or.inl rfl⟩ unreadable
          | healthy => cases answer
          | returns block => cases answer
      | some content =>
          dsimp only
          rw [wrong content answer, if_neg Bool.false_ne_true]

end Answers

def contactBlock (index : Nat) : Nat :=
  u16 (u16 (index / contactSectorCapacity + contactDataStartSector + dataRegionStartSector))

def parseContact (index : Nat) (content : Sector) : Except StrgRet Contact :=
  if slotUsed (ofSector content) (index % contactSectorCapacity) then
    .ok (arrayGet (ofSector content : ContactSector).contacts (index % contactSectorCapacity) .zero)
  else .error .strgEmpty

def messageBlock (index : Nat) : Nat :=
  u16 (dataSectorToRaw (messageDataSector index))

def parseNewest (content : Sector) : Except StrgRet Message :=
  let mSector : MessageSector := ofSector content
  let msgCount := mSector.header.msgCount.toNat
  if messageSectorCapacity < msgCount ∨ msgCount = 0 then .error .strgFail
  else .ok (arrayGet mSector.messages (msgCount - 1) .zero)

section Runs

variable {db : Database} {card : Card Sector} {faults : Faults Sector}

theorem exec_checkUsageBit (dataSector : Nat) :
    exec (checkUsageBit dataSector) db faults card =
      ((usageBit db.usageBitmap (u16 dataSector), db), faults, card) := rfl

theorem exec_readSector (index : Nat) :
    exec (readSector index) db faults card =
      ((guardedAnswer true (faults.reads 0) (card (u16 index)) .ok, db), faults.afterRead,
        card) := by
  unfold readSector readSectorRaw
  rw [exec_bind, exec_bind, exec_readBlock]
  unfold guardedAnswer
  rw [if_pos rfl]
  dsimp only
  cases answer : (faults.reads 0).answer (card (u16 index)) with
  | none => rfl
  | some content =>
      dsimp only
      cases valid : sectorCrcValid content with
      | false => simp [valid]
      | true => simp [valid]

theorem exec_guarded {A : Type} (dataSector block : Nat) (parse : Sector → Except StrgRet A)
    {program : DbM (Except StrgRet A)}
    (steps : program = do
      if !(← checkUsageBit dataSector) then
        return .error .strgEmpty
      match ← readSector block with
      | .error ret => return .error ret
      | .ok content => return parse content) :
    exec program db faults card =
      ((guardedAnswer (usageBit db.usageBitmap (u16 dataSector)) (faults.reads 0)
        (card (u16 block)) parse, db),
        afterGuarded (usageBit db.usageBitmap (u16 dataSector)) faults, card) := by
  rw [steps, exec_bind_of (exec_checkUsageBit dataSector)]
  cases usageBit db.usageBitmap (u16 dataSector) with
  | false => rfl
  | true =>
      rw [Bool.not_true, if_neg Bool.false_ne_true, exec_bind_of (exec_readSector block)]
      unfold guardedAnswer afterGuarded
      rw [if_pos rfl, if_pos rfl, if_pos rfl]
      cases (faults.reads 0).answer (card (u16 block)) with
      | none => rfl
      | some content =>
          dsimp only
          cases valid : sectorCrcValid content with
          | false => simp
          | true => simp

theorem trace_readContact {index : Nat}
    (used : usageBit db.usageBitmap (u16 (index / contactSectorCapacity)) = true) :
    readTrace (readContact index) db faults card = [contactBlock index] := by
  unfold readContact readContactSector
  rw [read_trace_bind, exec_checkUsageBit, used]
  dsimp only
  rw [Bool.not_true, if_neg Bool.false_ne_true, read_trace_bind, trace_readSector]
  generalize exec (readSector _) db faults card = outcome
  rcases outcome with ⟨⟨answer | content, later⟩, rest⟩
  · rfl
  · dsimp only
    split <;> rfl

theorem exec_readContact (index : Nat) :
    exec (readContact index) db faults card =
      ((guardedAnswer (usageBit db.usageBitmap (u16 (index / contactSectorCapacity)))
        (faults.reads 0) (card (contactBlock index)) (parseContact index), db),
        afterGuarded (usageBit db.usageBitmap (u16 (index / contactSectorCapacity))) faults,
        card) := by
  apply exec_guarded
  unfold readContact readContactSector parseContact
  apply bind_congr
  intro used
  cases used with
  | false => rfl
  | true =>
      apply bind_congr
      intro answer
      cases answer with
      | error ret => rfl
      | ok content =>
          dsimp only
          cases slotUsed (ofSector content) (index % contactSectorCapacity) <;> rfl

theorem exec_readMessage (index : Nat) :
    exec (readMessage index 0) db faults card =
      ((guardedAnswer (usageBit db.usageBitmap (u16 (messageDataSector index)))
        (faults.reads 0) (card (messageBlock index)) parseNewest, db),
        afterGuarded (usageBit db.usageBitmap (u16 (messageDataSector index))) faults, card) := by
  apply exec_guarded
  unfold readMessage readMessageSector parseNewest
  rw [if_neg (Nat.not_lt_zero _)]
  apply bind_congr
  intro used
  cases used with
  | false => rfl
  | true =>
      apply bind_congr
      intro answer
      cases answer with
      | error ret => rfl
      | ok content =>
          dsimp only
          generalize (ofSector content : MessageSector).header.msgCount.toNat = msgCount
          by_cases large : messageSectorCapacity < msgCount
          · rw [if_pos large, if_pos (Or.inl large)]
          · by_cases empty : msgCount = 0
            · rw [if_neg large, if_pos (Nat.le_of_eq empty), if_pos (Or.inr empty)]
            · rw [if_neg large, if_neg (by omega), if_neg (by omega), Nat.sub_zero]

end Runs

/-- The record in a contact slot of a healthy card. -/
def slotRecord (db : Database) (card : Card Sector) (index : Nat) : Option Contact :=
  if usageBit db.usageBitmap (u16 (index / contactSectorCapacity)) = true ∧
      sectorCrcValid (card (contactBlock index)) = true then
    (parseContact index (card (contactBlock index))).toOption
  else none

/-- The newest message in a message sector of a healthy card. -/
def headMessage (db : Database) (card : Card Sector) (index : Nat) : Option Message :=
  if usageBit db.usageBitmap (u16 (messageDataSector index)) = true ∧
      sectorCrcValid (card (messageBlock index)) = true then
    (parseNewest (card (messageBlock index))).toOption
  else none

/-- An entry of the table names a slot that stores a record of this number. -/
def EntryOf (db : Database) (card : Card Sector) (number : List Byte) (slot : Nat)
    (record : Contact) : Prop :=
  (db.htable.htable slot).state = .occupied ∧
    slotRecord db card (db.htable.htable slot).sector = some record ∧ cstr record.phone = number

/-- `hash_find_contact` is true only with the stored contact of the number in `out`. -/
def ContactTruthful (contact : Contact) (phone : Option (List Byte)) (given : Bool)
    (db : Database) (faults : Faults Sector) (card : Card Sector) : Prop :=
  ∀ written, (exec (hashFindContact contact phone given) db faults card).1.1 = (true, written) →
    ∃ number slot record, phone = some number ∧ written = some record ∧
      EntryOf db card number slot record

/-- `hash_find_message` is true only with the newest message of the number's chat in `out`. -/
def MessageTruthful (contact : Contact) (phone : Option (List Byte)) (given : Bool)
    (db : Database) (faults : Faults Sector) (card : Card Sector) : Prop :=
  ∀ written, (exec (hashFindMessage contact phone given) db faults card).1.1 = (true, written) →
    ∃ number slot record newest, phone = some number ∧ written = some newest ∧
      EntryOf db card number slot record ∧ (db.htable.htable slot).latestMsgExtent ≠ uint16Max ∧
      headMessage db card (db.htable.htable slot).latestMsgExtent = some newest

/-- The search ends at this occupied entry, with these faults to come. -/
def SearchEnds (contact : Contact) (phone : Option (List Byte)) (given : Bool) (db : Database)
    (faults : Faults Sector) (card : Card Sector) (slot : Nat) (left : Faults Sector) : Prop :=
  exec (lookupEntry contact phone given) db faults card = ((some slot, db), left, card)

/-- The contact of an entry is read, or its read fails. -/
def ContactAnswers (db : Database) (card : Card Sector) (index : Nat) (fault : ReadFault Sector) :
    Prop :=
  usageBit db.usageBitmap (u16 (index / contactSectorCapacity)) = true ∧
    (fault = .fails ∨ fault = .healthy ∧ sectorCrcValid (card (contactBlock index)) = true ∧
      slotUsed (ofSector (card (contactBlock index))) (index % contactSectorCapacity) = true)

/-- The newest message of an entry is read and its contact is stored, or nothing is found in a
sector that can be read, or its read fails. -/
def MessageAnswers (db : Database) (card : Card Sector) (number : List Byte) (entry : HashEntry)
    (fault : ReadFault Sector) : Prop :=
  let msgCount :=
    (ofSector (card (messageBlock entry.latestMsgExtent)) : MessageSector).header.msgCount.toNat
  usageBit db.usageBitmap (u16 (messageDataSector entry.latestMsgExtent)) = true ∧
    (fault = .fails ∨
      fault = .healthy ∧ sectorCrcValid (card (messageBlock entry.latestMsgExtent)) = true ∧
        (messageSectorCapacity < msgCount ∨ msgCount = 0 ∨ slotRecord db card entry.sector ≠ none ∨
          -- the chat of another entry of the number ends with the same message
          ∃ other record, EntryOf db card number other record ∧
            (db.htable.htable other).latestMsgExtent ≠ uint16Max ∧
            headMessage db card (db.htable.htable other).latestMsgExtent =
              headMessage db card entry.latestMsgExtent))

section Lookups

variable {db : Database} {card : Card Sector} {faults : Faults Sector}

theorem read_contact_stored (shows_ : DamageShows faults) (index : Nat) :
    ∃ answer left, exec (readContact index) db faults card = ((answer, db), left, card) ∧
      DamageShows left ∧
      (∀ found, answer = .ok found → slotRecord db card index = some found) ∧
      (∀ ret, answer = .error ret → ¬(ret = .strgFail ∨ ret = .strgCorrupt) →
        slotRecord db card index = none) := by
  refine ⟨_, _, exec_readContact index, shows_.after _, ?_⟩
  unfold slotRecord
  cases used : usageBit db.usageBitmap (u16 (index / contactSectorCapacity)) with
  | false =>
      constructor
      · intro found answer
        cases answer
      · intro _ _ _
        exact if_neg fun both => Bool.false_ne_true both.1
  | true =>
      by_cases readable : PlainRead true (faults.reads 0) (card (contactBlock index))
      · rcases readable.2 with fails | ⟨healthy, valid⟩
        · rw [fails]
          constructor
          · intro found answer
            cases answer
          · intro ret answer counts
            exact absurd (Or.inl (Except.error.inj answer).symm) counts
        · rw [healthy, guarded_answer_healthy valid, if_pos ⟨rfl, valid⟩]
          constructor
          · intro found answer
            rw [answer]
            rfl
          · intro ret answer _
            rw [answer]
            rfl
      · obtain ⟨ret, answer, _, corrupt⟩ := @guarded_answer_unreadable _ _ _ _ (parseContact index)
          (shows_ 0) readable
        rw [answer]
        constructor
        · intro found same
          cases same
        · intro other same counts
          rw [← Except.error.inj same, corrupt rfl] at counts
          exact absurd (Or.inr rfl) counts

/-- The probe loop ends at an occupied entry only if a record stored there has the number. -/
theorem probe_ends (shows_ : DamageShows faults) (number : List Byte) (target h1 h2 : Nat)
    (count attempt : Nat) (contact : Contact) (firstFree : Option Nat)
    (free : ∀ slot, firstFree = some slot → (db.htable.htable slot).state ≠ .occupied) :
    ∃ found left, exec (probeFrom number target h1 h2 count attempt contact firstFree) db faults
        card = ((found, db), left, card) ∧ DamageShows left ∧
      ∀ slot, found = some slot → (db.htable.htable slot).state = .occupied →
        ∀ record, slotRecord db card (db.htable.htable slot).sector = some record →
          cstr record.phone = number := by
  induction count generalizing attempt contact firstFree faults with
  | zero => exact ⟨firstFree, faults, rfl, shows_, fun slot here occupied =>
      absurd occupied (free slot here)⟩
  | succ count ih =>
      unfold probeFrom
      rw [exec_bind_of (exec_get _ _ _)]
      dsimp only
      generalize indexEq : (h1 + attempt * h2) % db.htable.size = index
      cases state : (db.htable.htable index).state with
      | empty =>
          refine ⟨_, faults, rfl, shows_, fun slot here occupied => ?_⟩
          cases firstFree with
          | none =>
              obtain rfl := Option.some.inj here
              rw [Option.getD_none, state] at occupied
              cases occupied
          | some first =>
              obtain rfl := Option.some.inj here
              exact absurd occupied (free _ rfl)
      | deleted =>
          apply ih shows_
          intro slot here occupied
          cases firstFree with
          | none =>
              obtain rfl := Option.some.inj here
              rw [Option.getD_none, state] at occupied
              cases occupied
          | some first =>
              obtain rfl := Option.some.inj here
              exact absurd occupied (free _ rfl)
      | occupied =>
          dsimp only
          by_cases tag : (db.htable.htable index).id = target
          · rw [if_pos tag]
            obtain ⟨answer, left, read, leftShows, foundStored, noneStored⟩ :=
              @read_contact_stored db card _ shows_ (db.htable.htable index).sector
            rw [exec_bind_of read]
            cases answer with
            | ok found =>
                dsimp only
                by_cases match_ : cstr found.phone = number
                · rw [if_pos match_]
                  refine ⟨some index, left, rfl, leftShows, fun slot here _ record stored => ?_⟩
                  obtain rfl := Option.some.inj here
                  rw [foundStored found rfl] at stored
                  rw [← Option.some.inj stored]
                  exact match_
                · rw [if_neg match_]
                  exact ih leftShows _ _ _ free
            | error ret =>
                dsimp only
                by_cases missed : ret = .strgFail ∨ ret = .strgCorrupt
                · rw [if_pos missed]
                  exact ih leftShows _ _ _ free
                · rw [if_neg missed]
                  by_cases match_ : cstr contact.phone = number
                  · rw [if_pos match_]
                    refine ⟨some index, left, rfl, leftShows, fun slot here _ record stored => ?_⟩
                    obtain rfl := Option.some.inj here
                    rw [noneStored ret rfl missed] at stored
                    cases stored
                  · rw [if_neg match_]
                    exact ih leftShows _ _ _ free
          · rw [if_neg tag]
            exact ih shows_ _ _ _ free

theorem lookup_entry_ends (shows_ : DamageShows faults) (contact : Contact)
    (phone : Option (List Byte)) (given : Bool) :
    ∃ found left, exec (lookupEntry contact phone given) db faults card =
        ((found, db), left, card) ∧ DamageShows left ∧
      ∀ slot, found = some slot → (db.htable.htable slot).state = .occupied ∧
        ∃ number, phone = some number ∧
          ∀ record, slotRecord db card (db.htable.htable slot).sector = some record →
            cstr record.phone = number := by
  cases phone with
  | none => exact ⟨none, faults, rfl, shows_, fun slot here => by cases here⟩
  | some number =>
      unfold lookupEntry
      cases refused : !given || db.htable.size == 0 with
      | true =>
          refine ⟨none, faults, ?_, shows_, fun slot here => by cases here⟩
          rw [exec_bind_of (exec_get _ _ _), refused]
          rfl
      | false =>
          obtain ⟨found, left, run, leftShows, ends⟩ := @probe_ends db card _ shows_ number
            (hashPhone number) (hashPrimary (hashPhone number) (u16 db.htable.size))
            (hashSecondary (hashPhone number) (u16 db.htable.size)) db.htable.size 0 contact none
            fun slot here => by cases here
          have search : exec (hashFindEntryFrom contact number) db faults card =
              ((found, db), left, card) := run
          rw [exec_bind_of (exec_get _ _ _), refused]
          rw [if_neg Bool.false_ne_true, exec_bind_of search]
          cases found with
          | none => exact ⟨none, left, rfl, leftShows, fun slot here => by cases here⟩
          | some slot =>
              dsimp only
              rw [exec_bind_of (exec_get _ _ _)]
              by_cases occupied : (db.htable.htable slot).state = .occupied
              · rw [if_neg (not_not.mpr occupied)]
                refine ⟨some slot, left, rfl, leftShows, fun other here => ?_⟩
                obtain rfl := Option.some.inj here
                exact ⟨occupied, number, rfl, ends _ rfl occupied⟩
              · rw [if_pos occupied]
                exact ⟨none, left, rfl, leftShows, fun slot here => by cases here⟩

def reported {A : Type} : Except StrgRet A → Bool × Option A
  | .error ret => (ret.toBool, none)
  | .ok found => (StrgRet.strgOk.toBool, some found)

variable {contact : Contact} {phone : Option (List Byte)} {given : Bool} {slot : Nat}
  {left : Faults Sector}

theorem find_contact_reported (ends : SearchEnds contact phone given db faults card slot left) :
    (exec (hashFindContact contact phone given) db faults card).1.1 =
      reported (guardedAnswer
        (usageBit db.usageBitmap
          (u16 ((db.htable.htable slot).sector / contactSectorCapacity)))
        (left.reads 0) (card (contactBlock (db.htable.htable slot).sector))
        (parseContact (db.htable.htable slot).sector)) := by
  unfold hashFindContact
  rw [exec_bind_of ends]
  dsimp only
  rw [exec_bind_of (exec_get _ _ _), exec_bind_of (exec_readContact _)]
  cases guardedAnswer _ _ _ (parseContact (db.htable.htable slot).sector) <;> rfl

theorem find_message_reported (ends : SearchEnds contact phone given db faults card slot left) :
    (exec (hashFindMessage contact phone given) db faults card).1.1 =
      if (db.htable.htable slot).latestMsgExtent = uint16Max then (false, none)
      else reported (guardedAnswer
        (usageBit db.usageBitmap
          (u16 (messageDataSector (db.htable.htable slot).latestMsgExtent)))
        (left.reads 0) (card (messageBlock (db.htable.htable slot).latestMsgExtent))
        parseNewest) := by
  unfold hashFindMessage
  rw [exec_bind_of ends]
  dsimp only
  rw [exec_bind_of (exec_get _ _ _)]
  by_cases noChat : (db.htable.htable slot).latestMsgExtent = uint16Max
  · rw [if_pos noChat, if_pos noChat]
    rfl
  · rw [if_neg noChat, if_neg noChat, exec_bind_of (exec_readMessage _)]
    cases guardedAnswer _ _ _ parseNewest <;> rfl

theorem lookups_refuse (none_ : exec (lookupEntry contact phone given) db faults card =
    ((none, db), left, card)) :
    (exec (hashFindContact contact phone given) db faults card).1.1 = (false, none) ∧
      (exec (hashFindMessage contact phone given) db faults card).1.1 = (false, none) := by
  unfold hashFindContact hashFindMessage
  rw [exec_bind_of none_, exec_bind_of none_]
  exact ⟨rfl, rfl⟩

/-- A read that ends with any code but `STRG_FAIL` makes a lookup true with nothing in `out`. -/
theorem reported_unreadable {A : Type} {used : Bool} {fault : ReadFault Sector} {stored : Sector}
    {parse : Sector → Except StrgRet A}
    (seen : ∀ block, fault = .returns block → sectorCrcValid block = false)
    (unreadable : ¬PlainRead used fault stored) :
    reported (guardedAnswer used fault stored parse) = (true, none) := by
  obtain ⟨ret, answer, counts, _⟩ := @guarded_answer_unreadable _ _ _ _ parse seen unreadable
  rw [answer, reported, counts]

theorem contact_truthful_at (ends : SearchEnds contact phone given db faults card slot left)
    (leftShows : DamageShows left) (occupied : (db.htable.htable slot).state = .occupied)
    {number : List Byte} (named : phone = some number)
    (same : ∀ record, slotRecord db card (db.htable.htable slot).sector = some record →
      cstr record.phone = number) :
    ContactTruthful contact phone given db faults card ↔
      ContactAnswers db card (db.htable.htable slot).sector (left.reads 0) := by
  unfold ContactTruthful
  rw [find_contact_reported ends]
  obtain ⟨index, place⟩ : ∃ index, index = (db.htable.htable slot).sector := ⟨_, rfl⟩
  rw [← place] at same ⊢
  unfold ContactAnswers
  by_cases readable : PlainRead (usageBit db.usageBitmap (u16 (index / contactSectorCapacity)))
      (left.reads 0) (card (contactBlock index))
  · obtain ⟨used, fails | ⟨healthy, valid⟩⟩ := readable
    · rw [used, fails, guarded_answer_fails]
      exact iff_of_true (fun written answer => by cases answer) ⟨rfl, Or.inl rfl⟩
    · have stored : slotRecord db card index =
          (parseContact index (card (contactBlock index))).toOption := if_pos ⟨used, valid⟩
      rw [used, healthy, guarded_answer_healthy valid]
      cases bit : slotUsed (ofSector (card (contactBlock index)))
          (index % contactSectorCapacity) with
      | true =>
          obtain ⟨record, parsed⟩ :
              ∃ record, parseContact index (card (contactBlock index)) = .ok record :=
            ⟨_, if_pos bit⟩
          rw [parsed] at stored ⊢
          refine iff_of_true (fun written answer => ?_) ⟨rfl, Or.inr ⟨rfl, valid, rfl⟩⟩
          have entry : slotRecord db card (db.htable.htable slot).sector = some record := by
            rw [← place]
            exact stored
          exact ⟨number, slot, record, named, (congrArg Prod.snd answer).symm, occupied, entry,
            same record stored⟩
      | false =>
          have parsed : parseContact index (card (contactBlock index)) = .error .strgEmpty :=
            if_neg (by rw [bit]; exact Bool.false_ne_true)
          rw [parsed]
          refine iff_of_false (fun truthful => ?_) ?_
          · obtain ⟨_, _, record, _, written, _⟩ := truthful none rfl
            cases written
          · rintro ⟨_, fails | ⟨_, _, set⟩⟩
            · cases fails
            · cases set
  · rw [reported_unreadable (leftShows 0) readable]
    refine iff_of_false (fun truthful => ?_) ?_
    · obtain ⟨_, _, record, _, written, _⟩ := truthful none rfl
      cases written
    · rintro ⟨used, fails | ⟨healthy, valid, _⟩⟩
      · exact readable ⟨used, Or.inl fails⟩
      · exact readable ⟨used, Or.inr ⟨healthy, valid⟩⟩

theorem message_truthful_at (ends : SearchEnds contact phone given db faults card slot left)
    (leftShows : DamageShows left) (occupied : (db.htable.htable slot).state = .occupied)
    {number : List Byte} (named : phone = some number)
    (same : ∀ record, slotRecord db card (db.htable.htable slot).sector = some record →
      cstr record.phone = number) :
    MessageTruthful contact phone given db faults card ↔
      ((db.htable.htable slot).latestMsgExtent ≠ uint16Max →
        MessageAnswers db card number (db.htable.htable slot) (left.reads 0)) := by
  unfold MessageTruthful
  rw [find_message_reported ends]
  by_cases noChat : (db.htable.htable slot).latestMsgExtent = uint16Max
  · rw [if_pos noChat]
    exact iff_of_true (fun written answer => by cases answer) fun chat => absurd noChat chat
  · rw [if_neg noChat]
    unfold MessageAnswers
    obtain ⟨index, place⟩ : ∃ index, index = (db.htable.htable slot).latestMsgExtent := ⟨_, rfl⟩
    rw [← place] at noChat ⊢
    by_cases readable : PlainRead (usageBit db.usageBitmap (u16 (messageDataSector index)))
        (left.reads 0) (card (messageBlock index))
    · obtain ⟨used, fails | ⟨healthy, valid⟩⟩ := readable
      · rw [used, fails, guarded_answer_fails]
        exact iff_of_true (fun written answer => by cases answer) fun _ => ⟨rfl, Or.inl rfl⟩
      · have head : headMessage db card index =
            (parseNewest (card (messageBlock index))).toOption := if_pos ⟨used, valid⟩
        rw [used, healthy, guarded_answer_healthy valid]
        by_cases counted : messageSectorCapacity < (ofSector (card (messageBlock index)) :
            MessageSector).header.msgCount.toNat ∨ (ofSector (card (messageBlock index)) :
              MessageSector).header.msgCount.toNat = 0
        · have parsed : parseNewest (card (messageBlock index)) = .error .strgFail :=
            if_pos counted
          rw [parsed]
          exact iff_of_true (fun written answer => by cases answer) fun _ =>
            ⟨rfl, Or.inr ⟨rfl, valid, counted.imp id Or.inl⟩⟩
        · obtain ⟨newest, parsed⟩ :
              ∃ newest, parseNewest (card (messageBlock index)) = .ok newest :=
            ⟨_, if_neg counted⟩
          rw [parsed] at head ⊢
          have head_ : headMessage db card index = some newest := head
          constructor
          · intro truthful _
            obtain ⟨_, other, record, found, named_, written, entry, chat, last⟩ :=
              truthful (some newest) rfl
            obtain rfl := Option.some.inj (named.symm.trans named_)
            obtain rfl := Option.some.inj written
            exact ⟨rfl, Or.inr ⟨rfl, valid, Or.inr (Or.inr (Or.inr
              ⟨other, record, entry, chat, last.trans head_.symm⟩))⟩⟩
          · intro answers written answer
            obtain ⟨_, fails | ⟨_, _, large | empty | stored | coincides⟩⟩ := answers noChat
            · cases fails
            · exact absurd (Or.inl large) counted
            · exact absurd (Or.inr empty) counted
            · obtain ⟨record, stored⟩ := Option.ne_none_iff_exists'.mp stored
              refine ⟨number, slot, record, newest, named, (congrArg Prod.snd answer).symm,
                ⟨occupied, stored, same record stored⟩, ?_, ?_⟩
              · rw [← place]
                exact noChat
              · rw [← place]
                exact head_
            · obtain ⟨other, record, entry, chat, last⟩ := coincides
              exact ⟨number, other, record, newest, named, (congrArg Prod.snd answer).symm, entry,
                chat, last.trans head_⟩
    · rw [reported_unreadable (leftShows 0) readable]
      refine iff_of_false (fun truthful => ?_) (fun answers => ?_)
      · obtain ⟨_, _, _, newest, _, written, _⟩ := truthful none rfl
        cases written
      · rcases answers noChat with ⟨used, fails | ⟨healthy, valid, _⟩⟩
        · exact readable ⟨used, Or.inl fails⟩
        · exact readable ⟨used, Or.inr ⟨healthy, valid⟩⟩

/-- The lookups tell the truth exactly if the entry where the search ends answers so. -/
theorem boolean_lookups_truthful_iff (shows_ : DamageShows faults) (contact : Contact)
    (phone : Option (List Byte)) (given : Bool) :
    (ContactTruthful contact phone given db faults card ↔
      ∀ slot left, SearchEnds contact phone given db faults card slot left →
        ContactAnswers db card (db.htable.htable slot).sector (left.reads 0)) ∧
    (MessageTruthful contact phone given db faults card ↔
      ∀ number slot left, phone = some number →
        SearchEnds contact phone given db faults card slot left →
        (db.htable.htable slot).latestMsgExtent ≠ uint16Max →
          MessageAnswers db card number (db.htable.htable slot) (left.reads 0)) := by
  obtain ⟨found, left, run, leftShows, ends_⟩ :=
    @lookup_entry_ends db card _ shows_ contact phone given
  have only : ∀ slot later, SearchEnds contact phone given db faults card slot later →
      found = some slot ∧ left = later := by
    intro slot later ends
    have both := run.symm.trans ends
    rw [Prod.mk.injEq, Prod.mk.injEq, Prod.mk.injEq] at both
    exact ⟨both.1.1, both.2.1⟩
  cases found with
  | none =>
      obtain ⟨contact_, message_⟩ := lookups_refuse run
      unfold ContactTruthful MessageTruthful
      rw [contact_, message_]
      have nowhere : ∀ slot later, ¬SearchEnds contact phone given db faults card slot later :=
        fun slot later ends => Option.some_ne_none slot (only slot later ends).1.symm
      constructor
      · exact iff_of_true (fun written answer => by cases answer)
          fun slot later ends => absurd ends (nowhere slot later)
      · exact iff_of_true (fun written answer => by cases answer)
          fun _ slot later _ ends => absurd ends (nowhere slot later)
  | some slot =>
      obtain ⟨occupied, number, named, same⟩ := ends_ slot rfl
      constructor
      · rw [contact_truthful_at run leftShows occupied named same]
        constructor
        · intro answers other later ends
          obtain ⟨here, rfl⟩ := only other later ends
          obtain rfl := Option.some.inj here
          exact answers
        · intro answers
          exact answers slot left run
      · rw [message_truthful_at run leftShows occupied named same]
        constructor
        · intro answers _ other later named_ ends
          obtain ⟨here, rfl⟩ := only other later ends
          obtain rfl := Option.some.inj here
          obtain rfl := Option.some.inj (named.symm.trans named_)
          exact answers
        · intro answers
          exact answers number slot left named run

end Lookups

/-- A contact in slot 1; every other sector is damaged. -/
def exampleDamagedCard : Card Sector := fun raw =>
  if raw = contactRaw 0 then
    sectorCrcStamp (toSector (ContactSector.zero.put 1 (createContact [65#8] [49#8, 50#8])))
  else (sectorCrcStamp emptySector).replaceFront [1#8] (by decide)

/-- The contact has a chat in message sector 0, and its entry is the first on its path. -/
def exampleDamaged : Database :=
  { blankDatabase with
    htable := ⟨fun slot => if slot = 2 then ⟨hashPhone [49#8, 50#8], 1, 0, .occupied⟩ else .zero,
      1, 3⟩
    usageBitmap := setUsageBit (setUsageBit .zero 0 true) 1667 true }

theorem example_damaged_sector : exampleDamagedCard (contactBlock 1) =
    sectorCrcStamp (toSector (ContactSector.zero.put 1 (createContact [65#8] [49#8, 50#8]))) :=
  if_pos rfl

theorem example_damaged_contact :
    sectorCrcValid (exampleDamagedCard (contactBlock 1)) = true ∧
      parseContact 1 (exampleDamagedCard (contactBlock 1)) =
        .ok (createContact [65#8] [49#8, 50#8]) := by
  rw [example_damaged_sector]
  refine ⟨stamp_valid _, ?_⟩
  unfold parseContact
  rw [of_sector_stamp, of_to_sector]
  rfl

theorem example_damaged_used :
    usageBit exampleDamaged.usageBitmap (u16 (1 / contactSectorCapacity)) = true ∧
      usageBit exampleDamaged.usageBitmap (u16 (messageDataSector 0)) = true := by
  have both : usageBit exampleDamaged.usageBitmap 0 = true ∧
      usageBit exampleDamaged.usageBitmap 1667 = true := by
    simp [exampleDamaged]
  exact both

theorem example_damaged_read :
    exec (readContact 1) exampleDamaged .healthy exampleDamagedCard =
      ((.ok (createContact [65#8] [49#8, 50#8]), exampleDamaged), .healthy,
        exampleDamagedCard) := by
  have answer : guardedAnswer true ((Faults.healthy : Faults Sector).reads 0)
      (exampleDamagedCard (contactBlock 1)) (parseContact 1) = _ :=
    guarded_answer_healthy example_damaged_contact.1
  rw [exec_readContact, example_damaged_used.1, answer, example_damaged_contact.2]
  rfl

theorem example_damaged_search : SearchEnds .zero (some [49#8, 50#8]) true exampleDamaged .healthy
    exampleDamagedCard 2 .healthy := by
  have search : exec (hashFindEntryFrom .zero [49#8, 50#8]) exampleDamaged .healthy
      exampleDamagedCard = ((some 2, exampleDamaged), .healthy, exampleDamagedCard) := by
    have place : (hashPrimary (hashPhone [49#8, 50#8]) (u16 exampleDamaged.htable.size) +
        0 * hashSecondary (hashPhone [49#8, 50#8]) (u16 exampleDamaged.htable.size)) %
          exampleDamaged.htable.size = 2 := by
      decide
    have entry : exampleDamaged.htable.htable 2 =
        ⟨hashPhone [49#8, 50#8], 1, 0, .occupied⟩ := rfl
    have size : exampleDamaged.htable.size = 2 + 1 := rfl
    unfold hashFindEntryFrom
    rw [exec_bind_of (exec_get _ _ _)]
    dsimp only
    rw [size, probeFrom, exec_bind_of (exec_get _ _ _), ← size]
    dsimp only
    rw [place, entry]
    dsimp only
    rw [if_pos rfl, exec_bind_of example_damaged_read]
    rfl
  unfold SearchEnds lookupEntry
  rw [exec_bind_of (exec_get _ _ _)]
  exact exec_bind_of search

theorem boolean_lookups_truthful_contact :
    ContactTruthful .zero (some [49#8, 50#8]) true exampleDamaged .healthy exampleDamagedCard := by
  apply (boolean_lookups_truthful_iff (fun _ _ given => by cases given) _ _ _).1.mpr
  intro slot left ends
  have both := example_damaged_search.symm.trans ends
  rw [Prod.mk.injEq, Prod.mk.injEq, Prod.mk.injEq] at both
  obtain rfl := Option.some.inj both.1.1
  obtain rfl := both.2.1
  refine ⟨example_damaged_used.1, Or.inr ⟨rfl, example_damaged_contact.1, ?_⟩⟩
  have sector : (exampleDamaged.htable.htable 2).sector = 1 := rfl
  rw [sector, example_damaged_sector, of_sector_stamp, of_to_sector]
  rfl

/-- The message lookup is true for a chat whose sector is damaged, and writes nothing. -/
theorem message_lookup_claims_damaged :
    ¬MessageTruthful .zero (some [49#8, 50#8]) true exampleDamaged .healthy
      exampleDamagedCard := by
  have damaged : exampleDamagedCard (messageBlock 0) =
      (sectorCrcStamp emptySector).replaceFront [1#8] (by decide) := if_neg (by decide)
  have unreadable : ¬PlainRead true ((Faults.healthy : Faults Sector).reads 0)
      (exampleDamagedCard (messageBlock 0)) := by
    rintro ⟨_, fails | ⟨_, valid⟩⟩
    · cases fails
    · rw [damaged, burst_in_empty_sector_detected] at valid
      cases valid
  have latest : (exampleDamaged.htable.htable 2).latestMsgExtent = 0 := rfl
  have result := find_message_reported example_damaged_search
  rw [latest, if_neg (by decide), example_damaged_used.2,
    reported_unreadable (fun _ given => by cases given) unreadable] at result
  intro truthful
  obtain ⟨_, _, _, _, _, written, _⟩ := truthful none result
  cases written

end SdDatabase
