import SdDatabase.Mounted

/-!
# The abstract phone book

What the database is for, without table, card and indexes: the contacts in
listing order, each with its messages from the newest to the oldest, and the
phone numbers with messages in the order of their last message.
-/

namespace SdDatabase

open Bytes Device

set_option autoImplicit false

structure Person where
  identity : Identity
  chat : List Message

structure Model where
  people : List Person
  recent : List (List Byte)

/-- The contact that a name and a phone number given by a caller describe. -/
def checkedIdentity (name phone : Option CString) : Option Identity :=
  match name, phone with
  | some name, some phone =>
      if valid : name.val.length ≤ 64 ∧ phone.val.length ≤ 14 ∧ phone.val ≠ [] then
        some
          { name := name.val
            phone := phone.val
            nameShort := valid.1
            nameText := name.property
            phoneShort := valid.2.1
            phoneText := phone.property
            phoneGiven := valid.2.2 }
      else none
  | _, _ => none

def noName : CString := ⟨[], by simp⟩

namespace Model

def empty : Model := ⟨[], []⟩

def find (model : Model) (phone : List Byte) : Option Person :=
  model.people.find? fun person => decide (person.identity.phone = phone)

/-- The people with one more, in listing order. -/
def insert (person : Person) (people : List Person) : List Person :=
  people.takeWhile (fun other => decide (nameKey other.identity < nameKey person.identity)) ++
    person :: people.dropWhile fun other => decide (nameKey other.identity < nameKey person.identity)

def without (phone : List Byte) (people : List Person) : List Person :=
  people.filter fun person => decide (person.identity.phone ≠ phone)

/-- The phone number moves to the front of the recency list. -/
def touch (phone : List Byte) (recent : List (List Byte)) : List (List Byte) :=
  phone :: recent.erase phone

def addContact (name phone : Option CString) (model : Model) : StrgRet × Model :=
  match checkedIdentity name phone with
  | none => (.strgFail, model)
  | some identity =>
      if (model.find identity.phone).isSome then (.strgExists, model)
      else if hashTableEntries ≤ model.people.length then (.strgFull, model)
      else (.strgOk, { model with people := insert ⟨identity, []⟩ model.people })

def updateContact (phone newName newPhone : Option CString) (model : Model) : StrgRet × Model :=
  match validPhone phone, checkedIdentity newName newPhone with
  | some phone, some identity =>
      match model.find phone with
      | none => (.strgEmpty, model)
      | some person =>
          if identity.phone ≠ phone ∧ (model.find identity.phone).isSome then (.strgExists, model)
          else
            (.strgOk,
              { people := insert ⟨identity, person.chat⟩ (without phone model.people)
                recent := model.recent.map fun other =>
                  if other = phone then identity.phone else other })
  | _, _ => (.strgFail, model)

def removeContact (phone : Option CString) (model : Model) : StrgRet × Model :=
  match validPhone phone with
  | none => (.strgFail, model)
  | some phone =>
      if (model.find phone).isNone then (.strgEmpty, model)
      else (.strgOk, ⟨without phone model.people, model.recent.erase phone⟩)

def addMessage (phone : Option CString) (timestamp : BitVec 32) (direction : Bool)
    (str : Option CString) (model : Model) : StrgRet × Model :=
  match checkedIdentity (some noName) phone, str with
  | some unnamed, some str =>
      if timestamp = 0#32 then (.strgFail, model)
      else
        let message := createMessage timestamp direction str.val
        match model.find unnamed.phone with
        | some person =>
            (.strgOk,
              { people := insert ⟨person.identity, message :: person.chat⟩
                  (without unnamed.phone model.people)
                recent := touch unnamed.phone model.recent })
        | none =>
            if hashTableEntries ≤ model.people.length then (.strgFail, model)
            else
              (.strgOk,
                { people := insert ⟨unnamed, [message]⟩ model.people
                  recent := touch unnamed.phone model.recent })
  | _, _ => (.strgFail, model)

def removeChat (phone : Option CString) (model : Model) : StrgRet × Model :=
  match validPhone phone with
  | none => (.strgFail, model)
  | some phone =>
      match model.find phone with
      | none => (.strgEmpty, model)
      | some person =>
          if person.chat = [] then (.strgEmpty, model)
          else
            (.strgOk,
              { people := insert ⟨person.identity, []⟩ (without phone model.people)
                recent := model.recent.erase phone })

def getContact (phone : Option CString) (out : Bool) (model : Model) : Except StrgRet Contact :=
  match out, validPhone phone with
  | true, some phone =>
      match model.find phone with
      | none => .error .strgEmpty
      | some person => .ok person.identity.record
  | _, _ => .error .strgFail

def listContacts (start n : Nat) (out : Bool) (model : Model) : StrgRet × List Contact :=
  if !out then (.strgFail, [])
  else if model.people.length ≤ start then (.strgEmpty, [])
  else (.strgOk, ((model.people.drop start).take n).map fun person => person.identity.record)

/-- The number of contacts whose folded name comes before the folded text. -/
def seekContact (text : Option CString) (out : Bool) (model : Model) : Except StrgRet Nat :=
  match out, validStr text maxNameLen with
  | true, some text => .ok (model.people.countP fun person =>
      decide (comparedBytes true person.identity.name < comparedBytes true text))
  | _, _ => .error .strgFail

def getChat (phone : Option CString) (start n : Nat) (out : Bool) (model : Model) :
    StrgRet × List Message :=
  match out, validPhone phone with
  | true, some phone =>
      match model.find phone with
      | none => (.strgEmpty, [])
      | some person =>
          if person.chat = [] then (.strgEmpty, [])
          else if n = 0 then (.strgOk, [])
          else if person.chat.length ≤ start then (.strgFail, [])
          else (.strgOk, (person.chat.drop start).take n)
  | _, _ => (.strgFail, [])

/-- What the list of chats shows for a phone number. -/
def summary (model : Model) (phone : List Byte) : Option ChatSummary :=
  (model.find phone).map fun person => ⟨person.identity.record, person.chat.headD .zero⟩

def listChats (start n : Nat) (out : Bool) (model : Model) : StrgRet × List ChatSummary :=
  if !out then (.strgFail, [])
  else if model.recent.length ≤ start then (.strgEmpty, [])
  else (.strgOk, ((model.recent.drop start).take n).filterMap model.summary)

def addCall (phone : Option CString) : StrgRet :=
  match validPhone phone with
  | none => .strgFail
  | some _ => .strgOk

/-- The reply to a call, but for the two calls that read a history. -/
def reply (call : Call) (model : Model) : Option Reply :=
  match call with
  | .contactAdd name phone => some (.status (addContact name phone model).1)
  | .contactGet phone out => some (.contact (getContact phone out model))
  | .contactUpdate phone newName newPhone =>
      some (.status (updateContact phone newName newPhone model).1)
  | .contactRemove phone => some (.status (removeContact phone model).1)
  | .contactList start n out =>
      let (ret, read) := listContacts start n out model
      some (.contacts ret read)
  | .contactSeek text out => some (.rank (seekContact text out model))
  | .contactCount => some (.count model.people.length)
  | .messageAdd phone timestamp direction str =>
      some (.status (addMessage phone timestamp direction str model).1)
  | .messageGetChat phone start n out =>
      let (ret, read) := getChat phone start n out model
      some (.messages ret read)
  | .messageRemoveChat phone => some (.status (removeChat phone model).1)
  | .chatList start n out =>
      let (ret, read) := listChats start n out model
      some (.chats ret read)
  | .chatCount => some (.count model.recent.length)
  | .callAdd phone => some (.status (addCall phone))
  | .messageRecent .. | .callRecent .. => none

/-- The phone book after a call; only five calls change it. -/
def next (call : Call) (model : Model) : Model :=
  match call with
  | .contactAdd name phone => (addContact name phone model).2
  | .contactUpdate phone newName newPhone => (updateContact phone newName newPhone model).2
  | .contactRemove phone => (removeContact phone model).2
  | .messageAdd phone timestamp direction str =>
      (addMessage phone timestamp direction str model).2
  | .messageRemoveChat phone => (removeChat phone model).2
  | _ => model

end Model

def personAt (db : Database) (view : View) (chain : Nat → List Nat) (item : Nat × Identity) :
    Person :=
  ⟨item.2, chatOf view chain (db.htable.htable item.1).sector⟩

def phoneAt (db : Database) (view : View) (hashSlot : Nat) : List Byte :=
  ((contactAt db.htable view.contact hashSlot).map Identity.phone).getD []

def modelOf (db : Database) (view : View) (chain : Nat → List Nat) (listing : Listing) : Model where
  people := listing.map (personAt db view chain)
  recent := db.chatOrder.mem.map (phoneAt db view)

section ModelOf

variable {db : Database} {card : Card Sector} {view : View} {chain : Nat → List Nat}
  {listing : Listing}

theorem phone_at_listed {hashSlot : Nat} {identity : Identity}
    (occupied : (db.htable.htable hashSlot).state = .occupied)
    (stored : view.contact (db.htable.htable hashSlot).sector = some identity) :
    phoneAt db view hashSlot = identity.phone := by
  rw [phoneAt, contact_at_occupied occupied, stored]
  rfl

theorem model_find (mounted : Mounted db card view chain listing) {hashSlot : Nat}
    {identity : Identity} (occupied : (db.htable.htable hashSlot).state = .occupied)
    (stored : view.contact (db.htable.htable hashSlot).sector = some identity) :
    (modelOf db view chain listing).find identity.phone =
      some ⟨identity, chatOf view chain (db.htable.htable hashSlot).sector⟩ := by
  have member := mounted.listed_of occupied stored
  have unique : ∀ item ∈ listing, item.2.phone = identity.phone → item = (hashSlot, identity) := by
    intro item inListing same
    obtain ⟨otherOccupied, otherStored⟩ := mounted.listed_contact inListing
    have place := mounted.core.distinct _ _ _ _ otherStored stored same
    have slot := mounted.core.table.separate _ _ otherOccupied occupied place
    exact mounted.names.separate inListing member slot
  rw [Model.find, modelOf, List.find?_map]
  cases found : listing.find? ((fun person : Person => decide (person.identity.phone =
      identity.phone)) ∘ personAt db view chain) with
  | none =>
      have none_ := List.find?_eq_none.mp found _ member
      simp [personAt] at none_
  | some item =>
      have known := List.find?_some found
      have inListing := List.mem_of_find?_eq_some found
      rw [unique item inListing (of_decide_eq_true known)]
      rfl

theorem model_find_none (mounted : Mounted db card view chain listing) {phone : List Byte}
    (absent : ∀ sector identity, view.contact sector = some identity → identity.phone ≠ phone) :
    (modelOf db view chain listing).find phone = none := by
  rw [Model.find, modelOf, List.find?_eq_none]
  intro person member
  obtain ⟨item, inListing, rfl⟩ := List.mem_map.mp member
  have other := absent _ item.2 (mounted.listed_contact inListing).2
  rw [decide_eq_true_eq]
  exact other

theorem checked_identity_some {name phone : Option CString} {identity : Identity}
    (checked : checkedIdentity name phone = some identity) :
    validStr name maxNameLen = some identity.name ∧ validPhone phone = some identity.phone := by
  unfold checkedIdentity at checked
  split at checked
  · rename_i givenName givenPhone
    split at checked
    · rename_i valid
      obtain rfl := Option.some_injective _ checked
      constructor
      · simp [validStr, valid.1]
      · simp [validPhone, validStr, valid.2.1, valid.2.2]
    · cases checked
  · cases checked

theorem checked_identity_none {name phone : Option CString}
    (checked : checkedIdentity name phone = none) :
    validStr name maxNameLen = none ∨ validPhone phone = none := by
  unfold checkedIdentity at checked
  split at checked
  · rename_i givenName givenPhone
    split at checked
    · cases checked
    · rename_i invalid
      by_cases short : givenName.val.length ≤ 64
      · right
        by_cases phoneShort : givenPhone.val.length ≤ 14
        · have none_ : givenPhone.val = [] := by
            by_contra some_
            exact invalid ⟨short, phoneShort, some_⟩
          simp [validPhone, validStr, none_]
        · simp [validPhone, validStr, phoneShort]
      · left
        simp [validStr, short]
  · rename_i missing
    cases name with
    | none => exact Or.inl rfl
    | some name =>
        cases phone with
        | none => exact Or.inr rfl
        | some phone => exact absurd rfl (missing name phone rfl)

theorem valid_phone_identity {phone : Option CString} {text : List Byte}
    (valid : validPhone phone = some text) :
    ∃ unnamed, checkedIdentity (some noName) phone = some unnamed ∧ unnamed.phone = text ∧
      unnamed.name = [] := by
  cases checked : checkedIdentity (some noName) phone with
  | none =>
      rcases checked_identity_none checked with noText | noPhone
      · simp [validStr, noName] at noText
      · rw [valid] at noPhone
        cases noPhone
  | some unnamed =>
      obtain ⟨name, number⟩ := checked_identity_some checked
      refine ⟨unnamed, rfl, ?_, ?_⟩
      · exact Option.some_injective _ (number.symm.trans valid)
      · have given : validStr (some noName) maxNameLen = some [] := by simp [validStr, noName]
        exact Option.some_injective _ (name.symm.trans given)

end ModelOf

end SdDatabase
