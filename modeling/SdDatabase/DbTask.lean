import SdDatabase.Database

/-!
# The database task

`db_task.c`: clients post requests to the task that owns the database. The type
of a request picks a handler, the handler runs one call of the database, and the
response goes to the queue that the request names.
-/

namespace SdDatabase

open Device

set_option autoImplicit false

/-- A terminated string in a `char` array of `size` bytes. -/
abbrev CharArray (size : Nat) := { text : CString // text.val.length < size }

inductive DbRequestType where
  | contactAdd
  | contactGet
  | contactUpdate
  | contactRemove
  | contactList
  | contactSeek
  | contactCount
  | messageAdd
  | messageGetChat
  | messageRemoveChat
  | messageRecent
  | chatList
  | callAdd
  | callRecent
  | stop
  deriving DecidableEq, Repr

namespace DbRequestType

/-- The enumerators, each at the index that is its value. -/
def all : List DbRequestType :=
  [contactAdd, contactGet, contactUpdate, contactRemove, contactList, contactSeek, contactCount,
    messageAdd, messageGetChat, messageRemoveChat, messageRecent, chatList, callAdd, callRecent,
    stop]

def code (type : DbRequestType) : BitVec 32 := BitVec.ofNat 32 (all.idxOf type)

/-- The enumerator of a value that another task wrote. -/
def ofCode (value : BitVec 32) : Option DbRequestType := all[value.toNat]?

example : code messageAdd = 7#32 := by decide

end DbRequestType

def dbReqCount : Nat := 15

theorem of_code_none (value : BitVec 32) :
    DbRequestType.ofCode value = none ↔ dbReqCount ≤ value.toNat :=
  List.getElem?_eq_none_iff

structure DbPhoneArgs where
  phone : CharArray (maxPhoneLen + 1)

structure DbContactAddArgs where
  phone : CharArray (maxPhoneLen + 1)
  name : CharArray (maxNameLen + 1)

structure DbContactUpdateArgs where
  phone : CharArray (maxPhoneLen + 1)
  newPhone : CharArray (maxPhoneLen + 1)
  newName : CharArray (maxNameLen + 1)

structure DbContactSeekArgs where
  text : CharArray (maxNameLen + 1)

/-- `out` tells whether the caller's buffer is there. -/
structure DbRangeArgs where
  start : Nat
  n : Nat
  out : Bool

structure DbChatArgs where
  phone : CharArray (maxPhoneLen + 1)
  start : Nat
  n : Nat
  out : Bool

structure DbMessageAddArgs where
  phone : CharArray (maxPhoneLen + 1)
  timestamp : BitVec 32
  direction : Bool
  str : CharArray (smsMaxMessageLength + 1)

/-- The union of the arguments, as each of its members reads. -/
structure DbRequestArgs where
  phone : DbPhoneArgs
  contactAdd : DbContactAddArgs
  contactUpdate : DbContactUpdateArgs
  contactSeek : DbContactSeekArgs
  range : DbRangeArgs
  chat : DbChatArgs
  messageAdd : DbMessageAddArgs

/-- `replyQ` names a queue; `none` is the null pointer. -/
structure DbRequest where
  type : BitVec 32
  replyQ : Option Nat
  tag : BitVec 32
  args : DbRequestArgs

/-- `result` is what the handler wrote to the response and to the caller's buffer. -/
structure DbResponse where
  type : BitVec 32
  tag : BitVec 32
  ret : StrgRet
  result : Option Reply

def Reply.ret : Reply → StrgRet
  | .status ret => ret
  | .contact (.ok _) => .strgOk
  | .contact (.error ret) => ret
  | .contacts ret _ => ret
  | .rank (.ok _) => .strgOk
  | .rank (.error ret) => ret
  | .count _ => .strgOk
  | .messages ret _ => ret
  | .recent ret _ => ret
  | .chats ret _ => ret
  | .calls ret _ => ret

abbrev DbHandler := DbRequestArgs → DbM (StrgRet × Option Reply)

/-- A handler that returns what one call of the database returns. -/
def handleCall (call : DbRequestArgs → Call) : DbHandler := fun args => do
  let reply ← (call args).run
  return (reply.ret, some reply)

def handleContactAdd : DbHandler :=
  handleCall fun args => .contactAdd args.contactAdd.name.val args.contactAdd.phone.val

def handleContactGet : DbHandler :=
  handleCall fun args => .contactGet args.phone.phone.val true

def handleContactUpdate : DbHandler :=
  handleCall fun args => .contactUpdate args.contactUpdate.phone.val
    args.contactUpdate.newName.val args.contactUpdate.newPhone.val

def handleContactRemove : DbHandler :=
  handleCall fun args => .contactRemove args.phone.phone.val

def handleContactList : DbHandler :=
  handleCall fun args => .contactList args.range.start args.range.n args.range.out

def handleContactSeek : DbHandler :=
  handleCall fun args => .contactSeek args.contactSeek.text.val true

def handleContactCount : DbHandler :=
  handleCall fun _ => .contactCount

def handleMessageAdd : DbHandler :=
  handleCall fun args => .messageAdd args.messageAdd.phone.val args.messageAdd.timestamp
    args.messageAdd.direction args.messageAdd.str.val

def handleMessageGetChat : DbHandler :=
  handleCall fun args => .messageGetChat args.chat.phone.val args.chat.start args.chat.n
    args.chat.out

def handleMessageRemoveChat : DbHandler :=
  handleCall fun args => .messageRemoveChat args.phone.phone.val

def handleMessageRecent : DbHandler :=
  handleCall fun args => .messageRecent args.range.start args.range.n args.range.out

def handleCallAdd : DbHandler :=
  handleCall fun args => .callAdd args.phone.phone.val

def handleChatList : DbHandler :=
  handleCall fun args => .chatList args.range.start args.range.n args.range.out

def handleCallRecent : DbHandler :=
  handleCall fun args => .callRecent args.range.start args.range.n args.range.out

def handleStop : DbHandler := fun _ => return (.strgOk, none)

def DbRequestType.handler : DbRequestType → DbHandler
  | contactAdd => handleContactAdd
  | contactGet => handleContactGet
  | contactUpdate => handleContactUpdate
  | contactRemove => handleContactRemove
  | contactList => handleContactList
  | contactSeek => handleContactSeek
  | contactCount => handleContactCount
  | messageAdd => handleMessageAdd
  | messageGetChat => handleMessageGetChat
  | messageRemoveChat => handleMessageRemoveChat
  | messageRecent => handleMessageRecent
  | chatList => handleChatList
  | callAdd => handleCallAdd
  | callRecent => handleCallRecent
  | stop => handleStop

/-- `db_handlers`, by the value of the type. -/
def dbHandlers : List DbHandler := DbRequestType.all.map DbRequestType.handler

/-- `db_handle` up to the reply. -/
def dbHandle (mountRet : StrgRet) (request : DbRequest) : DbM DbResponse := do
  let response : DbResponse := ⟨request.type, request.tag, .strgFail, none⟩
  if mountRet ≠ .strgOk ∧ request.type ≠ DbRequestType.stop.code then
    -- not mounted: report why instead of touching the database
    return { response with ret := mountRet }
  else
    match dbHandlers[request.type.toNat]? with
    | none => return response
    | some handler =>
        let (ret, result) ← handler request.args
        return { response with ret := ret, result := result }

/-- The database in memory with its card, and what the card will do. -/
structure Store where
  db : Database
  faults : Faults Sector
  card : Card Sector

def Store.exec {A : Type} (store : Store) (program : DbM A) : A × Store :=
  let outcome := Device.exec program store.db store.faults store.card
  (outcome.1.1, ⟨outcome.1.2, outcome.2.1, outcome.2.2⟩)

theorem Store.exec_bind {A B : Type} (store : Store) (program : DbM A) (rest : A → DbM B) :
    store.exec (program >>= rest) = (store.exec program).2.exec (rest (store.exec program).1) := by
  simp only [Store.exec, Device.exec_bind]

def DbRequest.call (request : DbRequest) : Option Call :=
  let args := request.args
  match DbRequestType.ofCode request.type with
  | some .contactAdd => some (.contactAdd args.contactAdd.name.val args.contactAdd.phone.val)
  | some .contactGet => some (.contactGet args.phone.phone.val true)
  | some .contactUpdate => some (.contactUpdate args.contactUpdate.phone.val
      args.contactUpdate.newName.val args.contactUpdate.newPhone.val)
  | some .contactRemove => some (.contactRemove args.phone.phone.val)
  | some .contactList => some (.contactList args.range.start args.range.n args.range.out)
  | some .contactSeek => some (.contactSeek args.contactSeek.text.val true)
  | some .contactCount => some .contactCount
  | some .messageAdd => some (.messageAdd args.messageAdd.phone.val args.messageAdd.timestamp
      args.messageAdd.direction args.messageAdd.str.val)
  | some .messageGetChat => some (.messageGetChat args.chat.phone.val args.chat.start
      args.chat.n args.chat.out)
  | some .messageRemoveChat => some (.messageRemoveChat args.phone.phone.val)
  | some .messageRecent => some (.messageRecent args.range.start args.range.n args.range.out)
  | some .chatList => some (.chatList args.range.start args.range.n args.range.out)
  | some .callAdd => some (.callAdd args.phone.phone.val)
  | some .callRecent => some (.callRecent args.range.start args.range.n args.range.out)
  | some .stop => none
  | none => none

def DbRequest.respond (request : DbRequest) (ret : StrgRet) (result : Option Reply) : DbResponse :=
  ⟨request.type, request.tag, ret, result⟩

/-- What a client that has the store to itself gets for the request. -/
def answer (mountRet : StrgRet) (store : Store) (request : DbRequest) : DbResponse × Store :=
  if request.type = DbRequestType.stop.code then (request.respond .strgOk none, store)
  else if mountRet ≠ .strgOk then (request.respond mountRet none, store)
  else
    match request.call with
    | none => (request.respond .strgFail none, store)
    | some call =>
        let outcome := store.exec call.run
        (request.respond outcome.1.ret (some outcome.1), outcome.2)

section Handling

variable (mountRet : StrgRet) (store : Store) (request : DbRequest)

theorem exec_handler (type : DbRequestType) (known : DbRequestType.ofCode request.type = some type)
    (call : Call) (asked : request.call = some call) :
    store.exec (type.handler request.args) =
      ((((store.exec call.run).1).ret, some (store.exec call.run).1), (store.exec call.run).2) := by
  have runs : type.handler request.args = (do
      let reply ← call.run
      return (reply.ret, some reply)) := by
    unfold DbRequest.call at asked
    rw [known] at asked
    cases type <;> cases asked <;> rfl
  rw [runs, Store.exec_bind]
  rfl

theorem call_none (type : DbRequestType) (known : DbRequestType.ofCode request.type = some type)
    (none_ : request.call = none) : type = .stop := by
  unfold DbRequest.call at none_
  rw [known] at none_
  cases type <;> first | rfl | cases none_

theorem type_of_code (type : DbRequestType) (known : DbRequestType.ofCode request.type = some type) :
    request.type = type.code := by
  have place : request.type.toNat < DbRequestType.all.length :=
    (List.getElem?_eq_some_iff.mp known).1
  have value : DbRequestType.all[request.type.toNat] = type :=
    (List.getElem?_eq_some_iff.mp known).2
  have distinct : DbRequestType.all.Nodup := by decide
  rw [DbRequestType.code, ← value, distinct.idxOf_getElem _ place, BitVec.ofNat_toNat,
    BitVec.setWidth_eq]

theorem db_handle_answer : store.exec (dbHandle mountRet request) = answer mountRet store request := by
  unfold dbHandle answer
  by_cases stops : request.type = DbRequestType.stop.code
  · have handler : dbHandlers[request.type.toNat]? = some handleStop := by
      rw [stops]
      rfl
    rw [if_neg (fun both => both.2 stops), if_pos stops, handler]
    rfl
  · rw [if_neg stops]
    by_cases mounted : mountRet = .strgOk
    · rw [if_neg (fun both => both.1 mounted), if_neg (fun other => other mounted)]
      have looked : dbHandlers[request.type.toNat]? =
          (DbRequestType.ofCode request.type).map DbRequestType.handler := List.getElem?_map
      rw [looked]
      cases known : DbRequestType.ofCode request.type with
      | none =>
          have noCall : request.call = none := by
            unfold DbRequest.call
            rw [known]
          rw [noCall]
          rfl
      | some type =>
          cases asked : request.call with
          | none =>
              have isStop := call_none request type known asked
              rw [isStop] at known
              exact absurd (type_of_code request .stop known) stops
          | some call =>
              rw [Option.map_some]
              change store.exec (type.handler request.args >>= _) = _
              rw [Store.exec_bind, exec_handler store request type known call asked]
              rfl
    · rw [if_pos ⟨mounted, stops⟩, if_pos mounted]
      rfl

theorem answer_type_tag : (answer mountRet store request).1.type = request.type ∧
    (answer mountRet store request).1.tag = request.tag := by
  unfold answer
  split
  · exact ⟨rfl, rfl⟩
  · split
    · exact ⟨rfl, rfl⟩
    · split <;> exact ⟨rfl, rfl⟩

theorem answer_unknown (unknown : dbReqCount ≤ request.type.toNat) :
    answer .strgOk store request = (request.respond .strgFail none, store) := by
  have notStop : request.type ≠ DbRequestType.stop.code := by
    intro same
    rw [same] at unknown
    exact absurd unknown (by decide)
  have noCall : request.call = none := by
    unfold DbRequest.call
    rw [(of_code_none request.type).mpr unknown]
  unfold answer
  rw [if_neg notStop, if_neg (fun other => other rfl), noCall]

theorem answer_unmounted (failed : mountRet ≠ .strgOk) :
    (answer mountRet store request).2 = store ∧
      (request.type ≠ DbRequestType.stop.code →
        (answer mountRet store request).1.ret = mountRet) := by
  unfold answer
  by_cases stops : request.type = DbRequestType.stop.code
  · rw [if_pos stops]
    exact ⟨rfl, fun other => absurd stops other⟩
  · rw [if_neg stops, if_pos failed]
    exact ⟨rfl, fun _ => rfl⟩

end Handling

/-- The responses to the requests in this order, and the store behind the last one. -/
def session (mountRet : StrgRet) (store : Store) : List DbRequest → List DbResponse × Store
  | [] => ([], store)
  | request :: rest =>
      let first := answer mountRet store request
      let later := session mountRet first.2 rest
      (first.1 :: later.1, later.2)

theorem session_length (mountRet : StrgRet) (store : Store) (requests : List DbRequest) :
    (session mountRet store requests).1.length = requests.length := by
  induction requests generalizing store with
  | nil => rfl
  | cons request rest ih => rw [session, List.length_cons, List.length_cons, ih]

theorem session_append (mountRet : StrgRet) (store : Store) (first second : List DbRequest) :
    session mountRet store (first ++ second) =
      ((session mountRet store first).1 ++ (session mountRet (session mountRet store first).2 second).1,
        (session mountRet (session mountRet store first).2 second).2) := by
  induction first generalizing store with
  | nil => rfl
  | cons request rest ih => simp only [List.cons_append, session, ih]

theorem session_unmounted (mountRet : StrgRet) (failed : mountRet ≠ .strgOk) (store : Store)
    (requests : List DbRequest) : (session mountRet store requests).2 = store := by
  induction requests generalizing store with
  | nil => rfl
  | cons request rest ih =>
      rw [session, ih]
      exact (answer_unmounted mountRet store request failed).1

end SdDatabase
