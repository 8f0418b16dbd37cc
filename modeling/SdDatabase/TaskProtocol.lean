import SdDatabase.DbTask
import SdDatabase.PlatformQueue

/-!
# Clients and the database task

Any number of clients call `db_task_post` while the task mounts the database and
serves one request after the other. A step belongs to one client or to the task;
what happens is also recorded, in order, in a list of events.
-/

namespace SdDatabase

open Device PlatformQueue CircularWindow

set_option autoImplicit false

/-- A request in the queue, with the number of the `db_task_post` it came from. -/
structure Posted where
  ticket : Nat
  request : DbRequest

/-- Where the task is in its loop. `last` says that the loop ends after the reply. -/
inductive TaskPhase where
  | starting
  | receiving
  | handling (item : Posted)
  | replying (queue : Nat) (response : DbResponse) (last : Bool)
  | stopped

/-- A client that waits for room in the request queue. -/
structure WaitingPost where
  item : Posted
  timeout : BitVec 32

inductive TaskEvent where
  | accepted (item : Posted)
  | timedOut (item : Posted)
  | handled (item : Posted) (response : DbResponse)
  | replied (queue : Nat) (response : DbResponse)
  | taken (queue : Nat) (response : DbResponse)

/-- `DatabaseTaskContext` with the store, the reply queues and the clients inside
`db_task_post`; `calls` numbers the posts. -/
structure TaskSystem where
  requestQ : PlatformQueue Posted
  mount : Bool
  running : Bool
  mountRet : StrgRet
  store : Store
  phase : TaskPhase
  replyQs : Nat → PlatformQueue DbResponse
  waiting : Nat → Option WaitingPost
  calls : Nat
  events : List TaskEvent

def platformOsWaitForever : BitVec 32 := BitVec.allOnes 32

def dbTaskQueueSize : Nat := 5

/-- Requests that are in the queue already count as the first posts. -/
def numbered (queue : PlatformQueue DbRequest) : PlatformQueue Posted :=
  { queue with
    buf := queue.buf.mapIdx Posted.mk
    allocated := List.length_mapIdx.trans queue.allocated }

/-- `db_init` that starts the task. The request queue is `kept` from the time before
a restart or created in `memory`; `mount` is set when no database is passed in. -/
def dbInit (mount : Bool) (kept : Option (PlatformQueue DbRequest))
    (memory : Vector DbRequest dbTaskQueueSize) (store : Store)
    (replyQs : Nat → PlatformQueue DbResponse) : TaskSystem :=
  let requestQ := numbered
    (kept.getD (platformOsQueueCreate dbTaskQueueSize memory (by decide) (by decide)))
  { requestQ := requestQ
    mount := mount
    running := true
    mountRet := .strgFail
    store := store
    phase := .starting
    replyQs := replyQs
    waiting := fun _ => none
    calls := requestQ.length
    events := requestQ.contents.map .accepted }

/-- `db_task_post` of a client up to the return or the first wait. -/
def dbTaskPost (client : Nat) (request : Option DbRequest) (timeout : BitVec 32)
    (system : TaskSystem) : TaskSystem :=
  match request, system.waiting client with
  | none, _ => system
  | some _, some _ => system
  | some request, none =>
      let item : Posted := ⟨system.calls, request⟩
      match platformOsQueueSend system.requestQ item with
      | some queue =>
          { system with
            requestQ := queue
            calls := system.calls + 1
            events := system.events ++ [.accepted item] }
      | none =>
          if timeout = 0#32 then
            { system with
              calls := system.calls + 1
              events := system.events ++ [.timedOut item] }
          else
            { system with
              waiting := Function.update system.waiting client (some ⟨item, timeout⟩)
              calls := system.calls + 1 }

/-- A waiting client is signalled and looks at the queue again. -/
def wakePost (client : Nat) (system : TaskSystem) : TaskSystem :=
  match system.waiting client with
  | none => system
  | some post =>
      match platformOsQueueSend system.requestQ post.item with
      | none => system
      | some queue =>
          { system with
            requestQ := queue
            waiting := Function.update system.waiting client none
            events := system.events ++ [.accepted post.item] }

/-- The deadline of a waiting client passes. -/
def expirePost (client : Nat) (system : TaskSystem) : TaskSystem :=
  match system.waiting client with
  | none => system
  | some post =>
      if post.timeout = platformOsWaitForever then system
      else
        { system with
          waiting := Function.update system.waiting client none
          events := system.events ++ [.timedOut post.item] }

/-- A client receives a response from a reply queue. -/
def takeReply (queue : Nat) (system : TaskSystem) : TaskSystem :=
  match platformOsQueueReceive (system.replyQs queue) with
  | none => system
  | some (response, later) =>
      { system with
        replyQs := Function.update system.replyQs queue later
        events := system.events ++ [.taken queue response] }

/-- What the task does once a request is answered. -/
def afterReply (last : Bool) : TaskPhase := if last then .stopped else .receiving

def replyPhase (item : Posted) (response : DbResponse) (last : Bool) : TaskPhase :=
  match item.request.replyQ with
  | none => afterReply last
  | some queue => .replying queue response last

def mounting (mount : Bool) (store : Store) : StrgRet × Store :=
  if mount then store.exec databaseInit else (.strgOk, store)

/-- One step of `dbTask`. Only a host build ends the loop after a stop request. -/
def dbTask (hostBuild : Bool) (system : TaskSystem) : TaskSystem :=
  match system.phase with
  | .starting =>
      let mounted := mounting system.mount system.store
      { system with
        mountRet := mounted.1
        store := mounted.2
        phase := .receiving }
  | .receiving =>
      match platformOsQueueReceive system.requestQ with
      | none => system
      | some (item, later) =>
          { system with
            requestQ := later
            phase := .handling item }
  | .handling item =>
      let last := hostBuild && item.request.type == DbRequestType.stop.code
      let outcome := system.store.exec (dbHandle system.mountRet item.request)
      { system with
        running := system.running && !last
        store := outcome.2
        phase := replyPhase item outcome.1 last
        events := system.events ++ [.handled item outcome.1] }
  | .replying queue response last =>
      match platformOsQueueSend (system.replyQs queue) response with
      | none => system
      | some later =>
          { system with
            phase := afterReply last
            replyQs := Function.update system.replyQs queue later
            events := system.events ++ [.replied queue response] }
  | .stopped => system

inductive TaskAction where
  | post (client : Nat) (request : Option DbRequest) (timeout : BitVec 32)
  | wake (client : Nat)
  | expire (client : Nat)
  | take (queue : Nat)
  | task

namespace TaskSystem

def step (hostBuild : Bool) (system : TaskSystem) : TaskAction → TaskSystem
  | .post client request timeout => dbTaskPost client request timeout system
  | .wake client => wakePost client system
  | .expire client => expirePost client system
  | .take queue => takeReply queue system
  | .task => dbTask hostBuild system

def run (hostBuild : Bool) (system : TaskSystem) (schedule : List TaskAction) : TaskSystem :=
  schedule.foldl (step hostBuild) system

end TaskSystem

namespace TaskEvent

def acceptedItem : TaskEvent → Option Posted
  | accepted item => some item
  | _ => none

def timedOutItem : TaskEvent → Option Posted
  | timedOut item => some item
  | _ => none

def handledPair : TaskEvent → Option (Posted × DbResponse)
  | handled item response => some (item, response)
  | _ => none

def repliedOn (queue : Nat) : TaskEvent → Option DbResponse
  | replied at_ response => if at_ = queue then some response else none
  | _ => none

def takenFrom (queue : Nat) : TaskEvent → Option DbResponse
  | taken at_ response => if at_ = queue then some response else none
  | _ => none

end TaskEvent

/-- The response to a handled request that goes to this queue. -/
def responseFor (queue : Nat) (pair : Posted × DbResponse) : Option DbResponse :=
  if pair.1.request.replyQ = some queue then some pair.2 else none

namespace TaskSystem

/-- The accepted requests in the order in which they entered the queue. -/
def accepted (system : TaskSystem) : List Posted :=
  system.events.filterMap TaskEvent.acceptedItem

def timedOut (system : TaskSystem) : List Posted :=
  system.events.filterMap TaskEvent.timedOutItem

/-- The handled requests with their responses, in the order of handling. -/
def handled (system : TaskSystem) : List (Posted × DbResponse) :=
  system.events.filterMap TaskEvent.handledPair

def requests (system : TaskSystem) : List DbRequest :=
  system.handled.map fun pair => pair.1.request

/-- The responses that the task put into this queue. -/
def replied (system : TaskSystem) (queue : Nat) : List DbResponse :=
  system.events.filterMap (TaskEvent.repliedOn queue)

/-- The responses that clients took from this queue. -/
def taken (system : TaskSystem) (queue : Nat) : List DbResponse :=
  system.events.filterMap (TaskEvent.takenFrom queue)

end TaskSystem

/-- The request that is received and not handled yet. -/
def TaskPhase.inHand : TaskPhase → List Posted
  | handling item => [item]
  | _ => []

/-- The response that the task waits to send to this queue. -/
def TaskPhase.unsent (phase : TaskPhase) (queue : Nat) : List DbResponse :=
  match phase with
  | replying at_ response _ => if at_ = queue then [response] else []
  | _ => []

end SdDatabase
