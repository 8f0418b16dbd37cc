import SdDatabase.TaskProtocol

/-!
# Runs of the database task

A step of the system does one of a few things, and each part of the invariant is
kept by each of them. Whatever the schedule is, the requests are handled in the
order in which they were accepted, as one client on its own would have them
handled, and the responses reach their queues in that order.
-/

namespace SdDatabase

open Device PlatformQueue CircularWindow

set_option autoImplicit false

/-- The things that a step of the system can do. -/
inductive Moves (hostBuild : Bool) (system : TaskSystem) : TaskSystem → Prop where
  | stays : Moves hostBuild system system
  | accepts (request : DbRequest) (queue : PlatformQueue Posted)
      (sent : platformOsQueueSend system.requestQ ⟨system.calls, request⟩ = some queue) :
      Moves hostBuild system
        { system with
          requestQ := queue
          calls := system.calls + 1
          events := system.events ++ [.accepted ⟨system.calls, request⟩] }
  | refuses (request : DbRequest) :
      Moves hostBuild system
        { system with
          calls := system.calls + 1
          events := system.events ++ [.timedOut ⟨system.calls, request⟩] }
  | waits (client : Nat) (request : DbRequest) (timeout : BitVec 32)
      (idle : system.waiting client = none) :
      Moves hostBuild system
        { system with
          waiting := Function.update system.waiting client
            (some ⟨⟨system.calls, request⟩, timeout⟩)
          calls := system.calls + 1 }
  | wakes (client : Nat) (post : WaitingPost) (queue : PlatformQueue Posted)
      (waits : system.waiting client = some post)
      (sent : platformOsQueueSend system.requestQ post.item = some queue) :
      Moves hostBuild system
        { system with
          requestQ := queue
          waiting := Function.update system.waiting client none
          events := system.events ++ [.accepted post.item] }
  | expires (client : Nat) (post : WaitingPost) (waits : system.waiting client = some post) :
      Moves hostBuild system
        { system with
          waiting := Function.update system.waiting client none
          events := system.events ++ [.timedOut post.item] }
  | takes (queue : Nat) (response : DbResponse) (later : PlatformQueue DbResponse)
      (received : platformOsQueueReceive (system.replyQs queue) = some (response, later)) :
      Moves hostBuild system
        { system with
          replyQs := Function.update system.replyQs queue later
          events := system.events ++ [.taken queue response] }
  | mounts (starts : system.phase = .starting) :
      Moves hostBuild system
        { system with
          mountRet := (mounting system.mount system.store).1
          store := (mounting system.mount system.store).2
          phase := .receiving }
  | receives (item : Posted) (later : PlatformQueue Posted) (idle : system.phase = .receiving)
      (received : platformOsQueueReceive system.requestQ = some (item, later)) :
      Moves hostBuild system
        { system with
          requestQ := later
          phase := .handling item }
  | handles (item : Posted) (last : Bool) (busy : system.phase = .handling item)
      (known : last = (hostBuild && item.request.type == DbRequestType.stop.code)) :
      Moves hostBuild system
        { system with
          running := system.running && !last
          store := (answer system.mountRet system.store item.request).2
          phase := replyPhase item (answer system.mountRet system.store item.request).1 last
          events := system.events ++
            [.handled item (answer system.mountRet system.store item.request).1] }
  | replies (queue : Nat) (response : DbResponse) (last : Bool) (later : PlatformQueue DbResponse)
      (busy : system.phase = .replying queue response last)
      (sent : platformOsQueueSend (system.replyQs queue) response = some later) :
      Moves hostBuild system
        { system with
          phase := afterReply last
          replyQs := Function.update system.replyQs queue later
          events := system.events ++ [.replied queue response] }

section Steps

variable (hostBuild : Bool) (system : TaskSystem)

theorem moves_post (client : Nat) (request : Option DbRequest) (timeout : BitVec 32) :
    Moves hostBuild system (dbTaskPost client request timeout system) := by
  unfold dbTaskPost
  cases request with
  | none => exact .stays
  | some request =>
      cases idle : system.waiting client with
      | some post => exact .stays
      | none =>
          dsimp only
          cases sent : platformOsQueueSend system.requestQ ⟨system.calls, request⟩ with
          | some queue => exact .accepts request queue sent
          | none =>
              dsimp only
              split
              · exact .refuses request
              · exact .waits client request timeout idle

theorem moves_wake (client : Nat) : Moves hostBuild system (wakePost client system) := by
  unfold wakePost
  cases waits : system.waiting client with
  | none => exact .stays
  | some post =>
      dsimp only
      cases sent : platformOsQueueSend system.requestQ post.item with
      | none => exact .stays
      | some queue => exact .wakes client post queue waits sent

theorem moves_expire (client : Nat) : Moves hostBuild system (expirePost client system) := by
  unfold expirePost
  cases waits : system.waiting client with
  | none => exact .stays
  | some post =>
      dsimp only
      split
      · exact .stays
      · exact .expires client post waits

theorem moves_take (queue : Nat) : Moves hostBuild system (takeReply queue system) := by
  unfold takeReply
  cases received : platformOsQueueReceive (system.replyQs queue) with
  | none => exact .stays
  | some both =>
      cases both with
      | mk response later => exact .takes queue response later received

theorem moves_task : Moves hostBuild system (dbTask hostBuild system) := by
  unfold dbTask
  cases phase : system.phase with
  | starting => exact .mounts phase
  | receiving =>
      dsimp only
      cases received : platformOsQueueReceive system.requestQ with
      | none => exact .stays
      | some both =>
          cases both with
          | mk item later => exact .receives item later phase received
  | handling item =>
      dsimp only
      rw [db_handle_answer]
      exact .handles item _ phase rfl
  | replying queue response last =>
      dsimp only
      cases sent : platformOsQueueSend (system.replyQs queue) response with
      | none => exact .stays
      | some later => exact .replies queue response last later phase sent
  | stopped => exact .stays

theorem moves_step (action : TaskAction) : Moves hostBuild system (system.step hostBuild action) := by
  cases action with
  | post client request timeout => exact moves_post hostBuild system client request timeout
  | wake client => exact moves_wake hostBuild system client
  | expire client => exact moves_expire hostBuild system client
  | take queue => exact moves_take hostBuild system queue
  | task => exact moves_task hostBuild system

theorem TaskSystem.run_keeps (holds : TaskSystem → Prop)
    (kept : ∀ before after, Moves hostBuild before after → holds before → holds after)
    (first : holds system) (schedule : List TaskAction) : holds (system.run hostBuild schedule) := by
  unfold TaskSystem.run
  induction schedule generalizing system with
  | nil => exact first
  | cons action rest ih =>
      rw [List.foldl_cons]
      exact ih _ (kept system _ (moves_step hostBuild system action) first)

end Steps

section Invariants

variable {hostBuild : Bool} {before after : TaskSystem}

/-- Every accepted request is handled, in hand or in the queue, in this order. -/
def TaskSystem.InOrder (system : TaskSystem) : Prop :=
  system.accepted = system.handled.map Prod.fst ++ system.phase.inHand ++ system.requestQ.contents

@[simp] theorem handling_in_hand (item : Posted) :
    (TaskPhase.handling item).inHand = [item] := by
  rw [TaskPhase.inHand]

@[simp] theorem receiving_in_hand : TaskPhase.receiving.inHand = [] := by
  unfold TaskPhase.inHand
  rfl

@[simp] theorem replying_in_hand (queue : Nat) (response : DbResponse) (last : Bool) :
    (TaskPhase.replying queue response last).inHand = [] := by
  unfold TaskPhase.inHand
  rfl

@[simp] theorem after_reply_in_hand (last : Bool) : (afterReply last).inHand = [] := by
  cases last <;> rfl

@[simp] theorem after_reply_unsent (last : Bool) (queue : Nat) : (afterReply last).unsent queue = [] := by
  cases last <;> rfl

@[simp] theorem reply_phase_in_hand (item : Posted) (response : DbResponse) (last : Bool) :
    (replyPhase item response last).inHand = [] := by
  unfold replyPhase
  split
  · exact after_reply_in_hand last
  · rfl

@[simp] theorem replying_unsent (queue other : Nat) (response : DbResponse) (last : Bool) :
    (TaskPhase.replying queue response last).unsent other =
      if queue = other then [response] else [] := by
  rw [TaskPhase.unsent]

theorem reply_phase_unsent (item : Posted) (response : DbResponse) (last : Bool) (queue : Nat) :
    (replyPhase item response last).unsent queue = (responseFor queue (item, response)).toList := by
  unfold replyPhase responseFor
  cases named : item.request.replyQ with
  | none => simp
  | some at_ =>
      by_cases same : at_ = queue
      · simp [same]
      · simp [same]

theorem keeps_in_order (moves : Moves hostBuild before after) (ordered : before.InOrder) :
    after.InOrder := by
  unfold TaskSystem.InOrder TaskSystem.accepted TaskSystem.handled at ordered ⊢
  cases moves with
  | stays => exact ordered
  | accepts request queue sent =>
      simp [ordered, send_contents sent, List.filterMap_cons, TaskEvent.acceptedItem,
        TaskEvent.handledPair]
  | refuses request =>
      simpa [List.filterMap_cons, TaskEvent.acceptedItem, TaskEvent.handledPair] using ordered
  | waits client request timeout idle => exact ordered
  | wakes client post queue waits sent =>
      simp [ordered, send_contents sent, List.filterMap_cons, TaskEvent.acceptedItem,
        TaskEvent.handledPair]
  | expires client post waits =>
      simpa [List.filterMap_cons, TaskEvent.acceptedItem, TaskEvent.handledPair] using ordered
  | takes queue response later received =>
      simpa [List.filterMap_cons, TaskEvent.acceptedItem, TaskEvent.handledPair] using ordered
  | mounts starts =>
      rw [starts] at ordered
      exact ordered
  | receives item later idle received =>
      rw [idle, receive_contents received] at ordered
      simpa using ordered
  | handles item last busy known =>
      rw [busy] at ordered
      simpa [List.filterMap_cons, TaskEvent.acceptedItem, TaskEvent.handledPair] using ordered
  | replies queue response last later busy sent =>
      rw [busy] at ordered
      simpa [List.filterMap_cons, TaskEvent.acceptedItem, TaskEvent.handledPair] using ordered

def TaskSystem.returned (system : TaskSystem) : List Nat :=
  (system.accepted ++ system.timedOut).map Posted.ticket

/-- No two posts that have returned or wait share a ticket. -/
structure TaskSystem.Separate (system : TaskSystem) : Prop where
  distinct : system.returned.Nodup
  below : ∀ ticket ∈ system.returned, ticket < system.calls
  waitingBelow : ∀ client post, system.waiting client = some post →
    post.item.ticket < system.calls
  waitingOther : ∀ client post, system.waiting client = some post →
    post.item.ticket ∉ system.returned
  waitingApart : ∀ client other post later, system.waiting client = some post →
    system.waiting other = some later → post.item.ticket = later.item.ticket → client = other

theorem returned_accepted (item : Posted)
    (events : after.events = before.events ++ [.accepted item]) :
    after.returned.Perm (item.ticket :: before.returned) := by
  have more : after.accepted = before.accepted ++ [item] := by
    simp [TaskSystem.accepted, events, TaskEvent.acceptedItem]
  have same : after.timedOut = before.timedOut := by
    simp [TaskSystem.timedOut, events, List.filterMap_cons, TaskEvent.timedOutItem]
  unfold TaskSystem.returned
  rw [more, same, List.append_assoc]
  exact (List.perm_middle).map Posted.ticket

theorem returned_timed_out (item : Posted)
    (events : after.events = before.events ++ [.timedOut item]) :
    after.returned.Perm (item.ticket :: before.returned) := by
  have same : after.accepted = before.accepted := by
    simp [TaskSystem.accepted, events, TaskEvent.acceptedItem]
  have more : after.timedOut = before.timedOut ++ [item] := by
    simp [TaskSystem.timedOut, events, TaskEvent.timedOutItem]
  unfold TaskSystem.returned
  rw [same, more, ← List.append_assoc]
  exact (List.perm_append_singleton item _).map Posted.ticket

namespace TaskSystem.Separate

theorem settle (separate : before.Separate) (ticket : Nat)
    (perm : after.returned.Perm (ticket :: before.returned)) (fresh : ticket ∉ before.returned)
    (counted : ticket < after.calls) (more : before.calls ≤ after.calls)
    (stillWaits : ∀ client post, after.waiting client = some post →
      before.waiting client = some post ∧ post.item.ticket ≠ ticket) : after.Separate where
  distinct := perm.nodup_iff.mpr (List.nodup_cons.mpr ⟨fresh, separate.distinct⟩)
  below := by
    intro other member
    cases List.mem_cons.mp (perm.mem_iff.mp member) with
    | inl same => exact same ▸ counted
    | inr old => exact Nat.lt_of_lt_of_le (separate.below other old) more
  waitingBelow := by
    intro client post waits
    exact Nat.lt_of_lt_of_le (separate.waitingBelow client post (stillWaits client post waits).1) more
  waitingOther := by
    intro client post waits member
    have before_ := stillWaits client post waits
    cases List.mem_cons.mp (perm.mem_iff.mp member) with
    | inl same => exact before_.2 same
    | inr old => exact separate.waitingOther client post before_.1 old
  waitingApart := by
    intro client other post later waits others
    exact separate.waitingApart client other post later (stillWaits client post waits).1
      (stillWaits other later others).1

theorem unchanged (separate : before.Separate) (returned : after.returned = before.returned)
    (waiting : after.waiting = before.waiting) (calls : after.calls = before.calls) :
    after.Separate where
  distinct := by rw [returned]; exact separate.distinct
  below := by rw [returned, calls]; exact separate.below
  waitingBelow := by rw [waiting, calls]; exact separate.waitingBelow
  waitingOther := by rw [waiting, returned]; exact separate.waitingOther
  waitingApart := by rw [waiting]; exact separate.waitingApart

theorem next_unused (separate : before.Separate) : before.calls ∉ before.returned :=
  fun member => Nat.lt_irrefl _ (separate.below _ member)

theorem next_other (separate : before.Separate) (client : Nat) (post : WaitingPost)
    (waits : before.waiting client = some post) :
    before.waiting client = some post ∧ post.item.ticket ≠ before.calls :=
  ⟨waits, Nat.ne_of_lt (separate.waitingBelow client post waits)⟩

theorem others_wait (separate : before.Separate) (client : Nat) (post : WaitingPost)
    (waits : before.waiting client = some post) (other : Nat) (later : WaitingPost)
    (still : Function.update before.waiting client none other = some later) :
    before.waiting other = some later ∧ later.item.ticket ≠ post.item.ticket := by
  by_cases same : other = client
  · rw [same, Function.update_self] at still
    cases still
  · rw [Function.update_of_ne same] at still
    exact ⟨still, fun equal => same (separate.waitingApart other client later post still waits equal)⟩

end TaskSystem.Separate

theorem returned_other {event : TaskEvent} (events : after.events = before.events ++ [event])
    (notAccepted : event.acceptedItem = none) (notTimedOut : event.timedOutItem = none) :
    after.returned = before.returned := by
  simp [TaskSystem.returned, TaskSystem.accepted, TaskSystem.timedOut, events,
    notAccepted, notTimedOut]

theorem separate_waits (separate : before.Separate) (client : Nat) (request : DbRequest)
    (timeout : BitVec 32) :
    TaskSystem.Separate { before with
      waiting := Function.update before.waiting client (some ⟨⟨before.calls, request⟩, timeout⟩)
      calls := before.calls + 1 } := by
  have known : ∀ other post,
      Function.update before.waiting client (some ⟨⟨before.calls, request⟩, timeout⟩) other =
        some post →
      other = client ∧ post.item.ticket = before.calls ∨
        other ≠ client ∧ before.waiting other = some post := by
    intro other post waits
    by_cases same : other = client
    · rw [same, Function.update_self] at waits
      cases waits
      exact Or.inl ⟨same, rfl⟩
    · rw [Function.update_of_ne same] at waits
      exact Or.inr ⟨same, waits⟩
  constructor
  · exact separate.distinct
  · intro ticket member
    exact Nat.lt_succ_of_lt (separate.below ticket member)
  · intro other post waits
    cases known other post waits with
    | inl new => exact Nat.lt_succ_of_le (Nat.le_of_eq new.2)
    | inr old => exact Nat.lt_succ_of_lt (separate.waitingBelow other post old.2)
  · intro other post waits
    cases known other post waits with
    | inl new =>
        rw [new.2]
        exact separate.next_unused
    | inr old => exact separate.waitingOther other post old.2
  · intro first second post later waits others same
    cases known first post waits with
    | inl new =>
        cases known second later others with
        | inl newer => rw [new.1, newer.1]
        | inr old =>
            have bound := separate.waitingBelow second later old.2
            omega
    | inr old =>
        have bound := separate.waitingBelow first post old.2
        cases known second later others with
        | inl newer => omega
        | inr older => exact separate.waitingApart first second post later old.2 older.2 same

theorem keeps_separate (moves : Moves hostBuild before after) (separate : before.Separate) :
    after.Separate := by
  cases moves with
  | stays => exact separate
  | accepts request queue sent =>
      exact separate.settle before.calls (returned_accepted ⟨before.calls, request⟩ rfl)
        separate.next_unused (Nat.lt_succ_self _) (Nat.le_succ _) separate.next_other
  | refuses request =>
      exact separate.settle before.calls (returned_timed_out ⟨before.calls, request⟩ rfl)
        separate.next_unused (Nat.lt_succ_self _) (Nat.le_succ _) separate.next_other
  | waits client request timeout idle => exact separate_waits separate client request timeout
  | wakes client post queue waits sent =>
      exact separate.settle post.item.ticket (returned_accepted post.item rfl)
        (separate.waitingOther client post waits) (separate.waitingBelow client post waits)
        (Nat.le_refl _) (separate.others_wait client post waits)
  | expires client post waits =>
      exact separate.settle post.item.ticket (returned_timed_out post.item rfl)
        (separate.waitingOther client post waits) (separate.waitingBelow client post waits)
        (Nat.le_refl _) (separate.others_wait client post waits)
  | takes queue response later received =>
      exact separate.unchanged (returned_other rfl rfl rfl) rfl rfl
  | mounts starts => exact separate.unchanged rfl rfl rfl
  | receives item later idle received => exact separate.unchanged rfl rfl rfl
  | handles item last busy known =>
      exact separate.unchanged (returned_other rfl rfl rfl) rfl rfl
  | replies queue response last later busy sent =>
      exact separate.unchanged (returned_other rfl rfl rfl) rfl rfl

/-- The requests handled so far are a session on the mounted store. -/
structure TaskSystem.Sequential (mount : Bool) (store : Store) (system : TaskSystem) : Prop where
  asked : system.mount = mount
  unstarted : system.phase = .starting → system.store = store ∧ system.handled = []
  mounted : system.phase ≠ .starting →
    system.mountRet = (mounting mount store).1 ∧
      session (mounting mount store).1 (mounting mount store).2 system.requests =
        (system.handled.map Prod.snd, system.store)

theorem after_reply_started (last : Bool) : afterReply last ≠ .starting := by
  cases last <;> exact fun same => by cases same

theorem reply_phase_started (item : Posted) (response : DbResponse) (last : Bool) :
    replyPhase item response last ≠ .starting := by
  unfold replyPhase
  split
  · exact after_reply_started last
  · exact fun same => by cases same

namespace TaskSystem.Sequential

variable {mount : Bool} {store : Store}

theorem unchanged (sequential : before.Sequential mount store) (asked : after.mount = before.mount)
    (phase : after.phase = .starting ↔ before.phase = .starting)
    (ret : after.mountRet = before.mountRet) (kept : after.store = before.store)
    (handled : after.handled = before.handled) : after.Sequential mount store where
  asked := asked.trans sequential.asked
  unstarted := by
    intro starts
    rw [kept, handled]
    exact sequential.unstarted (phase.mp starts)
  mounted := by
    intro started
    unfold TaskSystem.requests
    rw [ret, kept, handled]
    exact sequential.mounted (fun starts => started (phase.mpr starts))

end TaskSystem.Sequential

theorem handled_other {event : TaskEvent} (events : after.events = before.events ++ [event])
    (notHandled : event.handledPair = none) : after.handled = before.handled := by
  simp [TaskSystem.handled, events, notHandled]

theorem handled_more {item : Posted} {response : DbResponse}
    (events : after.events = before.events ++ [.handled item response]) :
    after.handled = before.handled ++ [(item, response)] := by
  simp [TaskSystem.handled, events, TaskEvent.handledPair]

variable {mount : Bool} {store : Store}

theorem sequential_mounts (starts : before.phase = .starting)
    (sequential : before.Sequential mount store) :
    TaskSystem.Sequential mount store { before with
      mountRet := (mounting before.mount before.store).1
      store := (mounting before.mount before.store).2
      phase := .receiving } where
  asked := sequential.asked
  unstarted := fun same => by cases same
  mounted := by
    intro _
    have idle := sequential.unstarted starts
    have handled : before.handled = [] := idle.2
    dsimp only
    rw [sequential.asked, idle.1]
    refine ⟨rfl, ?_⟩
    unfold TaskSystem.requests TaskSystem.handled at *
    dsimp only
    rw [handled]
    rfl

theorem sequential_handles (item : Posted) (last : Bool) (busy : before.phase = .handling item)
    (sequential : before.Sequential mount store)
    (events : after.events = before.events ++
      [.handled item (answer before.mountRet before.store item.request).1])
    (asked : after.mount = before.mount) (ret : after.mountRet = before.mountRet)
    (kept : after.store = (answer before.mountRet before.store item.request).2)
    (phase : after.phase = replyPhase item (answer before.mountRet before.store item.request).1 last) :
    after.Sequential mount store where
  asked := asked.trans sequential.asked
  unstarted := by
    intro starts
    rw [phase] at starts
    exact absurd starts (reply_phase_started _ _ _)
  mounted := by
    intro _
    have started : before.phase ≠ .starting := by
      rw [busy]
      exact fun same => by cases same
    have known := sequential.mounted started
    have more := handled_more events
    constructor
    · rw [ret, known.1]
    · have split : after.requests = before.requests ++ [item.request] := by
        unfold TaskSystem.requests
        rw [more, List.map_append]
        rfl
      rw [split, session_append, known.2, more, List.map_append, kept, known.1]
      rfl

theorem keeps_sequential (moves : Moves hostBuild before after)
    (sequential : before.Sequential mount store) : after.Sequential mount store := by
  cases moves with
  | stays => exact sequential
  | accepts request queue sent =>
      exact sequential.unchanged rfl Iff.rfl rfl rfl (handled_other rfl rfl)
  | refuses request => exact sequential.unchanged rfl Iff.rfl rfl rfl (handled_other rfl rfl)
  | waits client request timeout idle => exact sequential.unchanged rfl Iff.rfl rfl rfl rfl
  | wakes client post queue waits sent =>
      exact sequential.unchanged rfl Iff.rfl rfl rfl (handled_other rfl rfl)
  | expires client post waits =>
      exact sequential.unchanged rfl Iff.rfl rfl rfl (handled_other rfl rfl)
  | takes queue response later received =>
      exact sequential.unchanged rfl Iff.rfl rfl rfl (handled_other rfl rfl)
  | mounts starts => exact sequential_mounts starts sequential
  | receives item later idle received =>
      have both : TaskPhase.handling item = .starting ↔ before.phase = .starting := by
        rw [idle]
        exact ⟨(fun same => by cases same), (fun same => by cases same)⟩
      exact sequential.unchanged rfl both rfl rfl rfl
  | handles item last busy known =>
      exact sequential_handles item last busy sequential rfl rfl rfl rfl rfl
  | replies queue response last later busy sent =>
      have both : afterReply last = .starting ↔ before.phase = .starting := by
        rw [busy]
        exact ⟨fun same => absurd same (after_reply_started last), (fun same => by cases same)⟩
      exact sequential.unchanged rfl both rfl rfl (handled_other rfl rfl)

/-- The responses for a queue are sent in the order of handling, and the clients receive
what was in the queue and then these, in this order. -/
structure TaskSystem.Delivers (waited : Nat → List DbResponse) (system : TaskSystem) : Prop where
  sent : ∀ queue, system.handled.filterMap (responseFor queue) =
    system.replied queue ++ system.phase.unsent queue
  received : ∀ queue, waited queue ++ system.replied queue =
    system.taken queue ++ (system.replyQs queue).contents

theorem responses_other {event : TaskEvent} (events : after.events = before.events ++ [event])
    (queue : Nat) (notReplied : event.repliedOn queue = none)
    (notTaken : event.takenFrom queue = none) :
    after.replied queue = before.replied queue ∧ after.taken queue = before.taken queue := by
  simp [TaskSystem.replied, TaskSystem.taken, events, notReplied, notTaken]

namespace TaskSystem.Delivers

variable {waited : Nat → List DbResponse}

theorem unchanged (delivers : before.Delivers waited) (handled : after.handled = before.handled)
    (unsent : ∀ queue, after.phase.unsent queue = before.phase.unsent queue)
    (queues : after.replyQs = before.replyQs)
    (responses : ∀ queue, after.replied queue = before.replied queue ∧
      after.taken queue = before.taken queue) : after.Delivers waited where
  sent := by
    intro queue
    rw [handled, unsent, (responses queue).1]
    exact delivers.sent queue
  received := by
    intro queue
    rw [queues, (responses queue).1, (responses queue).2]
    exact delivers.received queue

end TaskSystem.Delivers

variable {waited : Nat → List DbResponse}

theorem delivers_takes (queue : Nat) (response : DbResponse) (later : PlatformQueue DbResponse)
    (received : platformOsQueueReceive (before.replyQs queue) = some (response, later))
    (delivers : before.Delivers waited) :
    TaskSystem.Delivers waited { before with
      replyQs := Function.update before.replyQs queue later
      events := before.events ++ [.taken queue response] } where
  sent := by
    intro other
    simpa [TaskSystem.handled, TaskSystem.replied, List.filterMap_cons, TaskEvent.handledPair,
      TaskEvent.repliedOn] using delivers.sent other
  received := by
    intro other
    have known := delivers.received other
    by_cases same : queue = other
    · rw [← same, receive_contents received] at known
      simpa [← same, TaskSystem.replied, TaskSystem.taken, List.filterMap_cons,
        TaskEvent.repliedOn, TaskEvent.takenFrom] using known
    · simpa [Function.update_of_ne (Ne.symm same), same, TaskSystem.replied, TaskSystem.taken,
        List.filterMap_cons, TaskEvent.repliedOn, TaskEvent.takenFrom] using known

theorem delivers_handles (item : Posted) (response : DbResponse) (last : Bool)
    (busy : before.phase = .handling item) (delivers : before.Delivers waited)
    (events : after.events = before.events ++ [.handled item response])
    (phase : after.phase = replyPhase item response last)
    (queues : after.replyQs = before.replyQs) : after.Delivers waited where
  sent := by
    intro queue
    have known := delivers.sent queue
    rw [busy] at known
    have same := (responses_other events queue rfl rfl).1
    rw [handled_more events, List.filterMap_append, known, same, phase, reply_phase_unsent]
    cases answered : responseFor queue (item, response) <;>
      simp [answered, TaskPhase.unsent]
  received := by
    intro queue
    have same := responses_other events queue rfl rfl
    rw [same.1, same.2, queues]
    exact delivers.received queue

theorem delivers_replies (queue : Nat) (response : DbResponse) (last : Bool)
    (later : PlatformQueue DbResponse) (busy : before.phase = .replying queue response last)
    (sent : platformOsQueueSend (before.replyQs queue) response = some later)
    (delivers : before.Delivers waited) :
    TaskSystem.Delivers waited { before with
      phase := afterReply last
      replyQs := Function.update before.replyQs queue later
      events := before.events ++ [.replied queue response] } where
  sent := by
    intro other
    have known := delivers.sent other
    rw [busy] at known
    by_cases same : queue = other
    · simpa [same, TaskSystem.handled, TaskSystem.replied, List.filterMap_cons,
        TaskEvent.handledPair, TaskEvent.repliedOn] using known
    · simpa [same, TaskSystem.handled, TaskSystem.replied, List.filterMap_cons,
        TaskEvent.handledPair, TaskEvent.repliedOn] using known
  received := by
    intro other
    have known := delivers.received other
    by_cases same : queue = other
    · rw [← same] at known ⊢
      simp only [TaskSystem.replied, TaskSystem.taken, List.filterMap_append, List.filterMap_cons,
        List.filterMap_nil, TaskEvent.repliedOn, TaskEvent.takenFrom, if_pos, List.append_nil,
        Function.update_self, send_contents sent]
      rw [← List.append_assoc, ← List.append_assoc]
      exact congrArg (· ++ [response]) known
    · simpa [Function.update_of_ne (Ne.symm same), same, TaskSystem.replied, TaskSystem.taken,
        List.filterMap_cons, TaskEvent.repliedOn, TaskEvent.takenFrom] using known

theorem keeps_delivers (moves : Moves hostBuild before after) (delivers : before.Delivers waited) :
    after.Delivers waited := by
  cases moves with
  | stays => exact delivers
  | accepts request queue sent =>
      exact delivers.unchanged (handled_other rfl rfl) (fun _ => rfl) rfl
        fun queue => responses_other rfl queue rfl rfl
  | refuses request =>
      exact delivers.unchanged (handled_other rfl rfl) (fun _ => rfl) rfl
        fun queue => responses_other rfl queue rfl rfl
  | waits client request timeout idle =>
      exact delivers.unchanged rfl (fun _ => rfl) rfl fun _ => ⟨rfl, rfl⟩
  | wakes client post queue waits sent =>
      exact delivers.unchanged (handled_other rfl rfl) (fun _ => rfl) rfl
        fun queue => responses_other rfl queue rfl rfl
  | expires client post waits =>
      exact delivers.unchanged (handled_other rfl rfl) (fun _ => rfl) rfl
        fun queue => responses_other rfl queue rfl rfl
  | takes queue response later received => exact delivers_takes queue response later received delivers
  | mounts starts =>
      have none_ : ∀ queue, TaskPhase.receiving.unsent queue = before.phase.unsent queue := by
        rw [starts]
        exact fun _ => rfl
      exact delivers.unchanged rfl none_ rfl fun _ => ⟨rfl, rfl⟩
  | receives item later idle received =>
      have none_ : ∀ queue, (TaskPhase.handling item).unsent queue = before.phase.unsent queue := by
        rw [idle]
        exact fun _ => rfl
      exact delivers.unchanged rfl none_ rfl fun _ => ⟨rfl, rfl⟩
  | handles item last busy known =>
      exact delivers_handles item _ last busy delivers rfl rfl rfl
  | replies queue response last later busy sent =>
      exact delivers_replies queue response last later busy sent delivers

end Invariants

section Start

theorem numbered_tickets (queue : PlatformQueue DbRequest) :
    (numbered queue).contents.map Posted.ticket =
      window (List.range queue.length) queue.head queue.count := by
  have places : ((numbered queue).buf).map Posted.ticket = List.range queue.length := by
    rw [← queue.allocated]
    apply List.ext_getElem
    · simp [numbered]
    · intro index _ _
      simp [numbered]
  rw [contents, map_window, places]
  rfl

theorem accepted_of_items (items : List Posted) :
    (items.map TaskEvent.accepted).filterMap TaskEvent.acceptedItem = items := by
  induction items with
  | nil => rfl
  | cons item rest ih =>
      have first : TaskEvent.acceptedItem (.accepted item) = some item := rfl
      rw [List.map_cons, List.filterMap_cons_some first, ih]

theorem none_of_items {B : Type} (items : List Posted) (find : TaskEvent → Option B)
    (other : ∀ item, find (.accepted item) = none) :
    (items.map TaskEvent.accepted).filterMap find = [] := by
  induction items with
  | nil => rfl
  | cons item rest ih => rw [List.map_cons, List.filterMap_cons_none (other item), ih]

variable (mount : Bool) (kept : Option (PlatformQueue DbRequest))
  (memory : Vector DbRequest dbTaskQueueSize) (store : Store)
  (replyQs : Nat → PlatformQueue DbResponse)

theorem init_handled : (dbInit mount kept memory store replyQs).handled = [] :=
  none_of_items _ _ fun _ => rfl

theorem init_accepted : (dbInit mount kept memory store replyQs).accepted =
    (dbInit mount kept memory store replyQs).requestQ.contents :=
  accepted_of_items _

theorem init_in_order : (dbInit mount kept memory store replyQs).InOrder := by
  rw [TaskSystem.InOrder, init_accepted, init_handled]
  rfl

theorem init_separate : (dbInit mount kept memory store replyQs).Separate := by
  have returned : ∃ queue : PlatformQueue DbRequest,
      (dbInit mount kept memory store replyQs).returned =
        window (List.range queue.length) queue.head queue.count ∧
      (dbInit mount kept memory store replyQs).calls = queue.length := by
    refine ⟨kept.getD (platformOsQueueCreate dbTaskQueueSize memory (by decide) (by decide)),
      ?_, rfl⟩
    have noneOut : (dbInit mount kept memory store replyQs).timedOut = [] :=
      none_of_items _ _ fun _ => rfl
    rw [TaskSystem.returned, noneOut, List.append_nil, init_accepted]
    exact numbered_tickets _
  obtain ⟨queue, tickets, calls⟩ := returned
  constructor
  · rw [tickets]
    exact window_nodup _ _ _ List.nodup_range
  · intro ticket member
    rw [tickets] at member
    rw [calls]
    exact List.mem_range.mp (mem_of_mem_window member)
  · intro client post waits
    cases waits
  · intro client post waits
    cases waits
  · intro client other post later waits
    cases waits

theorem init_sequential : (dbInit mount kept memory store replyQs).Sequential mount store where
  asked := rfl
  unstarted := fun _ => ⟨rfl, init_handled mount kept memory store replyQs⟩
  mounted := fun started => absurd rfl started

theorem init_delivers : (dbInit mount kept memory store replyQs).Delivers
    fun queue => (replyQs queue).contents where
  sent := by
    intro queue
    have noReply : (dbInit mount kept memory store replyQs).replied queue = [] :=
      none_of_items _ _ fun _ => rfl
    rw [init_handled, noReply]
    rfl
  received := by
    intro queue
    have noReply : (dbInit mount kept memory store replyQs).replied queue = [] :=
      none_of_items _ _ fun _ => rfl
    have noTaken : (dbInit mount kept memory store replyQs).taken queue = [] :=
      none_of_items _ _ fun _ => rfl
    rw [noReply, noTaken, List.append_nil]
    rfl

end Start

theorem TaskSystem.Sequential.response_of {system : TaskSystem} {mount : Bool} {store : Store}
    (sequential : system.Sequential mount store) {before rest : List (Posted × DbResponse)}
    {item : Posted} {response : DbResponse}
    (place : system.handled = before ++ (item, response) :: rest) :
    response = (answer (mounting mount store).1
      (session (mounting mount store).1 (mounting mount store).2
        (before.map fun pair => pair.1.request)).2 item.request).1 := by
  have started : system.phase ≠ .starting := by
    intro starts
    have none_ := (sequential.unstarted starts).2
    rw [place] at none_
    exact List.append_ne_nil_of_right_ne_nil _ (List.cons_ne_nil _ _) none_
  have responses := congrArg Prod.fst (sequential.mounted started).2
  unfold TaskSystem.requests at responses
  rw [place, List.map_append, List.map_append, session_append] at responses
  have size : (session (mounting mount store).1 (mounting mount store).2
      (before.map fun pair => pair.1.request)).1.length = (before.map Prod.snd).length := by
    rw [session_length, List.length_map, List.length_map]
  have tails := (List.append_inj responses size).2
  rw [List.map_cons, List.map_cons, session] at tails
  exact (List.cons.inj tails).1.symm

theorem database_task_protocol (hostBuild mount : Bool) (kept : Option (PlatformQueue DbRequest))
    (memory : Vector DbRequest dbTaskQueueSize) (store : Store)
    (replyQs : Nat → PlatformQueue DbResponse) (schedule : List TaskAction) :
    let reached := (dbInit mount kept memory store replyQs).run hostBuild schedule
    let mounted := mounting mount store
    reached.handled.map Prod.fst <+: reached.accepted ∧
      (reached.accepted.map Posted.ticket).Nodup ∧
      (∀ item ∈ reached.timedOut, item.ticket ∉ reached.accepted.map Posted.ticket) ∧
      (reached.phase = .starting → reached.store = store ∧ reached.handled = []) ∧
      (reached.phase ≠ .starting →
        reached.store = (session mounted.1 mounted.2 reached.requests).2) ∧
      (∀ queue,
        reached.handled.filterMap (responseFor queue) =
            reached.replied queue ++ reached.phase.unsent queue ∧
          (replyQs queue).contents ++ reached.replied queue =
            reached.taken queue ++ (reached.replyQs queue).contents) ∧
      (∀ before item response rest, reached.handled = before ++ (item, response) :: rest →
        let earlier := (session mounted.1 mounted.2 (before.map fun pair => pair.1.request)).2
        response.type = item.request.type ∧ response.tag = item.request.tag ∧
          response.ret = (answer mounted.1 earlier item.request).1.ret ∧
          (mounted.1 = .strgOk → dbReqCount ≤ item.request.type.toNat →
            response.ret = .strgFail ∧ (answer mounted.1 earlier item.request).2 = earlier) ∧
          (mounted.1 ≠ .strgOk → item.request.type ≠ DbRequestType.stop.code →
            response.ret = mounted.1)) ∧
      (mounted.1 ≠ .strgOk → reached.phase ≠ .starting → reached.store = mounted.2) := by
  intro reached mounted
  have ordered : reached.InOrder := TaskSystem.run_keeps hostBuild _ TaskSystem.InOrder
    (fun _ _ => keeps_in_order) (init_in_order mount kept memory store replyQs) schedule
  have separate : reached.Separate := TaskSystem.run_keeps hostBuild _ TaskSystem.Separate
    (fun _ _ => keeps_separate) (init_separate mount kept memory store replyQs) schedule
  have sequential : reached.Sequential mount store :=
    TaskSystem.run_keeps hostBuild _ (TaskSystem.Sequential mount store)
      (fun _ _ => keeps_sequential) (init_sequential mount kept memory store replyQs) schedule
  have delivers : reached.Delivers fun queue => (replyQs queue).contents :=
    TaskSystem.run_keeps hostBuild _ (TaskSystem.Delivers fun queue => (replyQs queue).contents)
      (fun _ _ => keeps_delivers) (init_delivers mount kept memory store replyQs) schedule
  have distinct : (reached.accepted.map Posted.ticket ++ reached.timedOut.map Posted.ticket).Nodup := by
    rw [← List.map_append]
    exact separate.distinct
  have storeIs : reached.phase ≠ .starting →
      reached.store = (session mounted.1 mounted.2 reached.requests).2 := by
    intro started
    rw [(sequential.mounted started).2]
  refine ⟨?_, (List.nodup_append.mp distinct).1, ?_, sequential.unstarted, storeIs, ?_, ?_, ?_⟩
  · rw [ordered, List.append_assoc]
    exact List.prefix_append _ _
  · intro item member shared
    have apart := (List.nodup_append.mp distinct).2.2
    exact apart _ shared _ (List.mem_map_of_mem member) rfl
  · exact fun queue => ⟨delivers.sent queue, delivers.received queue⟩
  · intro before item response rest place earlier
    have is : response = (answer mounted.1 earlier item.request).1 := sequential.response_of place
    have same := answer_type_tag mounted.1 earlier item.request
    rw [is]
    refine ⟨same.1, same.2, rfl, ?_, ?_⟩
    · intro isMounted unknown
      rw [isMounted, answer_unknown earlier item.request unknown]
      exact ⟨rfl, rfl⟩
    · intro failed notStop
      exact (answer_unmounted mounted.1 earlier item.request failed).2 notStop
  · intro failed started
    rw [storeIs started]
    exact session_unmounted mounted.1 failed mounted.2 reached.requests

end SdDatabase
