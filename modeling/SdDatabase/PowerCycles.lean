import SdDatabase.CutRuns
import SdDatabase.Lib.Unwinding
import SdDatabase.TaskRuns

/-!
# The database task through power cuts

The task serves its clients until the power goes away: in the mount, while it waits, or
between two writes of a request. The queues and the memory are lost, and the task starts
again on the card. Through any number of such power cycles the clients see one phone book.
-/

namespace SdDatabase

open Bytes Device Unwinding

set_option autoImplicit false

/-- A start-up finds these people, behind start-ups that are cut as well. -/
def Boots (card : Card Sector) (people : List Person) : Prop :=
  ∀ later memory, CutInits card later → (Machine.restart later memory).1 = .strgOk ∧
    (Machine.restart later memory).2.Holds people

theorem Boots.mount_cut {card : Card Sector} {people : List Person} (boots : Boots card people)
    (memory : Database) (count : Nat) : Boots (cutCard databaseInit memory count card) people :=
  fun later again cuts => boots later again (.cut memory count cuts)

section Boots

variable {machine : Machine} {people : List Person}

theorem cut_boots (holds : machine.Holds people) {call : Call} {count : Nat}
    (room : ¬Exhausts call machine.db machine.card) (whole : ¬machine.SplitsChat call count) :
    ∃ after, Boots (machine.cut call count) after ∧ Model.Interrupted call people after := by
  obtain ⟨recent, view, chain, listing, mounted, tidy, is⟩ := holds
  obtain ⟨seen, final, recovers, holdsView, ⟨seenChain, after, mountable, seenTidy, order, members,
    interrupted⟩⟩ := whole_cut mounted tidy room whole
  rw [is] at interrupted
  refine ⟨after, fun later memory cuts => ?_, interrupted⟩
  obtain ⟨rebooted, newListing, run, _, remounted, _⟩ :=
    restart_spec recovers holdsView mountable cuts memory
  rw [run]
  exact ⟨rfl, mounted_holds remounted seenTidy (people_of_book remounted order members)⟩

theorem holds_boots (holds : machine.Holds people) : Boots machine.card people := by
  obtain ⟨recent, view, chain, listing, mounted, tidy, is⟩ := holds
  intro later memory cuts
  obtain ⟨rebooted, newListing, run, _, remounted, _⟩ := restart_spec
    (Or.inl ⟨mounted.core.idle, rfl⟩) ⟨_, mounted.core.holds⟩ (mounted.core.mountable tidy) cuts
    memory
  have same := people_unique mounted remounted rfl
  rw [is] at same
  rw [run]
  exact ⟨rfl, mounted_holds remounted tidy same.symm⟩

end Boots

namespace Machine

/-- The machine as the store of the task, on a healthy card. -/
def store (machine : Machine) : Store := ⟨machine.db, .healthy, machine.card⟩

/-- What the task answers to a request on a mounted database. -/
def serve (machine : Machine) (request : DbRequest) : DbResponse × Machine :=
  match request.call with
  | some call =>
      let outcome := machine.run call.run
      (request.respond outcome.1.ret (some outcome.1), outcome.2)
  | none =>
      (request.respond (if request.type = DbRequestType.stop.code then .strgOk else .strgFail) none,
        machine)

/-- The message sectors do not run out in a request. -/
def HasRoom (machine : Machine) (request : DbRequest) : Prop :=
  ∀ call, request.call = some call → ¬Exhausts call machine.db machine.card

end Machine

def servedBehind : Machine → List DbRequest → Machine
  | machine, [] => machine
  | machine, request :: rest => servedBehind (machine.serve request).2 rest

theorem stop_call {request : DbRequest} (stops : request.type = DbRequestType.stop.code) :
    request.call = none := by
  unfold DbRequest.call
  rw [stops]
  rfl

theorem answer_serve (machine : Machine) (request : DbRequest) :
    answer .strgOk machine.store request =
      ((machine.serve request).1, (machine.serve request).2.store) := by
  unfold answer Machine.serve
  by_cases stops : request.type = DbRequestType.stop.code
  · rw [if_pos stops, stop_call stops]
    dsimp only
    rw [if_pos stops]
  · rw [if_neg stops, if_neg (fun other => other rfl)]
    cases request.call with
    | none =>
        dsimp only
        rw [if_neg stops]
    | some call =>
        dsimp only
        rw [Store.exec, Machine.store]
        dsimp only
        rw [exec_healthy]
        rfl

theorem session_serve (machine : Machine) (requests : List DbRequest) :
    session .strgOk machine.store requests =
      (answers Machine.serve machine requests, (servedBehind machine requests).store) := by
  induction requests generalizing machine with
  | nil => rfl
  | cons request rest ih =>
      rw [session, answer_serve]
      dsimp only
      rw [ih]
      rfl

theorem db_handle_writes {request : DbRequest} {call : Call} (asks : request.call = some call)
    (db : Database) (card : Card Sector) :
    (out (dbHandle .strgOk request) db card).2 = (out call.run db card).2 := by
  have looked : dbHandlers[request.type.toNat]? =
      (DbRequestType.ofCode request.type).map DbRequestType.handler := List.getElem?_map
  unfold DbRequest.call at asks
  unfold dbHandle
  rw [if_neg (fun both => both.1 rfl), looked]
  cases known : DbRequestType.ofCode request.type with
  | none =>
      rw [known] at asks
      cases asks
  | some type =>
      rw [known] at asks
      have runs : type.handler request.args = (do
          let reply ← call.run
          return (reply.ret, some reply)) := by
        cases type <;> cases asks <;> rfl
      rw [Option.map_some]
      dsimp only
      rw [runs, out_bind, out_bind]
      simp only [out_pure, List.append_nil]

theorem db_handle_quiet {request : DbRequest} (none_ : request.call = none) (db : Database)
    (card : Card Sector) : (out (dbHandle .strgOk request) db card).2 = [] := by
  have looked : dbHandlers[request.type.toNat]? =
      (DbRequestType.ofCode request.type).map DbRequestType.handler := List.getElem?_map
  unfold dbHandle
  rw [if_neg (fun both => both.1 rfl), looked]
  cases known : DbRequestType.ofCode request.type with
  | none => rfl
  | some type =>
      rw [call_none request type known none_]
      rfl

theorem cut_request {request : DbRequest} {call : Call} (asks : request.call = some call)
    (machine : Machine) (count : Nat) :
    cutCard (dbHandle .strgOk request) machine.db count machine.card = machine.cut call count := by
  rw [machine_cut_eq, cut_card_eq, db_handle_writes asks]
  rfl

/-- The responses are those of a phone book that gets the requests in this order. -/
inductive Model.Serves : List (DbRequest × DbResponse) → Model → Model → Prop where
  | stop (model : Model) : Model.Serves [] model model
  | called {request : DbRequest} {rest : List (DbRequest × DbResponse)} {model last : Model}
      (call : Call) (reply : Reply) (asks : request.call = some call)
      (answers : ∀ expected, Model.reply call model = some expected → reply = expected)
      (later : Model.Serves rest (Model.next call model) last) :
      Model.Serves ((request, request.respond reply.ret (some reply)) :: rest) model last
  | other {request : DbRequest} {rest : List (DbRequest × DbResponse)} {model last : Model}
      (none_ : request.call = none) (later : Model.Serves rest model last) :
      Model.Serves ((request, request.respond
        (if request.type = DbRequestType.stop.code then .strgOk else .strgFail) none) :: rest)
        model last

theorem serves_sound {machine : Machine} {model : Model} (sound : machine.Sound model)
    {requests : List DbRequest} (room : Admitted Machine.serve Machine.HasRoom machine requests) :
    ∃ last, Model.Serves (requests.zip (answers Machine.serve machine requests)) model last ∧
      (servedBehind machine requests).Sound last := by
  induction requests generalizing machine model with
  | nil => exact ⟨model, .stop model, sound⟩
  | cons request rest ih =>
      rw [answers, List.zip_cons_cons, servedBehind]
      cases asks : request.call with
      | none =>
          have served : machine.serve request = (request.respond
              (if request.type = DbRequestType.stop.code then .strgOk else .strgFail) none,
              machine) := by
            rw [Machine.serve, asks]
          have later := room.2
          rw [served] at later ⊢
          obtain ⟨last, serves, behind⟩ := ih sound later
          exact ⟨last, .other asks serves, behind⟩
      | some call =>
          have served : machine.serve request =
              (request.respond (machine.run call.run).1.ret (some (machine.run call.run).1),
                (machine.run call.run).2) := by
            rw [Machine.serve, asks]
          have later := room.2
          rw [served] at later ⊢
          obtain ⟨next, answered⟩ := Machine.call_sound sound call (room.1 call asks)
          obtain ⟨last, serves, behind⟩ := ih next later
          exact ⟨last, .called call _ asks answered serves, behind⟩

/-- What the time between power on and power off brings: what is in memory and in the queues,
what the clients and the task do, and the writes that are still made of the one at work. -/
structure PowerCycle where
  hostBuild : Bool
  memory : Database
  buffer : Vector DbRequest dbTaskQueueSize
  replyQs : Nat → PlatformQueue DbResponse
  schedule : List TaskAction
  writes : Nat

/-- The card that is left when the power goes away behind some writes of the mount or of the
request at work. -/
def TaskSystem.powerOff (system : TaskSystem) (writes : Nat) : Card Sector :=
  match system.phase with
  | .starting => cutCard databaseInit system.store.db writes system.store.card
  | .handling item =>
      cutCard (dbHandle system.mountRet item.request) system.store.db writes system.store.card
  | _ => system.store.card

namespace PowerCycle

/-- The task mounts the card and runs. -/
def system (cycle : PowerCycle) (card : Card Sector) : TaskSystem :=
  (dbInit true none cycle.buffer ⟨cycle.memory, .healthy, card⟩ cycle.replyQs).run
    cycle.hostBuild cycle.schedule

def cardAfter (cycle : PowerCycle) (card : Card Sector) : Card Sector :=
  (cycle.system card).powerOff cycle.writes

/-- The message sectors do not run out, and the power does not go away within a chat. -/
def Admits (card : Card Sector) (cycle : PowerCycle) : Prop :=
  let system := cycle.system card
  let machine : Machine := ⟨system.store.db, system.store.card⟩
  Admitted Machine.serve Machine.HasRoom (Machine.restart card cycle.memory).2 system.requests ∧
    ∀ item call, system.phase = .handling item → item.request.call = some call →
      ¬Exhausts call machine.db machine.card ∧ ¬machine.SplitsChat call cycle.writes

/-- One power cycle behind the other. -/
def run (card : Card Sector) (cycle : PowerCycle) : TaskSystem × Card Sector :=
  (cycle.system card, cycle.cardAfter card)

end PowerCycle

def cardBehind : Card Sector → List PowerCycle → Card Sector
  | card, [] => card
  | card, cycle :: rest => cardBehind (cycle.cardAfter card) rest

/-- A phone book through power cycles. It answers the requests that are handled in a cycle,
and a request that is cut is done, not done or half done. -/
inductive Model.Survives : List TaskSystem → List Person → List Person → Prop where
  | stop (people : List Person) : Model.Survives [] people people
  | unmounted {system : TaskSystem} {rest : List TaskSystem} {people last : List Person}
      (starts : system.phase = .starting) (none_ : system.handled = [])
      (later : Model.Survives rest people last) : Model.Survives (system :: rest) people last
  | served {system : TaskSystem} {rest : List TaskSystem} {people middle last : List Person}
      {recent : List (List Byte)} {after : Model} (mounted : system.mountRet = .strgOk)
      (listed : Model.Consistent ⟨people, recent⟩)
      (serves : Model.Serves (system.handled.map fun pair => (pair.1.request, pair.2))
        ⟨people, recent⟩ after)
      (cut : middle = after.people ∨ ∃ item call, system.phase = .handling item ∧
        item.request.call = some call ∧ Model.Interrupted call after.people middle)
      (later : Model.Survives rest middle last) : Model.Survives (system :: rest) people last

section Cycles

variable {card : Card Sector} {people : List Person} {cycle : PowerCycle}

theorem mounting_restart (card : Card Sector) (memory : Database) :
    mounting true ⟨memory, .healthy, card⟩ =
      ((Machine.restart card memory).1, (Machine.restart card memory).2.store) := by
  rw [mounting, if_pos rfl, Store.exec]
  dsimp only
  rw [exec_healthy]
  rfl

theorem cycle_sequential (card : Card Sector) (cycle : PowerCycle) :
    (cycle.system card).Sequential true ⟨cycle.memory, .healthy, card⟩ :=
  TaskSystem.run_keeps cycle.hostBuild _ (TaskSystem.Sequential true _)
    (fun _ _ => keeps_sequential) (init_sequential true none cycle.buffer _ cycle.replyQs)
    cycle.schedule

theorem cycle_unmounted (boots : Boots card people)
    (starts : (cycle.system card).phase = .starting) :
    (cycle.system card).handled = [] ∧ Boots (cycle.cardAfter card) people := by
  obtain ⟨kept, none_⟩ := (cycle_sequential card cycle).unstarted starts
  refine ⟨none_, ?_⟩
  rw [PowerCycle.cardAfter, TaskSystem.powerOff, starts, kept]
  exact boots.mount_cut _ _

theorem cycle_served (boots : Boots card people) (admits : PowerCycle.Admits card cycle)
    (mounted : (cycle.system card).phase ≠ .starting) :
    (cycle.system card).mountRet = .strgOk ∧ ∃ recent after middle,
      Model.Consistent ⟨people, recent⟩ ∧
      Model.Serves ((cycle.system card).handled.map fun pair => (pair.1.request, pair.2))
        ⟨people, recent⟩ after ∧
      (middle = after.people ∨ ∃ item call, (cycle.system card).phase = .handling item ∧
        item.request.call = some call ∧ Model.Interrupted call after.people middle) ∧
      Boots (cycle.cardAfter card) middle := by
  obtain ⟨room, cuts⟩ := admits
  obtain ⟨ret, session⟩ := (cycle_sequential card cycle).mounted mounted
  obtain ⟨started, recent, sound⟩ := boots card cycle.memory (.none card)
  rw [mounting_restart, started] at ret session
  dsimp only at ret session
  rw [session_serve] at session
  obtain ⟨after, serves, behind⟩ := serves_sound sound room
  have responses := congrArg Prod.fst session
  have kept := congrArg Prod.snd session
  dsimp only at responses kept
  rw [responses, TaskSystem.requests, List.zip_map'] at serves
  have behindCard : Boots (servedBehind (Machine.restart card cycle.memory).2
      (cycle.system card).requests).card after.people := holds_boots ⟨after.recent, behind⟩
  have same : (cycle.system card).store.card = (servedBehind (Machine.restart card
      cycle.memory).2 (cycle.system card).requests).card := by
    rw [← kept]
    rfl
  rw [← same] at behindCard
  refine ⟨ret, recent, after, ?_⟩
  have listed := sound_consistent sound
  rw [PowerCycle.cardAfter, TaskSystem.powerOff]
  cases phase : (cycle.system card).phase with
  | starting => exact absurd phase mounted
  | handling item =>
      dsimp only
      rw [ret]
      cases asks : item.request.call with
      | none =>
          refine ⟨after.people, listed, serves, Or.inl rfl, ?_⟩
          rw [cut_card_eq, db_handle_quiet asks, List.take_nil]
          exact behindCard
      | some call =>
          obtain ⟨left, whole⟩ := cuts item call phase asks
          have holds : Machine.Holds ⟨(cycle.system card).store.db,
              (cycle.system card).store.card⟩ after.people := by
            rw [← kept]
            exact ⟨after.recent, behind⟩
          obtain ⟨middle, boots, interrupted⟩ := cut_boots holds left whole
          have cut := cut_request asks ⟨(cycle.system card).store.db,
            (cycle.system card).store.card⟩ cycle.writes
          refine ⟨middle, listed, serves, Or.inr ⟨item, call, rfl, asks, interrupted⟩, ?_⟩
          rw [cut]
          exact boots
  | _ => exact ⟨after.people, listed, serves, Or.inl rfl, behindCard⟩

theorem cycles_survive (boots : Boots card people) {cycles : List PowerCycle}
    (admitted : Admitted PowerCycle.run PowerCycle.Admits card cycles) :
    ∃ last, Model.Survives (answers PowerCycle.run card cycles) people last ∧
      Boots (cardBehind card cycles) last := by
  induction cycles generalizing card people with
  | nil => exact ⟨people, .stop people, boots⟩
  | cons cycle rest ih =>
      obtain ⟨admits, later⟩ := admitted
      by_cases starts : (cycle.system card).phase = .starting
      · obtain ⟨none_, next⟩ := cycle_unmounted boots starts
        obtain ⟨last, survives, behind⟩ := ih next later
        exact ⟨last, .unmounted starts none_ survives, behind⟩
      · obtain ⟨ret, recent, after, middle, listed, serves, cut, next⟩ := cycle_served boots admits starts
        obtain ⟨last, survives, behind⟩ := ih next later
        exact ⟨last, .served ret listed serves cut survives, behind⟩

end Cycles

/-- Through any power cycles the clients of the task see one phone book. -/
theorem power_cycles_refine (machine : Machine) {cycles : List PowerCycle}
    (admitted : Admitted PowerCycle.run PowerCycle.Admits machine.format.card cycles) :
    ∃ last, Model.Survives (answers PowerCycle.run machine.format.card cycles) [] last ∧
      Boots (cardBehind machine.format.card cycles) last :=
  cycles_survive (holds_boots (format_nobody machine)) admitted

def exampleRequest (type : DbRequestType) : DbRequest where
  type := type.code
  replyQ := none
  tag := 0#32
  args :=
    { phone := ⟨⟨exampleText, by decide⟩⟩
      contactAdd := ⟨⟨exampleText, by decide⟩, ⟨exampleText, by decide⟩⟩
      contactUpdate :=
        ⟨⟨exampleText, by decide⟩, ⟨exampleText, by decide⟩, ⟨exampleText, by decide⟩⟩
      contactSeek := ⟨⟨exampleText, by decide⟩⟩
      range := ⟨0, 0, false⟩
      chat := ⟨⟨exampleText, by decide⟩, 0, 0, false⟩
      messageAdd := ⟨⟨exampleText, by decide⟩, 7#32, true, ⟨exampleText, by decide⟩⟩ }

def exampleResponse : DbResponse := (exampleRequest .contactGet).respond .strgFail none

def exampleCycle (schedule : List TaskAction) (writes : Nat) : PowerCycle where
  hostBuild := false
  memory := formattedDatabase
  buffer := Vector.replicate _ (exampleRequest .contactGet)
  replyQs _ := platformOsQueueCreate 1 (Vector.replicate _ exampleResponse) (by decide) (by decide)
  schedule := schedule
  writes := writes

/-- The power goes away in a rename, behind a message that was added. -/
def exampleCut : PowerCycle :=
  exampleCycle [.task, .post 0 (some (exampleRequest .messageAdd)) 0#32, .task, .task,
    .post 0 (some (exampleRequest .contactUpdate)) 0#32, .task] 4

def exampleServed : PowerCycle :=
  exampleCycle [.task, .post 0 (some (exampleRequest .contactGet)) 0#32, .task, .task] 0

/-- A cut request, a mount that is cut, and a cycle that serves a request. -/
def exampleCycles : List PowerCycle := [exampleCut, exampleCycle [] 2, exampleServed]

section Example

variable {card : Card Sector}

theorem example_cut_requests : (exampleCut.system card).requests = [exampleRequest .messageAdd] :=
  rfl

theorem example_cut_phase :
    (exampleCut.system card).phase = .handling ⟨6, exampleRequest .contactUpdate⟩ := rfl

theorem example_served_requests :
    (exampleServed.system card).requests = [exampleRequest .contactGet] := rfl

theorem example_served_phase : (exampleServed.system card).phase = .receiving := rfl

theorem request_has_room {machine : Machine} {request : DbRequest} {call : Call}
    (asks : request.call = some call) (room : ¬Exhausts call machine.db machine.card) :
    machine.HasRoom request := by
  intro other same
  rw [asks] at same
  cases same
  exact room

theorem example_cut_admitted
    (within : (Machine.restart card formattedDatabase).2.Within 0) :
    PowerCycle.Admits card exampleCut := by
  unfold PowerCycle.Admits
  dsimp only
  rw [example_cut_requests, example_cut_phase]
  refine ⟨⟨request_has_room rfl (within.room (by decide) _), trivial⟩, fun item call busy asks => ?_⟩
  cases busy
  cases asks
  exact ⟨(fun exhausts => by cases exhausts.1), id⟩

theorem example_mount_admitted : PowerCycle.Admits card (exampleCycle [] 2) :=
  ⟨trivial, fun item call busy => by cases busy⟩

theorem example_served_admitted : PowerCycle.Admits card exampleServed := by
  unfold PowerCycle.Admits
  dsimp only
  rw [example_served_requests, example_served_phase]
  refine ⟨⟨request_has_room rfl (fun exhausts => by cases exhausts.1), trivial⟩, ?_⟩
  intro item call busy
  cases busy

end Example

theorem power_cycles_refine_example :
    ∃ last, Model.Survives (answers PowerCycle.run exampleMachine.format.card exampleCycles) []
        last ∧
      Boots (cardBehind exampleMachine.format.card exampleCycles) last :=
  power_cycles_refine exampleMachine
    ⟨example_cut_admitted ((format_within exampleMachine).restart formattedDatabase),
      example_mount_admitted, example_served_admitted, trivial⟩

end SdDatabase
