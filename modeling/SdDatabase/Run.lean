import SdDatabase.Format
import SdDatabase.MessageAdd
import SdDatabase.Removal

/-!
# Runs of calls

A machine is the database in memory with its card. Every call takes a mounted
machine to a mounted machine and does to the phone book what the model says, so
a run of calls after formatting is a run of the model.
-/

namespace SdDatabase

open Bytes Device

set_option autoImplicit false

structure Machine where
  db : Database
  card : Card Sector

namespace Machine

/-- A program run to its end on a healthy card. -/
def run {A : Type} (program : DbM A) (machine : Machine) : A × Machine :=
  let outcome := out program machine.db machine.card
  (outcome.1.1, ⟨outcome.1.2, applyWrites outcome.2 machine.card⟩)

/-- The answers to the calls and the machine behind the last one. -/
def runCalls (machine : Machine) : List Call → List Reply × Machine
  | [] => ([], machine)
  | call :: rest =>
      let first := machine.run call.run
      let later := first.2.runCalls rest
      (first.1 :: later.1, later.2)

/-- No call of the run asks an empty message allocator for a sector. -/
def Sufficient (machine : Machine) : List Call → Prop
  | [] => True
  | call :: rest =>
      ¬Exhausts call machine.db machine.card ∧ (machine.run call.run).2.Sufficient rest

theorem run_of {A : Type} {program : DbM A} {machine : Machine} {result : A} {next : Database}
    {log : WriteLog Sector} (given : out program machine.db machine.card = ((result, next), log)) :
    machine.run program = (result, ⟨next, applyWrites log machine.card⟩) := by
  rw [run, given]

end Machine

/-- The answers of the model, where it has one, and the phone book in the end. -/
def Model.runCalls (model : Model) : List Call → List (Option Reply) × Model
  | [] => ([], model)
  | call :: rest =>
      let later := (Model.next call model).runCalls rest
      (Model.reply call model :: later.1, later.2)

section HistoryReads

variable {E : Type} (layout : HistoryLayout E)

theorem reads_readHistorySector (index : Nat) :
    ReadsOf layout.ring (readHistorySector layout index) := reads_readSector _ _

theorem reads_readHistory (sectorIndex pos n : Nat) (read : List E) :
    ReadsOf layout.ring (readHistory layout sectorIndex pos n read) := by
  unfold readHistory
  refine (reads_readHistorySector layout _).bind fun got => ?_
  cases got with
  | error ret => exact reads_pure _
  | ok content => exact ReadsOf.ite (reads_pure _) (reads_pure _)

theorem reads_readOlderHistory (occupancy n sectorsLeft index : Nat) (read : List E) :
    ReadsOf layout.ring (readOlderHistory layout occupancy n sectorsLeft index read) := by
  induction sectorsLeft generalizing index read with
  | zero => exact reads_pure _
  | succ sectorsLeft ih =>
      unfold readOlderHistory
      refine ReadsOf.ite (reads_pure _) ?_
      refine (reads_readHistory layout _ _ _ _).bind fun got => ?_
      obtain ⟨ret, longer⟩ := got
      cases ret <;> first | exact ih _ _ | exact reads_pure _

theorem reads_historyGetRange (start n : Nat) :
    ReadsOf layout.ring (historyGetRange layout start n) := by
  unfold historyGetRange
  refine reads_get (fun first second same => by dsimp only; rw [same]) fun db => ?_
  refine (reads_readHistorySector layout _).bind fun got => ?_
  cases got with
  | error ret => exact reads_pure _
  | ok content =>
      refine ReadsOf.ite (reads_pure _) (ReadsOf.ite (reads_pure _)
        (ReadsOf.ite (reads_pure _) ?_))
      refine (reads_readHistory layout _ _ _ _).bind fun got => ?_
      obtain ⟨ret, read⟩ := got
      cases ret <;> first | exact reads_readOlderHistory layout _ _ _ _ _ | exact reads_pure _

theorem reads_messageRecent (start n : Nat) (given : Bool) :
    ReadsOf messageHistoryLayout.ring (databaseMessageRecent start n given) :=
  ReadsOf.ite (reads_pure _) (reads_historyGetRange messageHistoryLayout start n)

theorem reads_callRecent (start n : Nat) (given : Bool) :
    ReadsOf callHistoryLayout.ring (databaseCallRecent start n given) :=
  ReadsOf.ite (reads_pure _) (reads_historyGetRange callHistoryLayout start n)

end HistoryReads

/-- The views that a power cut in a call may leave behind. -/
def callViews (db : Database) (view : View) (chain : Nat → List Nat) :
    Call → View → (Nat → List Nat) → Nat → View → Prop
  | .messageAdd phone timestamp direction str => addViews db view chain phone timestamp direction str
  | .contactRemove phone => shortened view chain phone
  | .messageRemoveChat phone => shortened view chain phone
  | _ => oldOrNew view

section Calls

variable {db : Database} {card : Card Sector} {view : View} {chain : Nat → List Nat}
  {listing : Listing}

theorem Carries.map {A B : Type} {program : DbM A} {result : A} {model : Model}
    {during : View → (Nat → List Nat) → Nat → View → Prop}
    (carries : Carries program db card view chain result model during) (f : A → B) :
    Carries (do return f (← program)) db card view chain (f result) model during := by
  obtain ⟨next, log, later, laterChain, laterListing, run, rest⟩ := carries
  refine ⟨next, log, later, laterChain, laterListing, ?_, rest⟩
  have logEq : log = log ++ [] := (List.append_nil log).symm
  rw [logEq]
  exact out_bind_both run rfl

/-- A call that only reads. -/
theorem carries_answer (mounted : Mounted db card view chain listing) {A : Type}
    {program : DbM A} {result : A} (run : out program db card = ((result, db), [])) :
    Carries program db card view chain result (modelOf db view chain listing) (oldOrNew view) :=
  carries_unchanged mounted run (fun _ => Or.inl rfl)

theorem call_spec (mounted : Mounted db card view chain listing) (call : Call)
    (room : ¬Exhausts call db card) :
    ∃ result, Carries call.run db card view chain result
      (Model.next call (modelOf db view chain listing)) (callViews db view chain call) ∧
      ∀ expected, Model.reply call (modelOf db view chain listing) = some expected →
        result = expected := by
  have known : ∀ result expected : Reply, some result = some expected → result = expected :=
    fun _ _ same => Option.some_injective _ same
  cases call with
  | contactAdd name phone =>
      exact ⟨_, (contact_add_spec mounted name phone).map Reply.status, known _⟩
  | contactGet phone given =>
      exact ⟨_, (carries_answer mounted (contact_get_spec mounted phone given)).map Reply.contact,
        known _⟩
  | contactUpdate phone newName newPhone =>
      exact ⟨_, (contact_update_spec mounted phone newName newPhone).map Reply.status, known _⟩
  | contactRemove phone =>
      exact ⟨_, (contact_remove_spec mounted phone).map Reply.status, known _⟩
  | contactList start n given =>
      exact ⟨_, (carries_answer mounted (contact_list_spec mounted start n given)).map
        fun got => Reply.contacts got.1 got.2, known _⟩
  | contactSeek text given =>
      exact ⟨_, (carries_answer mounted (contact_seek_spec mounted text given)).map Reply.rank,
        known _⟩
  | contactCount =>
      exact ⟨_, (carries_answer mounted (contact_count_spec mounted)).map Reply.count, known _⟩
  | messageAdd phone timestamp direction str =>
      exact ⟨_, (message_add_spec mounted phone timestamp direction str room).map Reply.status,
        known _⟩
  | messageGetChat phone start n given =>
      exact ⟨_, (carries_answer mounted (get_chat_spec mounted phone start n given)).map
        fun got => Reply.messages got.1 got.2, known _⟩
  | messageRemoveChat phone =>
      exact ⟨_, (message_remove_chat_spec mounted phone).map Reply.status, known _⟩
  | messageRecent start n given =>
      obtain ⟨_, run, _⟩ := reads_messageRecent start n given db db card rfl
      exact ⟨_, (carries_answer mounted run).map fun got => Reply.recent got.1 got.2,
        fun _ none_ => absurd none_ (Option.some_ne_none _).symm⟩
  | chatList start n given =>
      exact ⟨_, (carries_answer mounted (chat_list_spec mounted start n given)).map
        fun got => Reply.chats got.1 got.2, known _⟩
  | chatCount =>
      exact ⟨_, (carries_answer mounted (@chat_count_spec _ _ _ _ listing)).map Reply.count,
        known _⟩
  | callAdd phone =>
      exact ⟨_, (call_add_spec mounted phone).map Reply.status, known _⟩
  | callRecent start n given =>
      obtain ⟨_, run, _⟩ := reads_callRecent start n given db db card rfl
      exact ⟨_, (carries_answer mounted run).map fun got => Reply.calls got.1 got.2,
        fun _ none_ => absurd none_ (Option.some_ne_none _).symm⟩

end Calls

namespace Machine

/-- The machine is mounted with the phone book `model`, and no sector is lost. -/
def Sound (machine : Machine) (model : Model) : Prop :=
  ∃ view chain listing, Mounted machine.db machine.card view chain listing ∧ Tidy view chain ∧
    modelOf machine.db view chain listing = model

def format (machine : Machine) : Machine := (machine.run databaseFormat).2

theorem run_format (machine : Machine) :
    machine.run databaseFormat =
      (.strgOk, ⟨formattedDatabase, applyWrites formatLog machine.card⟩) :=
  run_of (out_databaseFormat machine.db machine.card)

theorem format_eq (machine : Machine) :
    machine.format = ⟨formattedDatabase, applyWrites formatLog machine.card⟩ := by
  rw [format, run_format]

theorem format_mounts (machine : Machine) :
    Mounted machine.format.db machine.format.card blankView (fun _ => []) [] := by
  rw [format_eq]
  dsimp only
  exact format_mounted machine.card

theorem format_sound (machine : Machine) : machine.format.Sound .empty := by
  have mounted := format_mounted machine.card
  rw [format_eq]
  unfold Sound
  dsimp only
  exact ⟨blankView, fun _ => [], [], mounted, blank_tidy, rfl⟩

theorem call_sound {machine : Machine} {model : Model} (sound : machine.Sound model) (call : Call)
    (room : ¬Exhausts call machine.db machine.card) :
    (machine.run call.run).2.Sound (Model.next call model) ∧
      ∀ expected, Model.reply call model = some expected → (machine.run call.run).1 = expected := by
  obtain ⟨view, chain, listing, mounted, tidy, rfl⟩ := sound
  obtain ⟨result, ⟨next, log, later, laterChain, laterListing, ran, _, laterMounted, keeps, model⟩,
    answers⟩ := call_spec mounted call room
  rw [run_of ran]
  exact ⟨⟨later, laterChain, laterListing, laterMounted, keeps tidy, model⟩, answers⟩

/-- The reply is the one expected, if there is one. -/
def Agrees (expected : Option Reply) (reply : Reply) : Prop :=
  ∀ answer, expected = some answer → reply = answer

theorem run_calls_sound {machine : Machine} {model : Model} (sound : machine.Sound model)
    (calls : List Call) (enough : machine.Sufficient calls) :
    (machine.runCalls calls).2.Sound (model.runCalls calls).2 ∧
      List.Forall₂ Agrees (model.runCalls calls).1 (machine.runCalls calls).1 := by
  induction calls generalizing machine model with
  | nil => exact ⟨sound, .nil⟩
  | cons call rest ih =>
      obtain ⟨next, answers⟩ := call_sound sound call enough.1
      obtain ⟨last, others⟩ := ih next enough.2
      exact ⟨last, .cons answers others⟩

end Machine

/-- The calls after formatting answer as the abstract phone book does. -/
theorem formatted_calls_refine_model (machine : Machine) (calls : List Call)
    (enough : machine.format.Sufficient calls) :
    (machine.run databaseFormat).1 = .strgOk ∧
      List.Forall₂ Machine.Agrees (Model.empty.runCalls calls).1
        (machine.format.runCalls calls).1 := by
  refine ⟨?_, (Machine.run_calls_sound machine.format_sound calls enough).2⟩
  rw [Machine.run_format]

theorem format_allocator_some : formattedDatabase.messageAllocator.freeStack ≠ [] := by
  unfold formattedDatabase
  rw [ne_eq, List.reverse_eq_nil_iff, List.range_eq_nil]
  simp

def exampleText : CString := ⟨[49#8, 50#8], by decide⟩

def exampleMachine : Machine := ⟨formattedDatabase, fun _ => nullContent⟩

theorem formatted_calls_refine_model_example :
    (exampleMachine.run databaseFormat).1 = .strgOk ∧
      List.Forall₂ Machine.Agrees
        (Model.empty.runCalls
          [.messageAdd (some exampleText) 7#32 true (some exampleText),
            .messageGetChat (some exampleText) 0 1 true]).1
        (exampleMachine.format.runCalls
          [.messageAdd (some exampleText) 7#32 true (some exampleText),
            .messageGetChat (some exampleText) 0 1 true]).1 := by
  refine formatted_calls_refine_model exampleMachine _ ⟨?_, ?_, trivial⟩
  · rintro ⟨_, none_⟩
    rw [Machine.format_eq] at none_
    exact format_allocator_some none_
  · rintro ⟨asks, _⟩
    cases asks

end SdDatabase
