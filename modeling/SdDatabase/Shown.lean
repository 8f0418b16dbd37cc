import SdDatabase.CleanRemount
import SdDatabase.EmptyMount
import SdDatabase.HistoryWindow

/-!
# What a machine shows

Two machines show the same when the calls that read give the same replies. For the
histories this is known from the sectors of their rings, for contacts and chats from
the view, or from there being nobody.
-/

namespace SdDatabase

open Bytes Device

set_option autoImplicit false

section HistoryReplies

variable {E : Type} {layout : HistoryLayout E} {db other : Database} {card second : Card Sector}

section Same

variable (region : ringRaw layout 5000 ≤ 65536)
  (same : ∀ index < 5000, second (ringRaw layout index) = card (ringRaw layout index))

include region same

theorem agree_readHistorySector {index : Nat} (bound : index < 5000) :
    Agree db other card second (readHistorySector layout index)
      (readHistorySector layout index) := by
  have inside : ringRaw layout index < 65536 := by
    unfold ringRaw at region ⊢
    omega
  obtain ⟨raw, narrow⟩ := history_raw inside
  unfold readHistorySector
  rw [raw]
  refine ⟨_, out_readSector db card _, ?_⟩
  rw [out_readSector, narrow, same index bound]

theorem agree_readHistory {index : Nat} (bound : index < 5000) (pos n : Nat) (read : List E) :
    Agree db other card second (readHistory layout index pos n read)
      (readHistory layout index pos n read) := by
  unfold readHistory
  refine (agree_readHistorySector region same bound).bind fun got => ?_
  cases got with
  | error ret => exact agree_pure _
  | ok content =>
      dsimp only
      split
      · exact agree_pure _
      · exact agree_pure _

theorem agree_readOlderHistory {occupancy : Nat} (few : occupancy ≤ 5000)
    (n sectorsLeft index : Nat) (bound : index < 5000) (read : List E) :
    Agree db other card second (readOlderHistory layout occupancy n sectorsLeft index read)
      (readOlderHistory layout occupancy n sectorsLeft index read) := by
  induction sectorsLeft generalizing index read with
  | zero => exact agree_pure _
  | succ sectorsLeft ih =>
      unfold readOlderHistory
      by_cases complete : n ≤ read.length
      · rw [if_pos complete]
        exact agree_pure _
      · rw [if_neg complete]
        refine (agree_readHistory region same bound _ _ _).bind fun got => ?_
        obtain ⟨ret, longer⟩ := got
        have before : ringIteratorPrev occupancy index < 5000 := by
          unfold ringIteratorPrev
          split <;> omega
        cases ret <;> first | exact ih _ before _ | exact agree_pure _

theorem agree_historyGetRange {started : Nat} (left : layout.ring db = ringPosition started)
    (right : layout.ring other = ringPosition started) (start n : Nat) :
    Agree db other card second (historyGetRange layout start n)
      (historyGetRange layout start n) := by
  have current : (ringPosition started).currentIndex < 5000 := Nat.mod_lt _ (by decide)
  have few : (ringPosition started).occupancy ≤ 5000 := Nat.min_le_right _ _
  unfold historyGetRange
  refine agree_get ?_
  rw [left, right]
  refine (agree_readHistorySector region same current).bind fun got => ?_
  cases got with
  | error ret => exact agree_pure _
  | ok content =>
      dsimp only
      split
      · exact agree_pure _
      · split
        · exact agree_pure _
        · split
          · exact agree_pure _
          · have inside : startRbIndex (ringPosition started) (historyStart layout.capacity
                (ofSector content : RingSector E layout.capacity layout.spare).header start).1 <
                  5000 := by
              omega
            refine (agree_readHistory region same inside _ _ _).bind fun got => ?_
            obtain ⟨ret, read⟩ := got
            have before : ∀ place, place < 5000 →
                ringIteratorPrev (ringPosition started).occupancy place < 5000 := by
              intro place small
              unfold ringIteratorPrev
              split <;> omega
            cases ret <;>
              first | exact agree_readOlderHistory region same few _ _ _ (before _ inside) _
                    | exact agree_pure _

end Same

variable (frame : layout.Frame)

include frame

/-- Nothing is shown of a history that was never started. -/
theorem blank_history_shown (position : layout.ring db = ringPosition 0)
    (valid : sectorCrcValid (card (ringRaw layout 0)) = true)
    (blank : (ringHeader (card (ringRaw layout 0))).state = rbEmpty) (start n : Nat) :
    out (historyGetRange layout start n) db card = (((.strgOk, []), db), []) := by
  have bounds := frame.start
  have place : (ringPosition 0).currentIndex = 0 := rfl
  refine out_historyGetRange_empty position ?_ ?_ ?_ start n
  · rw [place]
    unfold ringRaw
    omega
  · rw [place]
    exact valid
  · rw [place, frame.header]
    exact blank

theorem newest_history_shown {started : Nat} (some_ : 0 < started)
    (ring : RingHolds layout.capacity started fun index => card (ringRaw layout index))
    (position : layout.ring db = ringPosition started) :
    ∃ read, out (historyGetRange layout 0 1) db card = (((.strgOk, read), db), []) ∧
      read ≠ [] := by
  have bounds := frame.start
  have readable : ∀ index < min started 5000, SectorReadable layout card index := by
    intro index inside
    refine ⟨?_, ring.valid index (by omega), ring.not_empty (by omega) (by omega)⟩
    unfold ringRaw
    omega
  have within := Nat.mod_le (started - 1) 5000
  have small := Nat.mod_lt (started - 1) (show 0 < 5000 by decide)
  have current : (ringPosition started).currentIndex < min started 5000 := by
    change (started - 1) % 5000 < min started 5000
    omega
  have first : startRbIndex (ringPosition started) 0 = (ringPosition started).currentIndex := by
    have start := (@start_rb_index (ringPosition started) 0 (by omega)
      (by change min started 5000 < 65536; omega) (Nat.zero_le _)).1 (Nat.zero_le _)
    simpa using start
  have shown := out_historyGetRange frame position (readable _ current)
    (if_pos (Nat.succ_pos _)) (by omega) (by change (0 : Int) < min started 5000; omega) first
    current rfl (fun visited member => readable visited (ring_visits_inside current member)) 1
  refine ⟨_, shown, ?_⟩
  rw [entries_below_succ]
  exact List.cons_ne_nil _ _

end HistoryReplies

/-- The calls that show what is stored, but for the list of the chats. -/
def Call.shows : Call → Bool
  | .contactGet .. | .contactList .. | .contactSeek .. | .contactCount | .messageGetChat ..
  | .chatCount | .messageRecent .. | .callRecent .. => true
  | _ => false

/-- The two machines show the same contacts, chats and histories. The chats may be listed
in another order. -/
structure ShowsSame (first second : Machine) : Prop where
  replies : ∀ call : Call, call.shows = true → (first.run call.run).1 = (second.run call.run).1
  chats : ∀ n, (first.run databaseChatCount).1 ≤ n →
    (first.run (databaseChatList 0 n true)).1.2.Perm (second.run (databaseChatList 0 n true)).1.2

def SameHistory {E : Type} (layout : HistoryLayout E) (first second : Machine) : Prop :=
  ∀ start n, (first.run (historyGetRange layout start n)).1 =
    (second.run (historyGetRange layout start n)).1

def NoHistory {E : Type} (layout : HistoryLayout E) (machine : Machine) : Prop :=
  ∀ start n, (machine.run (historyGetRange layout start n)).1 = (.strgOk, [])

section Shows

variable {first second machine : Machine}

theorem Agree.answer {A : Type} {program : DbM A}
    (agree : Agree first.db second.db first.card second.card program program) :
    (first.run program).1 = (second.run program).1 := by
  obtain ⟨result, left, right⟩ := agree
  rw [Machine.run_of left, Machine.run_of right]

theorem AnswersAlike.answer {A : Type} {program : DbM A} (alike : AnswersAlike program)
    (left : NoPeople first.db) (right : NoPeople second.db) :
    (first.run program).1 = (second.run program).1 := by
  obtain ⟨result, known⟩ := alike
  rw [Machine.run_of (known _ _ left), Machine.run_of (known _ _ right)]

theorem run_map {A B : Type} (program : DbM A) (f : A → B) (machine : Machine) :
    (machine.run (do return f (← program))).1 = f (machine.run program).1 := by
  rw [Machine.run, Machine.run, out_bind]
  rfl

theorem run_map_answer {A B : Type} {program : DbM A} (f : A → B)
    (same : (first.run program).1 = (second.run program).1) :
    (first.run (do return f (← program))).1 = (second.run (do return f (← program))).1 := by
  rw [run_map, run_map, same]

theorem recent_answer (same : SameHistory messageHistoryLayout first second) (start n : Nat)
    (given : Bool) : (first.run (databaseMessageRecent start n given)).1 =
      (second.run (databaseMessageRecent start n given)).1 := by
  cases given with
  | false => rfl
  | true => exact same start n

theorem calls_answer (same : SameHistory callHistoryLayout first second) (start n : Nat)
    (given : Bool) : (first.run (databaseCallRecent start n given)).1 =
      (second.run (databaseCallRecent start n given)).1 := by
  cases given with
  | false => rfl
  | true => exact same start n

theorem replies_same (people : ∀ call : Call, call.showsPeople = true → call.shows = true →
      (first.run call.run).1 = (second.run call.run).1)
    (messages : SameHistory messageHistoryLayout first second)
    (calls : SameHistory callHistoryLayout first second) (call : Call)
    (shows : call.shows = true) : (first.run call.run).1 = (second.run call.run).1 := by
  cases call with
  | messageRecent start n given =>
      exact run_map_answer (fun got => Reply.recent got.1 got.2)
        (recent_answer messages start n given)
  | callRecent start n given =>
      exact run_map_answer (fun got => Reply.calls got.1 got.2)
        (calls_answer calls start n given)
  | contactGet | contactList | contactSeek | contactCount | messageGetChat | chatCount =>
      exact people _ rfl rfl
  | _ => cases shows

theorem ShowsSame.histories (same : ShowsSame first second) :
    SameHistory messageHistoryLayout first second ∧ SameHistory callHistoryLayout first second := by
  constructor
  · intro start n
    have shown := run_map (messageHistoryGetRange start n) fun got => Reply.recent got.1 got.2
    have reply := same.replies (.messageRecent start n true) rfl
    obtain ⟨ret, read⟩ := Reply.recent.inj ((shown first).symm.trans (reply.trans (shown second)))
    exact Prod.ext ret read
  · intro start n
    have shown := run_map (callHistoryGetRange start n) fun got => Reply.calls got.1 got.2
    have reply := same.replies (.callRecent start n true) rfl
    obtain ⟨ret, read⟩ := Reply.calls.inj ((shown first).symm.trans (reply.trans (shown second)))
    exact Prod.ext ret read

/-- A machine without people shows what another one does when that has none either and the
histories are the same. -/
theorem nobody_shows_iff (nobody : NoPeople first.db) {view : View} {chain : Nat → List Nat}
    {listing : Listing} (mounted : Mounted second.db second.card view chain listing) :
    ShowsSame first second ↔
      second.db.htable.numElems = 0 ∧ SameHistory messageHistoryLayout first second ∧
        SameHistory callHistoryLayout first second := by
  constructor
  · intro same
    have reply := Reply.count.inj (same.replies .contactCount rfl)
    have number : first.db.htable.numElems = second.db.htable.numElems := reply
    exact ⟨number.symm.trans nobody.number, same.histories⟩
  · rintro ⟨number, messages, calls⟩
    have others := nobody_of_mounted mounted number
    constructor
    · exact replies_same (fun call shown _ => (alike_call call shown).answer nobody others)
        messages calls
    · intro n _
      rw [(alike_chatList 0 n true).answer nobody others]

theorem list_all_chats (model : Model) {n : Nat} (all : model.recent.length ≤ n) :
    (model.listChats 0 n true).2 = model.recent.filterMap model.summary := by
  unfold Model.listChats
  rw [if_neg (by decide)]
  by_cases none_ : model.recent.length ≤ 0
  · rw [if_pos none_, List.length_eq_zero_iff.mp (Nat.le_zero.mp none_)]
    rfl
  · rw [if_neg none_, List.drop_zero, List.take_of_length_le all]

theorem mounted_shows_same {view : View} {chain : Nat → List Nat} {listing otherListing : Listing}
    (left : Mounted first.db first.card view chain listing)
    (right : Mounted second.db second.card view chain otherListing)
    (messages : SameHistory messageHistoryLayout first second)
    (calls : SameHistory callHistoryLayout first second) : ShowsSame first second := by
  have people := people_unique left right rfl
  have order := recent_perm left right
  constructor
  · refine replies_same (fun call shown shows => ?_) messages calls
    cases call with
    | contactGet phone given =>
        refine run_map_answer Reply.contact ?_
        rw [Machine.run_of (contact_get_spec left phone given),
          Machine.run_of (contact_get_spec right phone given)]
        unfold Model.getContact Model.find
        rw [people]
    | contactList start n given =>
        refine run_map_answer (fun got : StrgRet × List Contact => Reply.contacts got.1 got.2) ?_
        rw [Machine.run_of (contact_list_spec left start n given),
          Machine.run_of (contact_list_spec right start n given)]
        unfold Model.listContacts
        rw [people]
    | contactSeek text given =>
        refine run_map_answer Reply.rank ?_
        rw [Machine.run_of (contact_seek_spec left text given),
          Machine.run_of (contact_seek_spec right text given)]
        unfold Model.seekContact
        rw [people]
    | contactCount =>
        refine run_map_answer Reply.count ?_
        rw [Machine.run_of (contact_count_spec left), Machine.run_of (contact_count_spec right),
          people]
    | messageGetChat phone start n given =>
        refine run_map_answer (fun got : StrgRet × List Message => Reply.messages got.1 got.2) ?_
        rw [Machine.run_of (get_chat_spec left phone start n given),
          Machine.run_of (get_chat_spec right phone start n given)]
        unfold Model.getChat Model.find
        rw [people]
    | chatCount =>
        refine run_map_answer Reply.count ?_
        rw [Machine.run_of (@chat_count_spec _ first.card view chain listing),
          Machine.run_of (@chat_count_spec _ second.card view chain otherListing),
          order.length_eq]
    | chatList => cases shows
    | _ => cases shown
  · intro n enough
    rw [Machine.run_of (@chat_count_spec _ first.card view chain listing)] at enough
    have summary : (modelOf first.db view chain listing).summary =
        (modelOf second.db view chain otherListing).summary := by
      funext phone
      unfold Model.summary Model.find
      rw [people]
    rw [Machine.run_of (chat_list_spec left 0 n true),
      Machine.run_of (chat_list_spec right 0 n true), list_all_chats _ enough,
      list_all_chats _ (by rw [← order.length_eq]; exact enough), summary]
    exact order.filterMap _

end Shows

/-- A history in its ring, with the position in memory. -/
structure HistoryHeld {E : Type} (layout : HistoryLayout E) (started : Nat) (machine : Machine) :
    Prop where
  ring : RingHolds layout.capacity started fun index => machine.card (ringRaw layout index)
  position : layout.ring machine.db = ringPosition started

section HistoryHeld

variable {E : Type} {layout : HistoryLayout E} {started : Nat} {machine before after : Machine}

theorem HistoryHeld.none_iff (held : HistoryHeld layout started machine) :
    (layout.ring machine.db).occupancy = 0 ↔ started = 0 := by
  rw [held.position]
  change min started 5000 = 0 ↔ started = 0
  omega

theorem HistoryHeld.no_history_iff (frame : layout.Frame)
    (held : HistoryHeld layout started machine) :
    NoHistory layout machine ↔ started = 0 := by
  constructor
  · intro nothing
    by_contra some_
    obtain ⟨read, shown, entries⟩ := newest_history_shown frame (Nat.pos_of_ne_zero some_)
      held.ring held.position
    have reply := nothing 0 1
    rw [Machine.run_of shown] at reply
    exact entries (congrArg Prod.snd reply)
  · intro none_ start n
    have position := held.position
    rw [none_] at position
    rw [Machine.run_of (blank_history_shown frame position (held.ring.valid 0 (by decide))
      (held.ring.blank 0 (by decide) (Nat.le_of_eq none_)) start n)]

theorem same_history_iff (nothing : NoHistory layout before) :
    SameHistory layout after before ↔ NoHistory layout after :=
  forall_congr' fun start => forall_congr' fun n => by rw [nothing start n]

end HistoryHeld

section Mounts

variable {machine : Machine} {view : View} {chain : Nat → List Nat} {listing : Listing}

theorem Mounted.held_messages (mounted : Mounted machine.db machine.card view chain listing) :
    HistoryHeld messageHistoryLayout view.messageRing machine :=
  ⟨mounted.core.holds.rings.messages, mounted.core.messageRing⟩

theorem Mounted.held_calls (mounted : Mounted machine.db machine.card view chain listing) :
    HistoryHeld callHistoryLayout view.callRing machine :=
  ⟨mounted.core.holds.rings.calls, mounted.core.callRing⟩

theorem empty_shows_same {first second : Machine} {left right : Listing}
    (leftMounted : Mounted first.db first.card blankView (fun _ => []) left)
    (rightMounted : Mounted second.db second.card blankView (fun _ => []) right) :
    ShowsSame first second := by
  have none_ : ∀ {any : Machine} {names : Listing},
      Mounted any.db any.card blankView (fun _ => []) names →
      NoHistory messageHistoryLayout any ∧ NoHistory callHistoryLayout any :=
    fun mounted => ⟨(mounted.held_messages.no_history_iff messageHistoryFrame).mpr rfl,
      (mounted.held_calls.no_history_iff callHistoryFrame).mpr rfl⟩
  exact mounted_shows_same leftMounted rightMounted
    ((same_history_iff (none_ rightMounted).1).mpr (none_ leftMounted).1)
    ((same_history_iff (none_ rightMounted).2).mpr (none_ leftMounted).2)

end Mounts

end SdDatabase
