import SdDatabase.ChatBounds

/-!
# Removals over any chain

`remove_message_chat` and `remove_orphaned_message_chat` on message sectors of any content and
on a card that may fail at any read or write. With a log of the updates of the usage bits and of
the sectors freed they are the same programs. Every round clears a usage bit that was set, so the
rounds come to an end, and no bit is cleared and no sector freed twice.
-/

namespace SdDatabase

open Bytes Device

set_option autoImplicit false

/-- The part of the memory that says which message sectors are in use. -/
def messageUse (db : Database) : (Nat → Bool) × FreeList :=
  (usageBit db.usageBitmap, db.messageAllocator)

section MessageUse

theorem use_stamp (db : Database) (sector : Nat) :
    messageUse { db with usageBitmap := stampBitmap db.usageBitmap sector } = messageUse db := by
  apply Prod.ext
  · funext dataSector
    exact usage_bit_stamp db.usageBitmap sector dataSector
  · rfl

theorem keeps_writeSector (index : Nat) (content : Sector) :
    Keeps messageUse (writeSector index content) := by
  unfold writeSector
  apply (keeps_writeBlock _ _).bind
  intro accepted
  exact keeps_pure _

theorem keeps_journalFree : Keeps messageUse journalFree := by
  unfold journalFree
  apply Keeps.bind
  · apply keeps_modify
    intro db
    rfl
  · intro done
    apply keeps_get
    intro db
    exact keeps_writeSector _ _

theorem keeps_journalWriteUsage (sector : Nat) : Keeps messageUse (journalWriteUsage sector) := by
  unfold journalWriteUsage
  apply Keeps.bind
  · apply keeps_modify
    intro db
    exact use_stamp db sector
  · intro done
    apply keeps_get
    intro db
    exact keeps_writeSector _ _

theorem keeps_journalWrite (header : JournalHeader) (type : JrnlType) (content : Sector)
    (usageSector : Option Nat) :
    Keeps messageUse (journalWrite header type content usageSector) := by
  have header_ : ∀ saved : StrgRet, Keeps messageUse (if saved ≠ .strgOk then pure saved
      else journalWriteSector jrnlHeaderSector (toSector header)) := by
    intro saved
    exact Keeps.ite (keeps_pure _) (keeps_writeSector _ _)
  have content_ : ∀ usage : StrgRet, Keeps messageUse (if usage ≠ .strgOk then pure usage
      else do
        let saved ← if type = .remove then pure .strgOk
          else journalWriteSector jrnlContentSector content
        if saved ≠ .strgOk then
          return saved
        journalWriteSector jrnlHeaderSector (toSector header)) := by
    intro usage
    apply Keeps.ite (keeps_pure _)
    dsimp only
    exact Keeps.ite ((keeps_pure _).bind header_) ((keeps_writeSector _ _).bind header_)
  unfold journalWrite
  cases usageSector with
  | none => exact (keeps_pure _).bind content_
  | some sector => exact (keeps_journalWriteUsage sector).bind content_

theorem keeps_journalAdd (type : JrnlType) (index : Nat) (content : Sector) :
    Keeps messageUse (journalAdd type index content) := by
  unfold journalAdd
  apply Keeps.bind
  · apply keeps_modify
    intro db
    rfl
  · intro done
    apply (keeps_journalWrite _ _ _ _).bind
    intro ret
    exact keeps_pure _

theorem update_use (running : Running) (index : Nat) (used : Bool) :
    ((running.perform (updateUsageBit index used)).1 = .strgOk ∧
      messageUse (running.perform (updateUsageBit index used)).2.db =
        (Function.update (usageBit running.db.usageBitmap) (u16 index) used,
          running.db.messageAllocator)) ∨
      ((running.perform (updateUsageBit index used)).1 ≠ .strgOk ∧
        messageUse (running.perform (updateUsageBit index used)).2.db =
          messageUse running.db) := by
  unfold Running.perform
  rw [exec_updateUsageBit]
  cases accepted : running.faults.writes 0 with
  | true =>
      left
      have bits : usageBit (setUsageBit running.db.usageBitmap (u16 index) used) =
          Function.update (usageBit running.db.usageBitmap) (u16 index) used := by
        funext dataSector
        rw [usage_bit_set, Function.update_apply]
      exact ⟨rfl, Prod.ext bits rfl⟩
  | false =>
      right
      cases differs : (usageBit running.db.usageBitmap (u16 index) != used) with
      | true =>
          have before : usageBit running.db.usageBitmap (u16 index) = !used := by
            rw [bne_iff_ne] at differs
            exact Bool.eq_not_of_ne differs
          have bits : usageBit (setUsageBit (setUsageBit running.db.usageBitmap (u16 index) used)
              (u16 index) (!used)) = usageBit running.db.usageBitmap := by
            funext dataSector
            rw [usage_bit_set, usage_bit_set]
            split
            · rename_i same
              rw [same, before]
            · rfl
          exact ⟨StrgRet.noConfusion, Prod.ext bits rfl⟩
      | false =>
          have before : usageBit running.db.usageBitmap (u16 index) = used := by
            simpa using differs
          have bits : usageBit (setUsageBit running.db.usageBitmap (u16 index) used) =
              usageBit running.db.usageBitmap := by
            funext dataSector
            rw [usage_bit_set]
            split
            · rename_i same
              rw [same, before]
            · rfl
          exact ⟨StrgRet.noConfusion, Prod.ext bits rfl⟩

end MessageUse

/-- What a removal asks for: the usage bits to be cleared, with the answers of the updates, and
the sectors to be freed, in order. -/
structure RemovalLog where
  updates : List (Nat × StrgRet)
  freed : List Nat

namespace RemovalLog

def empty : RemovalLog := ⟨[], []⟩

def append (first second : RemovalLog) : RemovalLog :=
  ⟨first.updates ++ second.updates, first.freed ++ second.freed⟩

/-- The bits whose update was made. -/
def cleared (log : RemovalLog) : List Nat :=
  (log.updates.filter fun update => update.2 = .strgOk).map Prod.fst

end RemovalLog

/-- `removeMessageSector` with its log. -/
def loggedMessageSector (index : Nat) : DbM (Except StrgRet MessageSector × RemovalLog) := do
  if !(← checkUsageBit (messageDataSector index)) then
    return (.error .strgEmpty, .empty)
  match ← readMessageSector index with
  | .error ret => return (.error ret, .empty)
  | .ok content =>
      if !(← journalAdd .message (messageDataSector index) content) then
        return (.error .strgFail, .empty)
      let cleared ← updateUsageBit (messageDataSector index) false
      let updates := [(u16 (messageDataSector index), cleared)]
      if cleared ≠ .strgOk then
        return (.error cleared, ⟨updates, []⟩)
      let freed ← journalFree
      if freed ≠ .strgOk then
        return (.error freed, ⟨updates, []⟩)
      modify fun db => { db with messageAllocator := freeListFree db.messageAllocator index }
      return (.ok (ofSector content), ⟨updates, [index]⟩)

/-- `removeMessageChatLoop` with its log. -/
def loggedMessageChat : Nat → Nat → DbM (Bool × RemovalLog)
  | 0, _ => return (false, .empty)
  | fuel + 1, curIndex => do
      if curIndex = uint16Max then
        return (true, .empty)
      match ← loggedMessageSector curIndex with
      | (.error _, log) => return (false, log)
      | (.ok mSector, log) =>
          let (done, more) ← loggedMessageChat fuel mSector.header.prev.toNat
          return (done, log.append more)

/-- `removeMessageBit` with its log. -/
def loggedMessageBit (index : Nat) : DbM (StrgRet × RemovalLog) := do
  if !(← journalAdd .remove (messageDataSector index) nullContent) then
    return (.strgFail, .empty)
  let cleared ← updateUsageBit (messageDataSector index) false
  let log : RemovalLog := ⟨[(u16 (messageDataSector index), cleared)], []⟩
  if cleared ≠ .strgOk then
    return (cleared, log)
  return (← journalFree, log)

/-- `removeOrphanedFrom` with its log. -/
def loggedOrphanedFrom (startIndex : Nat) : Nat → Nat → DbM (StrgRet × RemovalLog)
  | 0, _ => return (.strgFail, .empty)
  | jumpsLeft + 1, curr => do
      if curr = uint16Max then
        return (.strgOk, .empty)
      if !(← checkUsageBit (messageDataSector curr)) then
        return (.strgEmpty, .empty)
      match ← readMessageSector curr with
      | .error ret => return (ret, .empty)
      | .ok content =>
          let (ret, log) ← loggedMessageBit curr
          if ret ≠ .strgOk then
            return (ret, log)
          let log := if curr ≤ startIndex then log.append ⟨[], [curr]⟩ else log
          if curr ≤ startIndex then
            modify fun db => { db with messageAllocator := freeListFree db.messageAllocator curr }
          let mSector : MessageSector := ofSector content
          if jumpsLeft = 0 then
            return (.strgFail, log)
          let (last, more) ← loggedOrphanedFrom startIndex jumpsLeft mSector.header.prev.toNat
          return (last, log.append more)

section Logged

variable {A B L M : Type}

def Logs (logged : DbM (A × L)) (program : DbM A) : Prop :=
  ∀ running : Running, running.perform program =
    ((running.perform logged).1.1, (running.perform logged).2)

theorem logs_pure (value : A) (log : L) :
    Logs (pure (value, log) : DbM (A × L)) (pure value) := fun _ => rfl

theorem logs_before (step : DbM B) {logged : B → DbM (A × L)} {program : B → DbM A}
    (rest : ∀ value, Logs (logged value) (program value)) :
    Logs (step >>= logged) (step >>= program) := by
  intro running
  rw [Running.perform_bind, Running.perform_bind]
  exact rest _ _

theorem Logs.bind {first : DbM (B × M)} {step : DbM B} (steps : Logs first step)
    {logged : B × M → DbM (A × L)} {program : B → DbM A}
    (rest : ∀ value log, Logs (logged (value, log)) (program value)) :
    Logs (first >>= logged) (step >>= program) := by
  intro running
  rw [Running.perform_bind, Running.perform_bind, steps running]
  exact rest _ _ _

theorem Logs.extend {logged : DbM (A × M)} {program : DbM A} (logs : Logs logged program)
    (more : M → L) :
    Logs (do
      let (value, log) ← logged
      return (value, more log)) program := by
  intro running
  rw [Running.perform_bind, logs running]
  rfl

theorem Logs.ite {condition : Prop} [Decidable condition] {first second : DbM (A × L)}
    {yes no : DbM A} (left : Logs first yes) (right : Logs second no) :
    Logs (if condition then first else second) (if condition then yes else no) := by
  split
  · exact left
  · exact right

end Logged

theorem logs_message_sector (index : Nat) :
    Logs (loggedMessageSector index) (removeMessageSector index) := by
  unfold loggedMessageSector removeMessageSector
  apply logs_before
  intro used
  apply Logs.ite (logs_pure _ _)
  apply logs_before
  intro answer
  cases answer with
  | error ret => exact logs_pure _ _
  | ok content =>
      apply logs_before
      intro added
      apply Logs.ite (logs_pure _ _)
      apply logs_before
      intro cleared
      apply Logs.ite (logs_pure _ _)
      apply logs_before
      intro freed
      apply Logs.ite (logs_pure _ _)
      apply logs_before
      intro done
      exact logs_pure _ _

theorem logs_message_chat (fuel curIndex : Nat) :
    Logs (loggedMessageChat fuel curIndex) (removeMessageChatLoop fuel curIndex) := by
  induction fuel generalizing curIndex with
  | zero => exact logs_pure _ _
  | succ fuel ih =>
      unfold loggedMessageChat removeMessageChatLoop
      apply Logs.ite (logs_pure _ _)
      apply (logs_message_sector curIndex).bind
      intro removed log
      cases removed with
      | error ret => exact logs_pure _ _
      | ok mSector => exact (ih mSector.header.prev.toNat).extend log.append

theorem logs_message_bit (index : Nat) :
    Logs (loggedMessageBit index) (removeMessageBit index) := by
  unfold loggedMessageBit removeMessageBit
  apply logs_before
  intro added
  apply Logs.ite (logs_pure _ _)
  apply logs_before
  intro cleared
  apply Logs.ite (logs_pure _ _)
  intro running
  rw [Running.perform_bind]
  rfl

theorem logs_orphaned_from (startIndex jumpsLeft curr : Nat) :
    Logs (loggedOrphanedFrom startIndex jumpsLeft curr)
      (removeOrphanedFrom startIndex jumpsLeft curr) := by
  induction jumpsLeft generalizing curr with
  | zero => exact logs_pure _ _
  | succ jumpsLeft ih =>
      unfold loggedOrphanedFrom removeOrphanedFrom
      apply Logs.ite (logs_pure _ _)
      apply logs_before
      intro used
      apply Logs.ite (logs_pure _ _)
      apply logs_before
      intro answer
      cases answer with
      | error ret => exact logs_pure _ _
      | ok content =>
          apply (logs_message_bit curr).bind
          intro ret log
          apply Logs.ite (logs_pure _ _)
          have goesOn : ∀ log : RemovalLog, Logs (if jumpsLeft = 0 then pure (.strgFail, log)
              else do
                let (last, more) ← loggedOrphanedFrom startIndex jumpsLeft
                  (ofSector content : MessageSector).header.prev.toNat
                return (last, log.append more))
              (if jumpsLeft = 0 then pure .strgFail
                else removeOrphanedFrom startIndex jumpsLeft
                  (ofSector content : MessageSector).header.prev.toNat) := fun log =>
            Logs.ite (logs_pure _ _) ((ih _).extend log.append)
          split
          · apply logs_before
            intro done
            exact goesOn _
          · exact goesOn _

/-- What the updates of a log have done: each bit was set and is asked for once, those whose
update was made are clear, and the sectors of these are freed. -/
structure Removal (before after : Database) (log : RemovalLog) : Prop where
  once : (log.updates.map Prod.fst).Nodup
  bound : ∀ update ∈ log.updates, update.1 < 65536
  given : ∀ update ∈ log.updates, usageBit before.usageBitmap update.1 = true
  bits : ∀ dataSector, usageBit after.usageBitmap dataSector =
    (usageBit before.usageBitmap dataSector && decide (dataSector ∉ log.cleared))
  among : (log.freed.map fun index => u16 (messageDataSector index)).Sublist log.cleared
  allocator : after.messageAllocator = log.freed.foldl freeListFree before.messageAllocator

section Removal

variable {before middle after : Database} {log first second : RemovalLog}

theorem cleared_sublist (log : RemovalLog) :
    log.cleared.Sublist (log.updates.map Prod.fst) :=
  List.filter_sublist.map Prod.fst

theorem cleared_append (first second : RemovalLog) :
    (first.append second).cleared = first.cleared ++ second.cleared := by
  unfold RemovalLog.cleared RemovalLog.append
  rw [List.filter_append, List.map_append]

theorem Removal.freed_once (removal : Removal before after log) : log.freed.Nodup :=
  (removal.among.nodup ((cleared_sublist log).nodup removal.once)).of_map _

theorem removal_nothing (same : messageUse after = messageUse before) :
    Removal before after .empty where
  once := List.nodup_nil
  bound update member := by cases member
  given update member := by cases member
  bits dataSector := by
    have bit : usageBit after.usageBitmap dataSector = usageBit before.usageBitmap dataSector :=
      congrFun (congrArg Prod.fst same) dataSector
    have none_ : dataSector ∉ RemovalLog.empty.cleared := List.not_mem_nil
    rw [bit, decide_eq_true none_, Bool.and_true]
  among := List.Sublist.refl _
  allocator := congrArg Prod.snd same

theorem removal_one {index : Nat} {ret : StrgRet}
    (set : usageBit before.usageBitmap (u16 (messageDataSector index)) = true)
    (updated : (ret = .strgOk ∧ messageUse after = (Function.update
        (usageBit before.usageBitmap) (u16 (messageDataSector index)) false,
          before.messageAllocator)) ∨
      (ret ≠ .strgOk ∧ messageUse after = messageUse before)) :
    Removal before after ⟨[(u16 (messageDataSector index), ret)], []⟩ where
  once := List.nodup_singleton _
  bound update member := by
    rw [List.mem_singleton.mp member]
    exact Nat.mod_lt _ (by decide)
  given update member := by rw [List.mem_singleton.mp member, set]
  bits other := by
    rcases updated with ⟨made, use⟩ | ⟨failed, use⟩
    · have cleared : RemovalLog.cleared ⟨[(u16 (messageDataSector index), ret)], []⟩ =
          [u16 (messageDataSector index)] := by
        rw [made]
        rfl
      have bits : usageBit after.usageBitmap = _ := congrArg Prod.fst use
      rw [cleared, bits]
      dsimp only
      rw [Function.update_apply]
      by_cases here : other = u16 (messageDataSector index)
      · simp [here]
      · have apart : other ∉ [u16 (messageDataSector index)] :=
          fun member => here (List.mem_singleton.mp member)
        rw [if_neg here, decide_eq_true apart, Bool.and_true]
    · have cleared : RemovalLog.cleared ⟨[(u16 (messageDataSector index), ret)], []⟩ = [] := by
        unfold RemovalLog.cleared
        rw [List.filter_cons_of_neg (by simpa using failed)]
        rfl
      have bits : usageBit after.usageBitmap = _ := congrArg Prod.fst use
      rw [cleared, bits, decide_eq_true List.not_mem_nil, Bool.and_true]
      rfl
  among := List.nil_sublist _
  allocator := by
    rcases updated with ⟨_, use⟩ | ⟨_, use⟩
    · exact congrArg Prod.snd use
    · exact congrArg Prod.snd use

theorem Removal.free {index : Nat}
    (removal : Removal before after ⟨[(u16 (messageDataSector index), .strgOk)], []⟩) :
    Removal before { after with messageAllocator := freeListFree after.messageAllocator index }
      ⟨[(u16 (messageDataSector index), .strgOk)], [index]⟩ where
  once := removal.once
  bound := removal.bound
  given := removal.given
  bits := removal.bits
  among := List.Sublist.refl _
  allocator := congrArg (freeListFree · index) removal.allocator

theorem Removal.trans (made : ∀ update ∈ first.updates, update.2 = .strgOk)
    (early : Removal before middle first) (late : Removal middle after second) :
    Removal before after (first.append second) where
  once := by
    unfold RemovalLog.append
    rw [List.map_append]
    apply early.once.append late.once
    intro dataSector inFirst inSecond
    obtain ⟨update, member, rfl⟩ := List.mem_map.mp inFirst
    obtain ⟨other, otherIn, same⟩ := List.mem_map.mp inSecond
    have set := late.given other otherIn
    rw [same, early.bits, Bool.and_eq_true, decide_eq_true_eq] at set
    exact set.2 (List.mem_map_of_mem (List.mem_filter.mpr
      ⟨member, decide_eq_true (made update member)⟩))
  bound update member := by
    rcases List.mem_append.mp member with inFirst | inSecond
    · exact early.bound update inFirst
    · exact late.bound update inSecond
  given update member := by
    rcases List.mem_append.mp member with inFirst | inSecond
    · exact early.given update inFirst
    · have set := late.given update inSecond
      rw [early.bits, Bool.and_eq_true] at set
      exact set.1
  bits dataSector := by
    rw [late.bits, early.bits, Bool.and_assoc, cleared_append]
    simp [List.mem_append, not_or, Bool.decide_and]
  among := by
    unfold RemovalLog.append
    rw [List.map_append, ← RemovalLog.append, cleared_append]
    exact early.among.append late.among
  allocator := by
    rw [late.allocator, early.allocator]
    exact List.foldl_append.symm

end Removal

theorem removal_updated (running : Running) {joined : Database} {last : Database} (index : Nat)
    {ret : StrgRet} {next : Running}
    (set : usageBit running.db.usageBitmap (u16 (messageDataSector index)) = true)
    (added : messageUse joined = messageUse running.db)
    (updated : (ret = .strgOk ∧ messageUse next.db = (Function.update
        (usageBit joined.usageBitmap) (u16 (messageDataSector index)) false,
          joined.messageAllocator)) ∨ (ret ≠ .strgOk ∧ messageUse next.db = messageUse joined))
    (kept : messageUse last = messageUse next.db) :
    Removal running.db last ⟨[(u16 (messageDataSector index), ret)], []⟩ := by
  apply removal_one set
  have bits : usageBit joined.usageBitmap = usageBit running.db.usageBitmap :=
    congrArg Prod.fst added
  have same : joined.messageAllocator = running.db.messageAllocator := congrArg Prod.snd added
  rw [kept]
  rcases updated with ⟨ok, use⟩ | ⟨failed, use⟩
  · rw [bits, same] at use
    exact Or.inl ⟨ok, use⟩
  · exact Or.inr ⟨failed, use.trans added⟩

theorem logged_sector_cases (running : Running) (index : Nat) :
    (∃ ret log, (running.perform (loggedMessageSector index)).1 = (.error ret, log) ∧
      Removal running.db (running.perform (loggedMessageSector index)).2.db log) ∨
      ∃ mSector, (running.perform (loggedMessageSector index)).1 =
          (.ok mSector, ⟨[(u16 (messageDataSector index), .strgOk)], [index]⟩) ∧
        Removal running.db (running.perform (loggedMessageSector index)).2.db
          ⟨[(u16 (messageDataSector index), .strgOk)], [index]⟩ := by
  have step : loggedMessageSector index =
      visitSector index (.error .strgEmpty, .empty) (fun ret => (.error ret, .empty))
        fun content => do
          if !(← journalAdd .message (messageDataSector index) content) then
            return (.error .strgFail, .empty)
          let cleared ← updateUsageBit (messageDataSector index) false
          let updates := [(u16 (messageDataSector index), cleared)]
          if cleared ≠ .strgOk then
            return (.error cleared, ⟨updates, []⟩)
          let freed ← journalFree
          if freed ≠ .strgOk then
            return (.error freed, ⟨updates, []⟩)
          modify fun db => { db with messageAllocator := freeListFree db.messageAllocator index }
          return (.ok (ofSector content), ⟨updates, [index]⟩) := rfl
  rw [step]
  rcases visit_cases running index (Except.error StrgRet.strgEmpty, RemovalLog.empty)
    (fun ret => (Except.error ret, RemovalLog.empty)) _ with
    ⟨result, _⟩ | ⟨ret, _, result, _⟩ | ⟨content, _, set, _, _, result, _⟩
  · rw [result]
    exact Or.inl ⟨_, _, rfl, removal_nothing rfl⟩
  · rw [result]
    exact Or.inl ⟨ret, _, rfl, removal_nothing rfl⟩
  · rw [result, Running.perform_bind]
    have added := keeps_journalAdd .message (messageDataSector index) content running.db
      (running.afterReads 1).faults running.card
    change messageUse ((running.afterReads 1).perform
      (journalAdd .message (messageDataSector index) content)).2.db = _ at added
    generalize (running.afterReads 1).perform
      (journalAdd .message (messageDataSector index) content) = joined at added ⊢
    rcases joined with ⟨accepted, joined⟩
    cases accepted with
    | false => exact Or.inl ⟨_, _, rfl, removal_nothing added⟩
    | true =>
        have updated := update_use joined (messageDataSector index) false
        rw [Bool.not_true, if_neg Bool.false_ne_true, Running.perform_bind]
        generalize joined.perform (updateUsageBit (messageDataSector index) false) = outcome
          at updated ⊢
        rcases outcome with ⟨cleared, next⟩
        by_cases ok : cleared = .strgOk
        · have committed := keeps_journalFree next.db next.faults next.card
          change messageUse (next.perform journalFree).2.db = _ at committed
          dsimp only
          rw [if_neg (not_not.mpr ok), Running.perform_bind]
          generalize next.perform journalFree = outcome at committed ⊢
          rcases outcome with ⟨freed, last⟩
          have removal := removal_updated running index set added updated committed
          by_cases done : freed = .strgOk
          · rw [if_neg (not_not.mpr done)]
            rw [ok] at removal ⊢
            exact Or.inr ⟨ofSector content, rfl, removal.free⟩
          · rw [if_pos done]
            exact Or.inl ⟨_, _, rfl, removal⟩
        · rw [if_pos ok]
          exact Or.inl ⟨_, _, rfl, removal_updated running index set added updated rfl⟩

/-- The loop of `remove_message_chat`, with no bound on its rounds. -/
inductive RemovesChat : Running → Nat → Bool × Running → Prop
  | ends (running : Running) : RemovesChat running uint16Max (true, running)
  | refused {running next : Running} {curIndex : Nat} {ret : StrgRet}
      (more : curIndex ≠ uint16Max)
      (stopped : running.perform (removeMessageSector curIndex) = (.error ret, next)) :
      RemovesChat running curIndex (false, next)
  | round {running next : Running} {curIndex : Nat} {mSector : MessageSector}
      {outcome : Bool × Running} (more : curIndex ≠ uint16Max)
      (removed : running.perform (removeMessageSector curIndex) = (.ok mSector, next))
      (rest : RemovesChat next mSector.header.prev.toNat outcome) :
      RemovesChat running curIndex outcome

/-- The rounds end, unless every round there was time for has cleared a bit. -/
theorem remove_chat_rounds (fuel curIndex : Nat) (running : Running) :
    Removal running.db (running.perform (loggedMessageChat fuel curIndex)).2.db
        (running.perform (loggedMessageChat fuel curIndex)).1.2 ∧
      (RemovesChat running curIndex (running.perform (removeMessageChatLoop fuel curIndex)) ∨
        (running.perform (loggedMessageChat fuel curIndex)).1.2.updates.length = fuel) := by
  rw [logs_message_chat fuel curIndex running]
  induction fuel generalizing curIndex running with
  | zero => exact ⟨removal_nothing rfl, Or.inr rfl⟩
  | succ fuel ih =>
      by_cases ends : curIndex = uint16Max
      · rw [loggedMessageChat, if_pos ends, ends]
        exact ⟨removal_nothing rfl, Or.inl (.ends running)⟩
      · have round := logged_sector_cases running curIndex
        have plain := logs_message_sector curIndex running
        rw [loggedMessageChat, if_neg ends, Running.perform_bind]
        cases result : running.perform (loggedMessageSector curIndex) with
        | mk outcome next =>
            rw [result] at round plain
            rcases round with ⟨ret, log, stopped, removal⟩ | ⟨mSector, removed, removal⟩
            · dsimp only at stopped
              subst stopped
              exact ⟨removal, Or.inl (.refused ends plain)⟩
            · dsimp only at removed
              subst removed
              obtain ⟨more, rounds⟩ := ih mSector.header.prev.toNat next
              dsimp only
              rw [Running.perform_bind]
              generalize next.perform (loggedMessageChat fuel mSector.header.prev.toNat) = rest
                at more rounds ⊢
              rcases rest with ⟨⟨done, log⟩, last⟩
              have made : ∀ update ∈ [(u16 (messageDataSector curIndex), StrgRet.strgOk)],
                  update.2 = .strgOk := by
                intro update member
                rw [List.mem_singleton.mp member]
              refine ⟨removal.trans made more, ?_⟩
              rcases rounds with ended | full
              · exact Or.inl (.round ends plain ended)
              · right
                exact congrArg Nat.succ full

/-- The log of `remove_message_chat`. -/
def chatRemovalLog (running : Running) (start : Nat) : RemovalLog :=
  (running.perform (loggedMessageChat 65537 start)).1.2

/-- `remove_message_chat` ends within as many rounds as there are usage bits. -/
theorem remove_chat_ends (start : Nat) (running : Running) :
    RemovesChat running start (running.perform (removeMessageChat start)) ∧
      Removal running.db (running.perform (removeMessageChat start)).2.db
        (chatRemovalLog running start) := by
  obtain ⟨removal, rounds⟩ := remove_chat_rounds 65537 start running
  constructor
  · refine rounds.resolve_right fun full => ?_
    have below : (chatRemovalLog running start).updates.map Prod.fst ⊆ List.range 65536 := by
      intro dataSector member
      obtain ⟨update, inside, rfl⟩ := List.mem_map.mp member
      exact List.mem_range.mpr (removal.bound update inside)
    have few := (List.subperm_of_subset removal.once below).length_le
    rw [List.length_map, full, List.length_range] at few
    omega
  · rw [removeMessageChat, logs_message_chat 65537 start running]
    exact removal

/-- `remove_message_bit` on a sector in use. -/
theorem logged_bit_cases (running : Running) (index : Nat)
    (set : usageBit running.db.usageBitmap (u16 (messageDataSector index)) = true) :
    Removal running.db (running.perform (loggedMessageBit index)).2.db
        (running.perform (loggedMessageBit index)).1.2 ∧
      ((running.perform (loggedMessageBit index)).1.1 = .strgOk →
        (running.perform (loggedMessageBit index)).1.2 =
          ⟨[(u16 (messageDataSector index), .strgOk)], []⟩) := by
  unfold loggedMessageBit
  rw [Running.perform_bind]
  have added := keeps_journalAdd .remove (messageDataSector index) nullContent running.db
    running.faults running.card
  change messageUse (running.perform
    (journalAdd .remove (messageDataSector index) nullContent)).2.db = _ at added
  generalize running.perform (journalAdd .remove (messageDataSector index) nullContent)
    = joined at added ⊢
  rcases joined with ⟨accepted, joined⟩
  cases accepted with
  | false => exact ⟨removal_nothing added, StrgRet.noConfusion⟩
  | true =>
      have updated := update_use joined (messageDataSector index) false
      rw [Bool.not_true, if_neg Bool.false_ne_true, Running.perform_bind]
      generalize joined.perform (updateUsageBit (messageDataSector index) false) = outcome
        at updated ⊢
      rcases outcome with ⟨cleared, next⟩
      dsimp only
      by_cases ok : cleared = .strgOk
      · have committed := keeps_journalFree next.db next.faults next.card
        change messageUse (next.perform journalFree).2.db = _ at committed
        rw [if_neg (not_not.mpr ok), Running.perform_bind]
        refine ⟨removal_updated running index set added updated committed, fun _ => ?_⟩
        rw [ok]
        rfl
      · rw [if_pos ok]
        exact ⟨removal_updated running index set added updated rfl, fun done => absurd done ok⟩

theorem remove_orphaned_rounds (startIndex jumpsLeft curr : Nat) (running : Running) :
    Removal running.db (running.perform (loggedOrphanedFrom startIndex jumpsLeft curr)).2.db
      (running.perform (loggedOrphanedFrom startIndex jumpsLeft curr)).1.2 := by
  induction jumpsLeft generalizing curr running with
  | zero => exact removal_nothing rfl
  | succ jumpsLeft ih =>
      by_cases ends : curr = uint16Max
      · rw [loggedOrphanedFrom, if_pos ends]
        exact removal_nothing rfl
      · have step : loggedOrphanedFrom startIndex (jumpsLeft + 1) curr =
            (visitSector curr (.strgEmpty, .empty) (fun ret => (ret, .empty)) fun content => do
              let (ret, log) ← loggedMessageBit curr
              if ret ≠ .strgOk then
                return (ret, log)
              let log := if curr ≤ startIndex then log.append ⟨[], [curr]⟩ else log
              if curr ≤ startIndex then
                modify fun db =>
                  { db with messageAllocator := freeListFree db.messageAllocator curr }
              if jumpsLeft = 0 then
                return (.strgFail, log)
              let (last, more) ← loggedOrphanedFrom startIndex jumpsLeft
                (ofSector content : MessageSector).header.prev.toNat
              return (last, log.append more)) := by
          rw [loggedOrphanedFrom, if_neg ends]
          rfl
        rw [step]
        rcases visit_cases running curr (StrgRet.strgEmpty, RemovalLog.empty)
          (fun ret => (ret, RemovalLog.empty)) _ with
          ⟨result, _⟩ | ⟨ret, _, result, _⟩ | ⟨content, _, set, _, _, result, _⟩
        · rw [result]
          exact removal_nothing rfl
        · rw [result]
          exact removal_nothing rfl
        · rw [result, Running.perform_bind]
          obtain ⟨removal, done⟩ := logged_bit_cases (running.afterReads 1) curr set
          generalize (running.afterReads 1).perform (loggedMessageBit curr) = outcome
            at removal done ⊢
          rcases outcome with ⟨⟨ret, log⟩, next⟩
          dsimp only at removal done ⊢
          by_cases ok : ret = .strgOk
          · have made : ∀ freed, ∀ update ∈ (RemovalLog.mk
                [(u16 (messageDataSector curr), .strgOk)] freed).updates, update.2 = .strgOk := by
              intro freed update member
              rw [List.mem_singleton.mp member]
            rw [done ok] at removal ⊢
            rw [if_neg (not_not.mpr ok)]
            have goesOn : ∀ (middle : Running) (log : RemovalLog),
                (∀ update ∈ log.updates, update.2 = .strgOk) →
                Removal running.db middle.db log →
                Removal running.db (middle.perform (if jumpsLeft = 0 then pure (.strgFail, log)
                  else do
                    let (last, more) ← loggedOrphanedFrom startIndex jumpsLeft
                      (ofSector content : MessageSector).header.prev.toNat
                    return (last, log.append more))).2.db
                  (middle.perform (if jumpsLeft = 0 then pure (.strgFail, log)
                    else do
                      let (last, more) ← loggedOrphanedFrom startIndex jumpsLeft
                        (ofSector content : MessageSector).header.prev.toNat
                      return (last, log.append more))).1.2 := by
              intro middle log all early
              split
              · exact early
              · rw [Running.perform_bind]
                exact early.trans all (ih (ofSector content : MessageSector).header.prev.toNat
                  middle)
            by_cases behind : curr ≤ startIndex
            · rw [if_pos behind, if_pos behind]
              exact goesOn { next with db := { next.db with
                messageAllocator := freeListFree next.db.messageAllocator curr } } _ (made _)
                removal.free
            · rw [if_neg behind, if_neg behind]
              exact goesOn next _ (made _) removal
          · rw [if_pos ok]
            exact removal

/-- The log of `remove_orphaned_message_chat`. -/
def orphanRemovalLog (running : Running) (start : Nat) : RemovalLog :=
  (running.perform (loggedOrphanedFrom start (totalMessageSectorSize + 1) start)).1.2

/-- The walks from any head index over the card as it is. -/
structure ChatWalksEnd (running : Running) : Prop where
  reads : ∀ start startMsg n,
    (running.reads (readNMessages start startMsg n)).length ≤ totalMessageSectorSize
  length : ∀ start startMsg n,
    (running.perform (readNMessages start startMsg n)).1.2.length ≤ n
  copied : ∀ start startMsg n, ∀ message ∈ (running.perform (readNMessages start startMsg n)).1.2,
    CopiedSlot running (running.reads (readNMessages start startMsg n)) message
  removeChat : ∀ start, RemovesChat running start (running.perform (removeMessageChat start))
  chatLog : ∀ start, Logs (loggedMessageChat 65537 start) (removeMessageChat start)
  chatOnce : ∀ start, (chatRemovalLog running start).freed.Nodup ∧
    Removal running.db (running.perform (removeMessageChat start)).2.db
      (chatRemovalLog running start)
  orphanLog : ∀ start, Logs (loggedOrphanedFrom start (totalMessageSectorSize + 1) start)
    (removeOrphanedMessageChat start)
  orphanOnce : ∀ start, (orphanRemovalLog running start).freed.Nodup ∧
    Removal running.db (running.perform (removeOrphanedMessageChat start)).2.db
      (orphanRemovalLog running start)

/-- Whatever the sectors hold and whatever the card does, the walks end within their
bounds, and no removal clears a bit or frees a sector twice. -/
theorem chat_walks_end (running : Running) : ChatWalksEnd running where
  reads start startMsg n := (read_bounds start startMsg n running).1
  length start startMsg n := (read_bounds start startMsg n running).2.length
  copied start startMsg n message member :=
    ((read_bounds start startMsg n running).2.copied message member).resolve_left
      List.not_mem_nil
  removeChat start := (remove_chat_ends start running).1
  chatLog start := logs_message_chat 65537 start
  chatOnce start :=
    ⟨(remove_chat_ends start running).2.freed_once, (remove_chat_ends start running).2⟩
  orphanLog start := logs_orphaned_from start (totalMessageSectorSize + 1) start
  orphanOnce start := by
    have removal := remove_orphaned_rounds start (totalMessageSectorSize + 1) start running
    refine ⟨removal.freed_once, ?_⟩
    rw [removeOrphanedMessageChat, logs_orphaned_from start _ start running]
    exact removal

end SdDatabase
