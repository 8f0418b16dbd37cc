import SdDatabase.Chat

/-!
# Walks over any chain

The walks of `message.c` on message sectors of any content and on a card that may
fail at any read or write. Reading is bounded by its hop counter, and what it shows are
slots of the sectors that it has read.
-/

namespace SdDatabase

open Bytes Device

set_option autoImplicit false

/-- The database in the middle of its work on a card that may fail. -/
structure Running where
  db : Database
  faults : Faults Sector
  card : Card Sector

namespace Running

variable {A B : Type}

def perform (program : DbM A) (running : Running) : A × Running :=
  let outcome := exec program running.db running.faults running.card
  (outcome.1.1, ⟨outcome.1.2, outcome.2.1, outcome.2.2⟩)

def reads (program : DbM A) (running : Running) : List Nat :=
  readTrace program running.db running.faults running.card

def afterRead (running : Running) : Running := { running with faults := running.faults.afterRead }

def afterReads (running : Running) (count : Nat) : Running :=
  { running with faults := { running.faults with
      reads := fun attempt => running.faults.reads (attempt + count) } }

/-- The card answers one of these reads with the content. -/
def Serves (running : Running) (blocks : List Nat) (content : Sector) : Prop :=
  ∃ attempt index, blocks[attempt]? = some index ∧
    (running.faults.reads attempt).answer (running.card index) = some content

theorem perform_bind (program : DbM A) (rest : A → DbM B) (running : Running) :
    running.perform (program >>= rest) =
      (running.perform program).2.perform (rest (running.perform program).1) := by
  unfold perform
  rw [exec_bind]

theorem perform_bind_of {program : DbM A} {rest : A → DbM B} {running next : Running} {value : A}
    (known : running.perform program = (value, next)) :
    running.perform (program >>= rest) = next.perform (rest value) := by
  rw [perform_bind, known]

theorem reads_bind (program : DbM A) (rest : A → DbM B) (running : Running) :
    running.reads (program >>= rest) = running.reads program ++
      (running.perform program).2.reads (rest (running.perform program).1) :=
  read_trace_bind program rest running.db running.faults running.card

theorem Serves.append_left {running : Running} {before after : List Nat} {content : Sector}
    (serves : running.Serves before content) : running.Serves (before ++ after) content := by
  obtain ⟨attempt, index, here, answer⟩ := serves
  have inside := (List.getElem?_eq_some_iff.mp here).1
  exact ⟨attempt, index, by rw [List.getElem?_append_left inside, here], answer⟩

theorem Serves.append_right {running : Running} {before after : List Nat} {content : Sector}
    (serves : (running.afterReads before.length).Serves after content) :
    running.Serves (before ++ after) content := by
  obtain ⟨attempt, index, here, answer⟩ := serves
  refine ⟨attempt + before.length, index, ?_, answer⟩
  rw [List.getElem?_append_right (Nat.le_add_left _ _), Nat.add_sub_cancel, here]

end Running

/-- What `read_sector` answers. -/
def Running.readAnswer (running : Running) (index : Nat) : Except StrgRet Sector :=
  match (running.faults.reads 0).answer (running.card (u16 index)) with
  | none => .error .strgFail
  | some sector => if sectorCrcValid sector then .ok sector else .error .strgCorrupt

/-- The step that all walks share: the usage bit is checked and the sector read. -/
def visitSector {A : Type} (index : Nat) (unused : A) (failed : StrgRet → A)
    (rest : Sector → DbM A) : DbM A := do
  if !(← checkUsageBit (messageDataSector index)) then
    return unused
  match ← readMessageSector index with
  | .error ret => return failed ret
  | .ok content => rest content

section Visit

variable {A : Type} (running : Running)

theorem perform_readSector (index : Nat) :
    running.perform (readSector index) = (running.readAnswer index, running.afterRead) := by
  have raw : running.perform (readSectorRaw index) =
      ((match (running.faults.reads 0).answer (running.card (u16 index)) with
        | none => .error .strgFail
        | some sector => .ok sector), running.afterRead) := by
    refine (running.perform_bind _ _).trans ?_
    change running.afterRead.perform (match (running.faults.reads 0).answer
      (running.card (u16 index)) with | none => _ | some sector => _) = _
    cases (running.faults.reads 0).answer (running.card (u16 index)) <;> rfl
  unfold Running.readAnswer readSector
  rw [Running.perform_bind_of raw]
  cases (running.faults.reads 0).answer (running.card (u16 index)) with
  | none => rfl
  | some sector =>
      dsimp only
      split <;> rfl

theorem read_answer_serves {index : Nat} {content : Sector}
    (answer : running.readAnswer index = .ok content) :
    running.Serves [u16 index] content ∧ sectorCrcValid content = true := by
  unfold Running.readAnswer at answer
  cases served : (running.faults.reads 0).answer (running.card (u16 index)) with
  | none =>
      rw [served] at answer
      cases answer
  | some sector =>
      rw [served] at answer
      dsimp only at answer
      split at answer
      · rename_i valid
        cases answer
        exact ⟨⟨0, u16 index, rfl, served⟩, valid⟩
      · cases answer

/-- A walk at a sector: the bit is clear, the sector unreadable, or the walk goes on
with its content after one read. -/
theorem visit_cases (index : Nat) (unused : A) (failed : StrgRet → A) (rest : Sector → DbM A) :
    (running.perform (visitSector index unused failed rest) = (unused, running) ∧
      running.reads (visitSector index unused failed rest) = []) ∨
    (∃ ret block, running.perform (visitSector index unused failed rest) =
        (failed ret, running.afterReads 1) ∧
      running.reads (visitSector index unused failed rest) = [block]) ∨
    ∃ content block, usageBit running.db.usageBitmap (u16 (messageDataSector index)) = true ∧
      running.Serves [block] content ∧ sectorCrcValid content = true ∧
      running.perform (visitSector index unused failed rest) =
        (running.afterReads 1).perform (rest content) ∧
      running.reads (visitSector index unused failed rest) =
        [block] ++ (running.afterReads 1).reads (rest content) := by
  let walk : DbM A := do
    match ← readMessageSector index with
    | .error ret => return failed ret
    | .ok content => rest content
  have check : running.perform (visitSector index unused failed rest) =
        running.perform (if !usageBit running.db.usageBitmap (u16 (messageDataSector index)) then
          pure unused else walk) ∧
      running.reads (visitSector index unused failed rest) =
        running.reads (if !usageBit running.db.usageBitmap (u16 (messageDataSector index)) then
          pure unused else walk) :=
    ⟨running.perform_bind (checkUsageBit (messageDataSector index)) _,
      running.reads_bind (checkUsageBit (messageDataSector index)) _⟩
  rw [check.1, check.2]
  cases used : usageBit running.db.usageBitmap (u16 (messageDataSector index)) with
  | false => exact Or.inl ⟨rfl, rfl⟩
  | true =>
      right
      have performed : running.perform walk = running.afterRead.perform
          (match running.readAnswer (dataSectorToRaw (messageDataSector index)) with
            | .error ret => pure (failed ret)
            | .ok content => rest content) :=
        Running.perform_bind_of (perform_readSector running _)
      have read : running.reads walk = [u16 (dataSectorToRaw (messageDataSector index))] ++
          running.afterRead.reads
            (match running.readAnswer (dataSectorToRaw (messageDataSector index)) with
              | .error ret => pure (failed ret)
              | .ok content => rest content) := by
        refine (running.reads_bind (readMessageSector index) _).trans ?_
        rw [readMessageSector, Running.reads, trace_readSector, perform_readSector]
      rw [Bool.not_true, if_neg Bool.false_ne_true, performed, read]
      cases answer : running.readAnswer (dataSectorToRaw (messageDataSector index)) with
      | error ret => exact Or.inl ⟨ret, _, rfl, rfl⟩
      | ok content =>
          obtain ⟨serves, valid⟩ := read_answer_serves running answer
          exact Or.inr ⟨content, _, rfl, serves, valid, rfl, rfl⟩

end Visit

def hopsAfter : Except StrgRet MessagePosition → Nat
  | .ok found => found.hopsLeft
  | .error _ => 0

/-- The position that is found is in a sector that was read. -/
def FoundIn (running : Running) (blocks : List Nat) : Except StrgRet MessagePosition → Prop
  | .ok found => ∃ content, running.Serves blocks content ∧ sectorCrcValid content = true ∧
      found.mSector = ofSector content
  | .error _ => True

/-- What is known of a search: every sector read costs a hop, nothing but reads is done, and the
position is in one of the sectors. -/
structure FindsWithin (running : Running) (hops : Nat) (blocks : List Nat)
    (outcome : Except StrgRet MessagePosition × Running) : Prop where
  hops : blocks.length + hopsAfter outcome.1 ≤ hops
  only : outcome.2 = running.afterReads blocks.length
  found : FoundIn running blocks outcome.1

theorem FoundIn.append_right {running : Running} {before after : List Nat}
    {found : Except StrgRet MessagePosition}
    (inLater : FoundIn (running.afterReads before.length) after found) :
    FoundIn running (before ++ after) found := by
  cases found with
  | error ret => trivial
  | ok position =>
      obtain ⟨content, serves, valid, is⟩ := inLater
      exact ⟨content, serves.append_right, valid, is⟩

theorem after_reads_add (running : Running) (first second : Nat) :
    (running.afterReads first).afterReads second = running.afterReads (first + second) := by
  have reads : (fun attempt => running.faults.reads (attempt + second + first)) =
      fun attempt => running.faults.reads (attempt + (first + second)) := by
    funext attempt
    rw [Nat.add_assoc, Nat.add_comm second]
  unfold Running.afterReads
  rw [reads]

theorem find_within (startMsg hops prevIndex passed : Nat) (running : Running) :
    FindsWithin running hops (running.reads (findMessageNIndex startMsg hops prevIndex passed))
      (running.perform (findMessageNIndex startMsg hops prevIndex passed)) := by
  induction hops generalizing prevIndex passed running with
  | zero => exact ⟨Nat.le_refl _, rfl, trivial⟩
  | succ hops ih =>
      by_cases ends : prevIndex = uint16Max
      · rw [findMessageNIndex, if_pos ends]
        exact ⟨Nat.zero_le _, rfl, trivial⟩
      · have step : findMessageNIndex startMsg (hops + 1) prevIndex passed =
            visitSector prevIndex (.error .strgEmpty) .error fun content =>
              let mSector : MessageSector := ofSector content
              if passed + mSector.header.msgCount.toNat ≤ startMsg then
                findMessageNIndex startMsg hops mSector.header.prev.toNat
                  (passed + mSector.header.msgCount.toNat)
              else return .ok ⟨hops,
                (passed + mSector.header.msgCount.toNat - 1 - startMsg) % 256, mSector⟩ := by
          rw [findMessageNIndex, if_neg ends]
          rfl
        rw [step]
        rcases visit_cases running prevIndex _ _ _ with ⟨result, trace⟩ |
          ⟨ret, block, result, trace⟩ | ⟨content, block, _, serves, valid, result, trace⟩
        · rw [result, trace]
          exact ⟨Nat.zero_le _, rfl, trivial⟩
        · rw [result, trace]
          exact ⟨Nat.succ_le_succ (Nat.zero_le _), rfl, trivial⟩
        · rw [result, trace]
          dsimp only
          split
          · have rest := ih (ofSector content : MessageSector).header.prev.toNat
              (passed + (ofSector content : MessageSector).header.msgCount.toNat)
              (running.afterReads 1)
            refine ⟨?_, ?_, rest.found.append_right⟩
            · have left := rest.hops
              rw [List.length_append, List.length_singleton]
              omega
            · rw [rest.only, after_reads_add, List.length_append, List.length_singleton]
          · exact ⟨Nat.le_of_eq (Nat.add_comm 1 hops), rfl, content, serves.append_left, valid, rfl⟩

/-- The message is a copy of a slot that a sector has and counts, and the sector is what the
card answered to one of these reads. -/
def CopiedSlot (running : Running) (blocks : List Nat) (message : Message) : Prop :=
  ∃ content, running.Serves blocks content ∧ sectorCrcValid content = true ∧
    ∃ slot < messageSectorCapacity, slot < (ofSector content : MessageSector).header.msgCount.toNat ∧
      message = arrayGet (ofSector content : MessageSector).messages slot .zero

theorem CopiedSlot.append_left {running : Running} {before after : List Nat} {message : Message}
    (copied : CopiedSlot running before message) :
    CopiedSlot running (before ++ after) message := by
  obtain ⟨content, serves, slot⟩ := copied
  exact ⟨content, serves.append_left, slot⟩

theorem CopiedSlot.append_right {running : Running} {before after : List Nat} {message : Message}
    (copied : CopiedSlot (running.afterReads before.length) after message) :
    CopiedSlot running (before ++ after) message := by
  obtain ⟨content, serves, slot⟩ := copied
  exact ⟨content, serves.append_right, slot⟩

/-- What reads have put into an output array for `n` messages, behind what was there. -/
structure ReadWithin (running : Running) (blocks : List Nat) (n : Nat) (read longer : List Message) :
    Prop where
  length : longer.length ≤ n
  copied : ∀ message ∈ longer, message ∈ read ∨ CopiedSlot running blocks message

theorem copy_within {running : Running} {blocks : List Nat} {n count : Nat} {content : Sector}
    {read : List Message} (serves : running.Serves blocks content)
    (valid : sectorCrcValid content = true) (short : read.length ≤ n)
    (small : (ofSector content : MessageSector).header.msgCount.toNat ≤ messageSectorCapacity)
    (counted : count ≤ (ofSector content : MessageSector).header.msgCount.toNat) :
    ReadWithin running blocks n read (copyMessages n (ofSector content) count read) := by
  rw [copy_messages_eq]
  constructor
  · rw [List.length_append, List.length_take]
    omega
  · intro message member
    rcases List.mem_append.mp member with old | new
    · exact Or.inl old
    · have listed := List.mem_of_mem_take new
      rw [newestFirst, List.mem_map] at listed
      obtain ⟨slot, among, copy⟩ := listed
      rw [List.mem_reverse, List.mem_range] at among
      exact Or.inr ⟨content, serves, valid, slot, by omega, by omega, copy.symm⟩

theorem read_sector_cases {running : Running} {blocks : List Nat} {n : Nat} {content : Sector}
    {read : List Message} (serves : running.Serves blocks content)
    (valid : sectorCrcValid content = true) (short : read.length ≤ n) :
    readMessagesFromSector n (ofSector content) read = none ∨
      ∃ longer, readMessagesFromSector n (ofSector content) read = some longer ∧
        ReadWithin running blocks n read longer := by
  unfold readMessagesFromSector
  by_cases large : messageSectorCapacity < (ofSector content : MessageSector).header.msgCount.toNat
  · exact Or.inl (if_pos large)
  · exact Or.inr ⟨_, if_neg large,
      copy_within serves valid short (not_lt.mp large) (Nat.le_refl _)⟩

theorem read_position_cases {running : Running} {blocks : List Nat} {n : Nat} {content : Sector}
    (p : Nat) (serves : running.Serves blocks content) (valid : sectorCrcValid content = true) :
    readMessagesFromPInSector n p (ofSector content) [] = none ∨
      ∃ longer, readMessagesFromPInSector n p (ofSector content) [] = some longer ∧
        ReadWithin running blocks n [] longer := by
  unfold readMessagesFromPInSector
  by_cases bad : (ofSector content : MessageSector).header.msgCount.toNat ≤ p ∨
      messageSectorCapacity < (ofSector content : MessageSector).header.msgCount.toNat
  · exact Or.inl (if_pos bad)
  · rw [not_or, not_le, not_lt] at bad
    exact Or.inr ⟨_, if_neg (not_or.mpr ⟨not_le.mpr bad.1, not_lt.mpr bad.2⟩),
      copy_within serves valid (Nat.zero_le _) bad.2 bad.1⟩

theorem read_nothing {running : Running} {blocks : List Nat} {n : Nat} {read : List Message}
    (short : read.length ≤ n) : ReadWithin running blocks n read read :=
  ⟨short, fun _ member => Or.inl member⟩

theorem ReadWithin.trans {running : Running} {before after : List Nat} {n : Nat}
    {read middle longer : List Message} (first : ReadWithin running before n read middle)
    (second : ReadWithin (running.afterReads before.length) after n middle longer) :
    ReadWithin running (before ++ after) n read longer := by
  refine ⟨second.length, fun message member => ?_⟩
  rcases second.copied message member with early | late
  · rcases first.copied message early with old | new
    · exact Or.inl old
    · exact Or.inr new.append_left
  · exact Or.inr late.append_right

/-- The loop of `read_n_messages` from the sector it has read on. -/
def readOlder (n hops : Nat) (read : List Message) (content : Sector) :
    DbM (StrgRet × List Message) :=
  let mSector : MessageSector := ofSector content
  match readMessagesFromSector n mSector read with
  | none => return (.strgFail, read)
  | some longer => readMessageSectors n hops mSector.header.prev.toNat longer

theorem read_sectors_bounds (n hops prevIndex : Nat) (read : List Message) (running : Running)
    (short : read.length ≤ n) :
    (running.reads (readMessageSectors n hops prevIndex read)).length ≤ hops ∧
      ReadWithin running (running.reads (readMessageSectors n hops prevIndex read)) n read
        (running.perform (readMessageSectors n hops prevIndex read)).1.2 := by
  induction hops generalizing prevIndex read running with
  | zero =>
      unfold readMessageSectors
      split
      · exact ⟨Nat.le_refl _, read_nothing short⟩
      · split
        · exact ⟨Nat.le_refl _, read_nothing short⟩
        · exact ⟨Nat.le_refl _, read_nothing short⟩
  | succ hops ih =>
      by_cases enough : n ≤ read.length
      · rw [readMessageSectors, if_pos enough]
        exact ⟨Nat.zero_le _, read_nothing short⟩
      · by_cases ends : prevIndex = uint16Max
        · rw [readMessageSectors, if_neg enough, if_pos ends]
          exact ⟨Nat.zero_le _, read_nothing short⟩
        · have step : readMessageSectors n (hops + 1) prevIndex read =
              visitSector prevIndex (.strgEmpty, read) (fun ret => (ret, read))
                (readOlder n hops read) := by
            rw [readMessageSectors, if_neg enough, if_neg ends]
            rfl
          rw [step]
          rcases visit_cases running prevIndex _ _ _ with ⟨result, trace⟩ |
            ⟨ret, block, result, trace⟩ | ⟨content, block, _, serves, valid, result, trace⟩
          · rw [result, trace]
            exact ⟨Nat.zero_le _, read_nothing short⟩
          · rw [result, trace]
            exact ⟨Nat.succ_le_succ (Nat.zero_le _), read_nothing short⟩
          · rw [result, trace, readOlder]
            rcases read_sector_cases serves valid short with refused | ⟨longer, copied, more⟩
            · rw [refused]
              exact ⟨Nat.succ_le_succ (Nat.zero_le _), read_nothing short⟩
            · rw [copied]
              dsimp only
              obtain ⟨few, rest⟩ := ih (ofSector content : MessageSector).header.prev.toNat longer
                (running.afterReads 1) more.length
              refine ⟨?_, more.trans rest⟩
              rw [List.length_append, List.length_singleton]
              omega

/-- `read_n_messages` on any card. -/
theorem read_bounds (start startMsg n : Nat) (running : Running) :
    (running.reads (readNMessages start startMsg n)).length ≤ totalMessageSectorSize ∧
      ReadWithin running (running.reads (readNMessages start startMsg n)) n []
        (running.perform (readNMessages start startMsg n)).1.2 := by
  have nothing : ∀ blocks, ReadWithin running blocks n [] [] :=
    fun blocks => read_nothing (Nat.zero_le n)
  unfold readNMessages
  by_cases none_ : n = 0
  · rw [if_pos none_]
    exact ⟨Nat.zero_le _, nothing _⟩
  · by_cases ends : start = uint16Max
    · rw [if_neg none_, if_pos ends]
      exact ⟨Nat.zero_le _, nothing _⟩
    · rw [if_neg none_, if_neg ends, Running.reads_bind, Running.perform_bind, List.length_append]
      have finds := find_within startMsg totalMessageSectorSize start 0 running
      generalize running.reads (findMessageNIndex startMsg totalMessageSectorSize start 0)
        = blocks at finds ⊢
      generalize running.perform (findMessageNIndex startMsg totalMessageSectorSize start 0)
        = found at finds ⊢
      obtain ⟨hops, only, place⟩ := finds
      rcases found with ⟨ret | position, next⟩
      · exact ⟨hops, nothing _⟩
      · dsimp only [hopsAfter, FoundIn] at hops only place ⊢
        obtain ⟨content, serves, valid, is⟩ := place
        rw [is, only]
        rcases read_position_cases position.startOffset serves valid with
          refused | ⟨read, copied, within⟩
        · rw [refused]
          exact ⟨Nat.le_trans (Nat.add_le_add_left (Nat.zero_le _) _) hops, nothing _⟩
        · rw [copied]
          obtain ⟨few, rest⟩ := read_sectors_bounds n position.hopsLeft
            (ofSector content : MessageSector).header.prev.toNat read
            (running.afterReads blocks.length) within.length
          exact ⟨Nat.le_trans (Nat.add_le_add_left few _) hops, within.trans rest⟩

end SdDatabase
