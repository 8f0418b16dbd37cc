import SdDatabase.ChatOrder
import SdDatabase.MessageStore
import Mathlib.Data.Prod.Lex

/-!
# Sorting the chats

The chat order is built from the newest message of every chat. It takes a newest
sector that is in use, intact and filled as its header says; what is behind that
sector does not matter.
-/

namespace SdDatabase

open Bytes Device Heapsort

set_option autoImplicit false

/-- The newest message of the sector, when it is in use, intact and not empty. -/
def newestMessage (bitmap : UsageBitmap) (card : Card Sector) (index : Nat) : Option Message :=
  let content := card (messageRaw index)
  let mSector : MessageSector := ofSector content
  let msgCount := mSector.header.msgCount.toNat
  if index < totalMessageSectorSize ∧ usageBit bitmap (messageDataSector index) = true ∧
      sectorCrcValid content = true ∧ 0 < msgCount ∧ msgCount ≤ messageSectorCapacity then
    some (arrayGet mSector.messages (msgCount - 1) .zero)
  else none

def hasChat (table : HashTable) (hashSlot : Nat) : Bool :=
  decide ((table.htable hashSlot).state = .occupied) &&
    decide ((table.htable hashSlot).latestMsgExtent ≠ uint16Max)

theorem has_chat_iff {table : HashTable} {hashSlot : Nat} :
    hasChat table hashSlot = true ↔ (table.htable hashSlot).state = .occupied ∧
      (table.htable hashSlot).latestMsgExtent ≠ uint16Max := by
  rw [hasChat, Bool.and_eq_true, decide_eq_true_eq, decide_eq_true_eq]

section Newest

variable {db : Database} {card : Card Sector} {index : Nat} {message : Message}

theorem newest_message_some (newest : newestMessage db.usageBitmap card index = some message) :
    index < totalMessageSectorSize ∧
      out (checkUsageBit (messageDataSector index)) db card = ((true, db), []) ∧
      out (readMessageSector index) db card = ((.ok (card (messageRaw index)), db), []) ∧
      0 < (ofSector (card (messageRaw index)) : MessageSector).header.msgCount.toNat ∧
      (ofSector (card (messageRaw index)) : MessageSector).header.msgCount.toNat ≤
        messageSectorCapacity ∧
      arrayGet (ofSector (card (messageRaw index)) : MessageSector).messages
        ((ofSector (card (messageRaw index)) : MessageSector).header.msgCount.toNat - 1) .zero =
          message := by
  unfold newestMessage at newest
  dsimp only at newest
  split at newest
  · rename_i given
    obtain ⟨inside, used, valid, some_, fits⟩ := given
    have read := out_readMessageSector db card inside
    rw [valid, if_pos rfl] at read
    refine ⟨inside, ?_, read, some_, fits, Option.some.inj newest⟩
    rw [out_checkUsageBit, message_narrow inside, used]
  · cases newest

theorem out_readMessage_newest
    (newest : newestMessage db.usageBitmap card index = some message) :
    out (readMessage index 0) db card = ((.ok message, db), []) := by
  obtain ⟨_, check, read, some_, fits, content⟩ := newest_message_some newest
  unfold readMessage
  rw [if_neg (Nat.not_lt_zero _), out_bind_of check, apply_writes_nil, Bool.not_true,
    if_neg Bool.false_ne_true, out_bind_of read, apply_writes_nil]
  dsimp only
  rw [if_neg (Nat.not_lt.mpr fits), if_neg (Nat.not_le.mpr some_)]
  exact congrArg (fun found => (((Except.ok found : Except StrgRet Message), db), [])) content

/-- One message of a chat is read from its newest sector only. -/
theorem out_readNMessages_newest
    (newest : newestMessage db.usageBitmap card index = some message) :
    out (readNMessages index 0 1) db card = (((.strgOk, [message]), db), []) := by
  obtain ⟨inside, check, read, some_, fits, content⟩ := newest_message_some newest
  obtain ⟨mSector, sectorEq⟩ : ∃ mSector : MessageSector,
      mSector = ofSector (card (messageRaw index)) := ⟨_, rfl⟩
  rw [← sectorEq] at some_ fits content
  have notEnd : index ≠ uint16Max := by
    simp at inside ⊢
    omega
  have whole : totalMessageSectorSize = (totalMessageSectorSize - 1) + 1 := rfl
  have offset : (0 + mSector.header.msgCount.toNat - 1 - 0) % 256 =
      mSector.header.msgCount.toNat - 1 := by
    have small : messageSectorCapacity = 3 := by simp
    rw [Nat.zero_add, Nat.sub_zero, Nat.mod_eq_of_lt (by omega)]
  have found : out (findMessageNIndex 0 totalMessageSectorSize index 0) db card =
      ((.ok ⟨totalMessageSectorSize - 1, mSector.header.msgCount.toNat - 1, mSector⟩, db), []) := by
    rw [whole]
    unfold findMessageNIndex
    rw [if_neg notEnd, out_bind_of check, apply_writes_nil, Bool.not_true,
      if_neg Bool.false_ne_true, out_bind_of read, apply_writes_nil]
    dsimp only
    rw [← sectorEq, if_neg (by omega), offset]
    rfl
  have readable : ¬(mSector.header.msgCount.toNat ≤ mSector.header.msgCount.toNat - 1 ∨
      messageSectorCapacity < mSector.header.msgCount.toNat) := by omega
  have copied : copyMessages 1 mSector (mSector.header.msgCount.toNat - 1 + 1) [] = [message] := by
    rw [copyMessages, List.length_nil, if_pos Nat.zero_lt_one, List.nil_append, content]
    cases mSector.header.msgCount.toNat - 1 with
    | zero => rfl
    | succ rest => exact if_neg (by simp)
  unfold readNMessages
  rw [if_neg Nat.one_ne_zero, if_neg notEnd, out_bind_of found, apply_writes_nil]
  dsimp only
  rw [readMessagesFromPInSector, if_neg readable, copied]
  unfold readMessageSectors
  rfl

end Newest

/-- Later chats come first, then smaller slots. -/
def scratchKey (scratch : ChatOrderScratch) : Lex (Natᵒᵈ × Nat) :=
  toLex (OrderDual.toDual (joinTimestamp scratch.timestampHi scratch.timestampLo),
    scratch.hashSlot)

theorem chat_scratch_cmp_sign (left right : ChatOrderScratch) :
    chatScratchCmp left right < 0 ↔ scratchKey left < scratchKey right := by
  unfold chatScratchCmp scratchKey
  dsimp only
  generalize joinTimestamp left.timestampHi left.timestampLo = leftTime
  generalize joinTimestamp right.timestampHi right.timestampLo = rightTime
  rw [Prod.Lex.toLex_lt_toLex]
  simp only [OrderDual.toDual_lt_toDual, OrderDual.toDual_inj]
  by_cases same : leftTime = rightTime
  · simp [same]
  · simp only [same, ne_eq, not_false_eq_true, if_true, false_and, or_false]
    split <;> omega

/-- What the sort sees of a hash slot whose newest message is `message hashSlot`. -/
def chatScratch (message : Nat → Message) (hashSlot : Nat) : ChatOrderScratch :=
  ⟨(message hashSlot).timestampHi, (message hashSlot).timestampLo, hashSlot⟩

section Sorting

variable {db : Database} {card : Card Sector} {message : Nat → Message}

theorem collect_chats_run (count hashSlot : Nat) (scratch : List ChatOrderScratch)
    (readable : ∀ slot ∈ (List.range' hashSlot count).filter (hasChat db.htable),
      newestMessage db.usageBitmap card (db.htable.htable slot).latestMsgExtent =
        some (message slot))
    (room : scratch.length + ((List.range' hashSlot count).filter (hasChat db.htable)).length ≤
      chatOrderEntries) :
    out (collectChats count hashSlot scratch) db card =
      ((.ok (scratch ++ ((List.range' hashSlot count).filter (hasChat db.htable)).map
        (chatScratch message)), db), []) := by
  induction count generalizing hashSlot scratch with
  | zero => simp [collectChats]
  | succ count ih =>
      unfold collectChats
      rw [List.range'_succ, List.filter_cons] at readable room ⊢
      rw [out_bind_of (out_get _ _), List.nil_append]
      simp only [apply_writes_nil]
      by_cases listed : hasChat db.htable hashSlot = true
      · obtain ⟨occupied, notEnd⟩ := has_chat_iff.mp listed
        rw [if_pos listed] at readable room ⊢
        have run := out_readNMessages_newest (readable hashSlot (by simp))
        have short : ¬chatOrderEntries ≤ scratch.length := by
          rw [List.length_cons] at room
          omega
        rw [if_neg (by simp only [occupied, notEnd]; simp), if_neg short, out_bind_of run]
        simp only [apply_writes_nil, List.nil_append, List.headD_cons]
        rw [ih _ _ (fun slot member => readable slot (List.mem_cons_of_mem _ member)) (by
          rw [List.length_cons] at room
          rw [List.length_append, List.length_singleton]
          omega)]
        simp [chatScratch]
      · have skip : (db.htable.htable hashSlot).state ≠ .occupied ∨
            (db.htable.htable hashSlot).latestMsgExtent = uint16Max := by
          by_contra both
          rw [not_or, not_not] at both
          exact listed (has_chat_iff.mpr both)
        rw [if_neg listed] at readable room ⊢
        rw [if_pos skip]
        exact ih _ _ readable room

theorem out_chatOrderBuild
    (readable : ∀ slot ∈ (List.range hashTableSize).filter (hasChat db.htable),
      newestMessage db.usageBitmap card (db.htable.htable slot).latestMsgExtent =
        some (message slot))
    (few : ((List.range hashTableSize).filter (hasChat db.htable)).length ≤ chatOrderEntries) :
    ∃ order : List Nat, order.Perm ((List.range hashTableSize).filter (hasChat db.htable)) ∧
      (order.Pairwise fun first second =>
        scratchKey (chatScratch message first) ≤ scratchKey (chatScratch message second)) ∧
      out chatOrderBuild db card = ((.strgOk, { db with chatOrder := ⟨order⟩ }), []) := by
  rw [List.range_eq_range'] at readable few ⊢
  obtain ⟨slots, slotsEq⟩ :
      ∃ slots, slots = (List.range' 0 hashTableSize).filter (hasChat db.htable) := ⟨_, rfl⟩
  have collect := @collect_chats_run { db with chatOrder := ⟨[]⟩ } card message hashTableSize 0 []
    readable (by simpa using few)
  rw [List.nil_append] at collect
  dsimp only at collect
  rw [← slotsEq] at collect few ⊢
  obtain ⟨sorted, sortRun, perm, ordered⟩ := @heapsort_spec _ _ _ _ _ _ scratchKey
    (fun left right => return .ok (chatScratchCmp left right)) { db with chatOrder := ⟨[]⟩ } card
    (slots.map (chatScratch message))
    fun left _ right _ => ⟨_, rfl, chat_scratch_cmp_sign left right⟩
  have slotsPerm : (sorted.map (·.hashSlot)).Perm slots := by
    have mapped := perm.map (·.hashSlot)
    rw [List.map_map] at mapped
    have id_ : ((·.hashSlot) ∘ chatScratch message : Nat → Nat) = id := rfl
    rwa [id_, List.map_id] at mapped
  have whole : (sorted.map (·.hashSlot)).take chatOrderEntries = sorted.map (·.hashSlot) :=
    List.take_of_length_le (by rw [slotsPerm.length_eq]; exact few)
  refine ⟨sorted.map (·.hashSlot), slotsPerm, ?_, ?_⟩
  · rw [List.pairwise_map]
    refine ordered.imp_of_mem fun {left right} leftIn rightIn order => ?_
    obtain ⟨first, _, rfl⟩ := List.mem_map.mp (perm.mem_iff.mp leftIn)
    obtain ⟨second, _, rfl⟩ := List.mem_map.mp (perm.mem_iff.mp rightIn)
    exact order
  · have logEq : ([] : WriteLog Sector) = [] ++ ([] ++ ([] ++ ([] ++ []))) := rfl
    unfold chatOrderBuild
    rw [logEq]
    refine out_bind_both (out_modify _ _ _) (out_bind_both collect ?_)
    refine out_bind_both sortRun ?_
    simp only [whole]
    exact out_bind_both (out_modify _ _ _) rfl

end Sorting

end SdDatabase
