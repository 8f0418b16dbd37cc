import SdDatabase.Chains

/-!
# The window of a chat

`read_n_messages` on any well-formed chain of sectors, whatever else the card
holds: the messages from `startMsg` on, newest first, or a failure when there
are none.
-/

namespace SdDatabase

open Bytes Device

set_option autoImplicit false

/-- The message sector at an index, if it is used and readable. -/
def messageSectorAt (bitmap : UsageBitmap) (card : Card Sector) (index : Nat) :
    Option MessageSector :=
  if index < totalMessageSectorSize ∧ usageBit bitmap (messageDataSector index) = true ∧
      sectorCrcValid (card (messageRaw index)) = true then
    some (ofSector (card (messageRaw index)))
  else none

theorem sectors_stored_at (bitmap : UsageBitmap) (card : Card Sector) :
    SectorsStored bitmap card (messageSectorAt bitmap card) := by
  intro index mSector found
  unfold messageSectorAt at found
  split at found
  · rename_i readable
    rw [Option.some.injEq] at found
    exact ⟨readable.1, readable.2.1, readable.2.2, found⟩
  · cases found

theorem message_sector_at_eq {bitmap : UsageBitmap} {card : Card Sector} {index : Nat}
    {mSector : MessageSector} (bound : index < totalMessageSectorSize)
    (used : usageBit bitmap (messageDataSector index) = true)
    (content : card (messageRaw index) = sectorCrcStamp (toSector mSector)) :
    messageSectorAt bitmap card index = some mSector := by
  have valid : sectorCrcValid (card (messageRaw index)) = true := by
    rw [content, stamp_valid]
  rw [messageSectorAt, if_pos ⟨bound, used, valid⟩, content, of_sector_stamp, of_to_sector]

/-- A chain of used sectors from `start` to the end mark: the newest one holds some
messages, all others are full. -/
structure ChatChain (bitmap : UsageBitmap) (card : Card Sector) (start : Nat)
    (chain : List Nat) : Prop where
  linked : PrevChain (messageSectorAt bitmap card) start chain
  given : chain ≠ []
  newest : ∀ mSector, messageSectorAt bitmap card start = some mSector →
    0 < mSector.header.msgCount.toNat ∧ mSector.header.msgCount.toNat ≤ messageSectorCapacity
  full : ∀ index ∈ chain.tail, ∀ mSector, messageSectorAt bitmap card index = some mSector →
    mSector.header.msgCount.toNat = messageSectorCapacity
  short : chain.length ≤ totalMessageSectorSize

/-- What `read_n_messages` answers when the chat holds `messages`, newest first. -/
def chatWindow (messages : List Message) (startMsg n : Nat) : StrgRet × List Message :=
  if startMsg < messages.length then (.strgOk, (messages.drop startMsg).take n)
  else (.strgFail, [])

theorem chat_window_count (messages : List Message) (startMsg n : Nat) :
    (chatWindow messages startMsg n).2.length = min n (messages.length - startMsg) := by
  unfold chatWindow
  split
  · rw [List.length_take, List.length_drop]
  · rw [List.length_nil]
    omega

theorem chat_window_pages (messages : List Message) (page count : Nat) :
    ((List.range count).flatMap fun number => (chatWindow messages (number * page) page).2) =
      messages.take (count * page) := by
  induction count with
  | zero => simp
  | succ count ih =>
      have step : (chatWindow messages (count * page) page).2 =
          (messages.drop (count * page)).take page := by
        unfold chatWindow
        split
        · rfl
        · rename_i past
          rw [List.drop_of_length_le (not_lt.mp past), List.take_nil]
      rw [List.range_succ, List.flatMap_append, ih, List.flatMap_singleton, step, Nat.succ_mul,
        List.take_add]

section ChatChain

variable {db : Database} {card : Card Sector} {start : Nat} {chain : List Nat}

theorem ChatChain.counted (well : ChatChain db.usageBitmap card start chain) :
    Counted (messageSectorAt db.usageBitmap card) chain := by
  obtain ⟨head, rest, whole⟩ := List.exists_cons_of_ne_nil well.given
  have linked := well.linked
  rw [whole] at linked
  intro index member mSector found
  rw [whole] at member
  rcases List.mem_cons.mp member with first | older
  · rw [first, ← linked.1] at found
    exact well.newest mSector found
  · have count := well.full index (by rw [whole]; exact older) mSector found
    rw [count]
    exact ⟨by decide, Nat.le_refl _⟩

theorem ChatChain.read (well : ChatChain db.usageBitmap card start chain) (startMsg : Nat)
    {n : Nat} (some_ : 0 < n) :
    out (readNMessages start startMsg n) db card =
      ((chatWindow (chatMessages (messageSectorAt db.usageBitmap card) chain) startMsg n, db),
        []) := by
  have run := out_readNMessages (sectors_stored_at db.usageBitmap card) well.linked well.counted
    well.short startMsg n
  rw [if_neg (not_or.mpr ⟨Nat.ne_of_gt some_, well.given⟩)] at run
  rw [run, chatWindow]
  by_cases inside : startMsg < (chatMessages (messageSectorAt db.usageBitmap card) chain).length
  · rw [if_pos inside, if_neg (not_le.mpr inside)]
  · rw [if_neg inside, if_pos (not_lt.mp inside)]

/-- `read_n_messages` gives the window asked for, and pages of any size give the whole
chat in the end. -/
theorem chat_window_read (well : ChatChain db.usageBitmap card start chain) :
    let messages := chatMessages (messageSectorAt db.usageBitmap card) chain
    (∀ startMsg n, 0 < n →
      out (readNMessages start startMsg n) db card =
          ((chatWindow messages startMsg n, db), []) ∧
        (chatWindow messages startMsg n).2.length = min n (messages.length - startMsg)) ∧
      ∀ page count, 0 < page → messages.length ≤ count * page →
        ((List.range count).flatMap fun number =>
          (out (readNMessages start (number * page) page) db card).1.1.2) = messages := by
  intro messages
  constructor
  · intro startMsg n some_
    exact ⟨well.read startMsg some_, chat_window_count messages startMsg n⟩
  · intro page count some_ whole
    have pages := chat_window_pages messages page count
    rw [List.take_of_length_le whole] at pages
    rw [← pages]
    congr 1
    funext number
    rw [well.read (number * page) some_]

end ChatChain

def exampleChatMessage (time : BitVec 16) : Message := { Message.zero with timestampLo := time }

/-- The older sector, full, and the newer one with a single message. -/
def exampleOlder : MessageSector :=
  (((createNewMessageSector 0 uint16Max).push (exampleChatMessage 1#16)).push
    (exampleChatMessage 2#16)).push (exampleChatMessage 3#16)

def exampleNewer : MessageSector := (createNewMessageSector 0 900).push (exampleChatMessage 4#16)

def exampleChatDatabase : Database :=
  { blankDatabase with
    usageBitmap := setUsageBit (setUsageBit .zero (messageDataSector 900) true)
      (messageDataSector 7) true }

def exampleChatCard : Card Sector := fun index =>
  if index = messageRaw 7 then sectorCrcStamp (toSector exampleNewer)
  else sectorCrcStamp (toSector exampleOlder)

theorem chat_window_read_example :
    let messages := chatMessages
      (messageSectorAt exampleChatDatabase.usageBitmap exampleChatCard) [7, 900]
    (∀ startMsg n, 0 < n →
      out (readNMessages 7 startMsg n) exampleChatDatabase exampleChatCard =
          ((chatWindow messages startMsg n, exampleChatDatabase), []) ∧
        (chatWindow messages startMsg n).2.length = min n (messages.length - startMsg)) ∧
      ∀ page count, 0 < page → messages.length ≤ count * page →
        ((List.range count).flatMap fun number =>
          (out (readNMessages 7 (number * page) page) exampleChatDatabase
            exampleChatCard).1.1.2) = messages := by
  have newer : messageSectorAt exampleChatDatabase.usageBitmap exampleChatCard 7 =
      some exampleNewer := by
    apply message_sector_at_eq (by decide)
    · simp [exampleChatDatabase]
    · rfl
  have older : messageSectorAt exampleChatDatabase.usageBitmap exampleChatCard 900 =
      some exampleOlder := by
    apply message_sector_at_eq (by decide)
    · simp [exampleChatDatabase]
    · rfl
  apply chat_window_read
  refine ⟨⟨rfl, exampleNewer, newer, rfl, exampleOlder, older, rfl⟩, by simp, ?_, ?_, by decide⟩
  · intro mSector found
    rw [newer, Option.some.injEq] at found
    rw [← found]
    decide
  · intro index member mSector found
    rw [List.tail_cons, List.mem_singleton] at member
    rw [member, older, Option.some.injEq] at found
    rw [← found]
    decide

end SdDatabase
