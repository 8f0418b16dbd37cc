import SdDatabase.JournalUse

/-!
# The calls and the journal

Every call of the database writes to the journal by `journal_add` and
`journal_free` only. So the journal stays coherent over any run in which no copy
is written while the header on the card is active.
-/

namespace SdDatabase

open Bytes Device

set_option autoImplicit false

theorem orderly_hashFindEntry (phone : List Byte) : Orderly (hashFindEntry phone) :=
  orderly_of_reads (reads_hashFindEntry phone)

theorem orderly_readContact (index : Nat) : Orderly (readContact index) :=
  orderly_of_reads (reads_readContact index)

theorem orderly_setEntry (slot : Nat) (change : HashEntry → HashEntry)
    (step : HashTable → HashTable)
    (changed : ∀ table, (step table).htable = Function.update table.htable slot
      (change (table.htable slot)))
    (sector : ∀ entry, entry.sector < 65536 → (change entry).sector < 65536)
    (chat : ∀ entry, MessageInRegion entry.latestMsgExtent →
      MessageInRegion (change entry).latestMsgExtent) : Orderly (modifyTable step) := by
  apply orderly_modify
  intro db confined
  exact confined.set_entry (changed db.htable) (sector _ (confined.contacts slot))
    (chat _ (confined.chats slot))

/-- An allocation gives an index of the stack or the number that is no index, and adds nothing
to the stack. -/
theorem allocate_given (list : FreeList) :
    ((freeListAllocate list).1 = uint16Max ∨ (freeListAllocate list).1 ∈ list.freeStack) ∧
      ∀ index ∈ (freeListAllocate list).2.freeStack, index ∈ list.freeStack := by
  unfold freeListAllocate
  cases stack : list.freeStack with
  | nil =>
      constructor
      · exact Or.inl rfl
      · intro index member
        rwa [stack] at member
  | cons sector rest =>
      constructor
      · exact Or.inr List.mem_cons_self
      · exact fun index member => List.mem_cons_of_mem sector member

theorem supplies_allocateContact : Supplies (fun index => index < 65536) allocateContact := by
  apply supplies_get
  intro db confined
  obtain ⟨given, kept⟩ := allocate_given db.contactAllocator
  have bound : (freeListAllocate db.contactAllocator).1 < 65536 := by
    rcases given with none_ | member
    · rw [none_]
      decide
    · exact confined.freeContacts _ member
  apply Supplies.bind
  · apply orderly_modify
    intro current currentConfined
    exact { currentConfined with
      freeContacts := fun index member => confined.freeContacts index (kept index member) }
  · exact fun _ _ => supplies_pure bound

theorem supplies_allocateMessage : Supplies MessageInRegion allocateMessage := by
  apply supplies_get
  intro db confined
  obtain ⟨given, kept⟩ := allocate_given db.messageAllocator
  have inside : MessageInRegion (freeListAllocate db.messageAllocator).1 := by
    rcases given with none_ | member
    · rw [none_]
      exact no_message_in_region
    · exact confined.freeMessages _ member
  apply Supplies.bind
  · apply orderly_modify
    intro current currentConfined
    exact { currentConfined with
      freeMessages := fun index member => confined.freeMessages index (kept index member) }
  · exact fun _ _ => supplies_pure inside

theorem orderly_putEntry {slot : Nat} {entry : HashEntry} {step : HashTable → HashTable}
    (changed : ∀ table, (step table).htable = Function.update table.htable slot entry)
    (sector : entry.sector < 65536) (chat : MessageInRegion entry.latestMsgExtent) :
    Orderly (modifyTable step) :=
  orderly_setEntry slot (fun _ => entry) step changed (fun _ _ => sector) fun _ _ => chat

theorem orderly_hashInsertContact (contact : Contact) : Orderly (hashInsertContact contact) := by
  unfold hashInsertContact
  apply (orderly_hashFindEntry _).bind
  intro found
  cases found with
  | none => exact orderly_pure _
  | some slot =>
      apply supplies_get
      intro db confined
      apply Orderly.ite (orderly_pure _)
      apply supplies_allocateContact.bind
      intro contactAlloc bound
      apply Orderly.ite (orderly_pure _)
      apply (orderly_putEntry (fun _ => rfl) bound no_message_in_region).bind
      intro _
      apply (orderly_writeContact contact bound).bind
      intro ret
      apply Orderly.ite _ (orderly_pure _)
      apply (orderly_modify fun later laterConfined => laterConfined.free_contact bound).bind
      intro _
      apply (orderly_putEntry (fun _ => rfl) (confined.contacts slot) (confined.chats slot)).bind
      exact fun _ => orderly_pure _

theorem orderly_hashUpdatePhone (oldPhone : List Byte) (new : Contact) :
    Orderly (hashUpdatePhone oldPhone new) := by
  unfold hashUpdatePhone
  apply (orderly_hashFindEntry _).bind
  intro found
  cases found with
  | none => exact orderly_pure _
  | some oldSlot =>
      apply supplies_get
      intro db confined
      apply Orderly.ite (orderly_pure _)
      apply (orderly_hashFindEntry _).bind
      intro free
      cases free with
      | none => exact orderly_pure _
      | some newSlot =>
          apply supplies_get
          intro before beforeConfined
          apply Orderly.ite (orderly_pure _)
          apply Orderly.bind
          · apply orderly_modify
            intro current currentConfined
            exact currentConfined.set_entry rfl (currentConfined.contacts oldSlot)
              (currentConfined.chats oldSlot)
          intro _
          apply supplies_get
          intro moved movedConfined
          apply (orderly_writeContact new (movedConfined.contacts newSlot)).bind
          intro ret
          apply Orderly.ite
          · apply (orderly_putEntry (fun _ => rfl) (beforeConfined.contacts newSlot)
              (beforeConfined.chats newSlot)).bind
            exact fun _ => orderly_pure _
          · apply (orderly_setEntry oldSlot (fun entry => { entry with state := .deleted }) _
              (fun _ => rfl) (fun _ bound => bound) fun _ inside => inside).bind
            exact fun _ => orderly_pure _

theorem orderly_hashUpdateContact (old new : Contact) : Orderly (hashUpdateContact old new) := by
  unfold hashUpdateContact
  apply Orderly.ite (orderly_hashUpdatePhone _ _)
  apply (orderly_hashFindEntry _).bind
  intro found
  cases found with
  | none => exact orderly_pure _
  | some slot =>
      apply supplies_get
      intro db confined
      exact Orderly.ite (orderly_pure _) (orderly_writeContact new (confined.contacts slot))

theorem orderly_claimEntryForMessage (phone : List Byte) (slot : Nat) :
    Orderly (claimEntryForMessage phone slot) := by
  unfold claimEntryForMessage
  apply supplies_get
  intro db confined
  apply Orderly.ite (orderly_pure _)
  apply supplies_allocateContact.bind
  intro sector bound
  apply Orderly.ite (orderly_pure _)
  apply (orderly_writeContact _ bound).bind
  intro ret
  apply Orderly.ite (orderly_pure _)
  apply (orderly_putEntry (fun _ => rfl) bound no_message_in_region).bind
  exact fun _ => orderly_pure _

theorem orderly_setLatestMsgExtent (slot : Nat) {sector : Nat} (inside : MessageInRegion sector) :
    Orderly (setLatestMsgExtent slot sector) :=
  orderly_setEntry slot (fun entry => { entry with latestMsgExtent := sector }) _ (fun _ => rfl)
    (fun _ bound => bound) fun _ _ => inside

theorem orderly_appendToChat (slot : Nat) (message : Message) :
    Orderly (appendToChat slot message) := by
  unfold appendToChat
  apply supplies_get
  intro db confined
  apply Orderly.ite
  · apply supplies_allocateMessage.bind
    intro sector inside
    apply Orderly.ite (orderly_pure _)
    apply (orderly_writeNewMessageSector inside _ _).bind
    intro ret
    apply Orderly.ite (orderly_pure _)
    apply (orderly_setLatestMsgExtent _ inside).bind
    exact fun _ => orderly_pure _
  · have latest := confined.chats slot
    apply (orderly_writeMessage latest _).bind
    intro ret
    apply Orderly.ite _ (orderly_pure _)
    apply supplies_allocateMessage.bind
    intro nextSector inside
    apply (orderly_writeNextMessageSector latest _ _ inside).bind
    intro written
    apply Orderly.ite (orderly_pure _)
    apply (orderly_setLatestMsgExtent _ inside).bind
    exact fun _ => orderly_pure _

theorem orderly_hashInsertMessage (phone : List Byte) (message : Message) :
    Orderly (hashInsertMessage phone message) := by
  unfold hashInsertMessage
  apply (orderly_hashFindEntry _).bind
  intro found
  cases found with
  | none => exact orderly_pure _
  | some slot =>
      apply (orderly_claimEntryForMessage _ _).bind
      exact fun _ => Orderly.ite (orderly_pure _) (orderly_appendToChat _ _)

theorem orderly_findOccupiedEntry (phone : List Byte) : Orderly (findOccupiedEntry phone) := by
  unfold findOccupiedEntry
  apply (orderly_hashFindEntry _).bind
  intro found
  cases found with
  | none => exact orderly_pure _
  | some slot =>
      apply supplies_get
      exact fun _ _ => Orderly.ite (orderly_pure _) (orderly_pure _)

theorem orderly_hashRemoveContact (phone : List Byte) : Orderly (hashRemoveContact phone) := by
  unfold hashRemoveContact
  apply (orderly_findOccupiedEntry _).bind
  intro found
  cases found with
  | none => exact orderly_pure _
  | some slot =>
      apply supplies_get
      intro db confined
      apply (orderly_removeContact (confined.contacts slot)).bind
      intro removed
      cases removed with
      | none => exact orderly_pure _
      | some record =>
          apply Orderly.bind
          · apply orderly_setEntry slot
              (fun entry => { entry with sector := uint16Max, state := .deleted }) _ (fun _ => rfl)
            · exact fun _ _ => (by decide : uint16Max < 65536)
            · exact fun _ inside => inside
          · exact fun _ => orderly_pure _

theorem orderly_hashRemoveMessage (phone : List Byte) : Orderly (hashRemoveMessage phone) := by
  unfold hashRemoveMessage
  apply (orderly_findOccupiedEntry _).bind
  intro found
  cases found with
  | none => exact orderly_pure _
  | some slot =>
      apply supplies_get
      intro db _
      apply (orderly_removeMessageChat _).bind
      intro removed
      apply Orderly.ite (orderly_pure _)
      apply (orderly_setLatestMsgExtent _ no_message_in_region).bind
      exact fun _ => orderly_pure _

theorem orderly_hashRemove (phone : List Byte) : Orderly (hashRemove phone) := by
  unfold hashRemove
  apply (orderly_findOccupiedEntry _).bind
  intro found
  cases found with
  | none => exact orderly_pure _
  | some slot =>
      apply supplies_get
      intro db _
      apply (orderly_removeMessageChat _).bind
      intro chatRemoved
      apply (orderly_setLatestMsgExtent _ no_message_in_region).bind
      intro _
      apply supplies_get
      intro later confined
      apply (orderly_removeContact (confined.contacts slot)).bind
      intro contactRemoved
      apply Orderly.ite (orderly_pure _)
      apply (orderly_setEntry slot (fun entry => { entry with state := .deleted }) _ (fun _ => rfl)
        (fun _ bound => bound) fun _ inside => inside).bind
      exact fun _ => orderly_pure _

theorem orderly_tiebreakFn (probe : SortedArrayProbe) (entry : SortedArrayEntry) :
    Orderly (tiebreakFn probe entry) := by
  apply supplies_get
  intro db _
  apply (orderly_readContact _).bind
  intro answer
  cases answer with
  | error ret => exact orderly_pure _
  | ok contact => exact Orderly.ite (orderly_pure _) (orderly_pure _)

theorem orderly_binarySearch (array : SortedArray) (probe : SortedArrayProbe) :
    Orderly (binarySearchLowerBound array probe) := by
  unfold binarySearchLowerBound
  generalize array.mem.length + 1 = fuel
  generalize 0 = lo
  generalize array.mem.length = hi
  generalize false = isMatch
  induction fuel generalizing lo hi isMatch with
  | zero => exact orderly_pure _
  | succ fuel ih =>
      unfold lowerBoundLoop
      apply Orderly.ite _ (orderly_pure _)
      dsimp only
      cases array.mem[lo + (hi - lo) / 2]? with
      | none => exact orderly_pure _
      | some entry =>
          apply Orderly.bind
          · exact Orderly.ite (orderly_tiebreakFn _ _) (orderly_pure _)
          intro compared
          cases compared with
          | error ret => exact orderly_pure _
          | ok order => exact Orderly.ite (ih _ _ _) (ih _ _ _)

theorem orderly_sortedArrayFind (contact : Contact) : Orderly (sortedArrayFind contact) := by
  apply supplies_get
  exact fun _ _ => orderly_binarySearch _ _

theorem orderly_sortedArrayInsert (contact : Contact) (hashSlot : Nat) :
    Orderly (sortedArrayInsert contact hashSlot) := by
  unfold sortedArrayInsert
  apply supplies_get
  intro db _
  apply Orderly.ite (orderly_pure _)
  apply (orderly_sortedArrayFind _).bind
  intro searched
  cases searched with
  | error ret => exact orderly_pure _
  | ok found =>
      apply Orderly.ite (orderly_pure _)
      apply Orderly.bind
      · apply orderly_modify
        exact fun _ confined => confined.congr rfl rfl rfl (fun _ => rfl) rfl rfl
      · exact fun _ => orderly_pure _

theorem orderly_sortedArrayRemove (contact : Contact) : Orderly (sortedArrayRemove contact) := by
  unfold sortedArrayRemove
  apply supplies_get
  intro db _
  apply Orderly.ite (orderly_pure _)
  apply (orderly_sortedArrayFind _).bind
  intro searched
  cases searched with
  | error ret => exact orderly_pure _
  | ok found =>
      apply Orderly.ite (orderly_pure _)
      apply Orderly.bind
      · apply orderly_modify
        exact fun _ confined => confined.congr rfl rfl rfl (fun _ => rfl) rfl rfl
      · exact fun _ => orderly_pure _

theorem orderly_modifyChatOrder (step : ChatOrder → StrgRet × ChatOrder) :
    Orderly (modifyChatOrder step) := by
  apply supplies_get
  intro db _
  apply Orderly.bind
  · apply orderly_modify
    exact fun _ confined => confined.congr rfl rfl rfl (fun _ => rfl) rfl rfl
  · exact fun _ => orderly_pure _

/-- What both histories have in common here: a change of the ring keeps the rest confined, and
the sectors of the ring are behind the message sectors. -/
structure HistoryLayout.Confines {E : Type} (layout : HistoryLayout E) : Prop where
  ring : ∀ db, Confined db → RingInRegion (layout.ring db)
  setRing : ∀ db rb, Confined db → RingInRegion rb → Confined (layout.setRing rb db)
  start : dataRegionStartSector ≤ layout.dataStart ∧ layout.dataStart + 5000 + 12 < 65536

theorem message_history_confines : messageHistoryLayout.Confines where
  ring db confined := confined.messages
  setRing db rb confined inside := { confined with messages := inside }
  start := by decide

theorem call_history_confines : callHistoryLayout.Confines where
  ring db confined := confined.calls
  setRing db rb confined inside := { confined with calls := inside }
  start := by decide

section Histories

variable {E : Type} {layout : HistoryLayout E} (confines : layout.Confines)

include confines

theorem orderly_modifyRing {step : RingBuffer → RingBuffer}
    (keeps : ∀ rb, RingInRegion rb → RingInRegion (step rb)) :
    Orderly (modifyRing layout step) := by
  apply orderly_modify
  intro db confined
  exact confines.setRing db _ confined (keeps _ (confines.ring db confined))

theorem orderly_commitHistory (sector : RingSector E layout.capacity layout.spare) :
    Orderly (commitHistory layout sector) := by
  unfold commitHistory
  apply supplies_get
  intro db confined
  apply Orderly.bind
  · apply orderly_writeSector
    have current := (confines.ring db confined).current
    have start := confines.start
    unfold u16
    simp at start ⊢
    omega
  intro ret
  exact Orderly.ite (orderly_pure _) orderly_journalFree

omit confines in
theorem add_ring_in_region {rb : RingBuffer} (inside : RingInRegion rb) :
    RingInRegion (addRingBuffer rb) := by
  unfold addRingBuffer
  split
  · rename_i room
    have size := inside.size
    exact { inside with occupancy := by dsimp only; omega }
  · exact inside

omit confines in
theorem move_ring_in_region {rb : RingBuffer} (inside : RingInRegion rb) :
    RingInRegion (moveNextRingBuffer rb) := by
  unfold moveNextRingBuffer
  split
  · rename_i more
    have occupancy := inside.occupancy
    exact { inside with current := by dsimp only; omega }
  · exact { inside with current := Nat.zero_le _ }

theorem orderly_historyAddLoop (entry : E) (fuel : Nat) :
    Orderly (historyAddLoop layout entry fuel) := by
  induction fuel with
  | zero => exact orderly_pure _
  | succ fuel ih =>
      unfold historyAddLoop
      apply Orderly.bind
      · apply supplies_get
        intro db _
        exact Orderly.ite (orderly_modifyRing confines fun _ inside => add_ring_in_region inside)
          (orderly_pure _)
      intro _
      apply supplies_get
      intro db confined
      apply (orderly_of_reads (reads_readHistorySector layout _)).bind
      intro content
      cases content with
      | error ret => exact orderly_pure _
      | ok content =>
          have region : u16 (layout.dataStart + (layout.ring db).currentIndex) +
              dataRegionStartSector < 65536 := by
            have current := (confines.ring db confined).current
            have start := confines.start
            unfold u16
            simp at start ⊢
            omega
          apply (orderly_journalAdd _ _ region).bind
          intro added
          apply Orderly.ite (orderly_pure _)
          dsimp only
          cases historyStep layout.capacity (layout.ring db)
              (ofSector content : RingSector E layout.capacity layout.spare).header with
          | invalid => exact orderly_pure _
          | store header => exact orderly_commitHistory confines _
          | moveNext =>
              apply (orderly_commitHistory confines _).bind
              intro ret
              apply Orderly.ite (orderly_pure _)
              apply (orderly_modifyRing confines fun _ inside => add_ring_in_region inside).bind
              intro _
              apply (orderly_modifyRing confines fun _ inside => move_ring_in_region inside).bind
              intro _
              apply Orderly.bind _ fun _ => ih
              apply orderly_modifyRing confines
              exact fun _ inside => ⟨inside.size, inside.occupancy, inside.current⟩

theorem orderly_historyAdd (entry : E) : Orderly (historyAdd layout entry) := by
  apply supplies_get
  exact fun _ _ => orderly_historyAddLoop confines _ _

end Histories

theorem orderly_findOccupied (phone : List Byte) : Orderly (findOccupied phone) := by
  apply (orderly_findOccupiedEntry _).bind
  intro found
  cases found <;> exact orderly_pure _

theorem orderly_databaseContactAdd (name phone : Option CString) :
    Orderly (databaseContactAdd name phone) := by
  unfold databaseContactAdd
  split
  · apply (orderly_hashInsertContact _).bind
    intro inserted
    apply Orderly.ite (orderly_pure _)
    apply (orderly_sortedArrayInsert _ _).bind
    intro ret
    apply Orderly.ite _ (orderly_pure _)
    apply (orderly_hashRemoveContact _).bind
    exact fun _ => orderly_pure _
  · exact orderly_pure _

theorem orderly_updateFoundContact (oldSlot : Nat) (old : Contact) (newName newPhone : List Byte) :
    Orderly (updateFoundContact oldSlot old newName newPhone) := by
  unfold updateFoundContact
  apply (orderly_sortedArrayRemove _).bind
  intro removed
  apply Orderly.ite (orderly_pure _)
  apply (orderly_hashUpdateContact _ _).bind
  intro updated
  apply Orderly.ite
  · apply (orderly_sortedArrayInsert _ _).bind
    exact fun _ => orderly_pure _
  · apply (orderly_findOccupied _).bind
    intro found
    cases found with
    | error ret => exact orderly_pure _
    | ok newSlot =>
        apply (orderly_modifyChatOrder _).bind
        exact fun _ => orderly_sortedArrayInsert _ _

theorem orderly_databaseContactUpdate (phone newName newPhone : Option CString) :
    Orderly (databaseContactUpdate phone newName newPhone) := by
  unfold databaseContactUpdate
  split
  · apply (orderly_findOccupied _).bind
    intro found
    cases found with
    | error ret => exact orderly_pure _
    | ok oldSlot =>
        apply supplies_get
        intro db _
        apply (orderly_readContact _).bind
        intro read
        cases read with
        | error ret => exact orderly_pure _
        | ok old => exact orderly_updateFoundContact _ _ _ _
  · exact orderly_pure _

theorem orderly_removeFoundContact (slot : Nat) (contact : Contact) (phone : List Byte) :
    Orderly (removeFoundContact slot contact phone) := by
  unfold removeFoundContact
  apply (orderly_sortedArrayRemove _).bind
  intro removed
  apply Orderly.ite (orderly_pure _)
  apply (orderly_hashRemove _).bind
  intro gone
  apply Orderly.ite
  · apply (orderly_sortedArrayInsert _ _).bind
    exact fun _ => orderly_pure _
  · apply (orderly_modifyChatOrder _).bind
    exact fun _ => orderly_pure _

theorem orderly_databaseContactRemove (phone : Option CString) :
    Orderly (databaseContactRemove phone) := by
  unfold databaseContactRemove
  split
  · exact orderly_pure _
  · apply (orderly_findOccupied _).bind
    intro found
    cases found with
    | error ret => exact orderly_pure _
    | ok slot =>
        apply supplies_get
        intro db _
        apply (orderly_readContact _).bind
        intro read
        cases read with
        | error ret => exact orderly_pure _
        | ok contact => exact orderly_removeFoundContact _ _ _

theorem orderly_recordMessage (slot : Nat) (isNewContact : Bool) (phone : List Byte)
    (message : Message) : Orderly (recordMessage slot isNewContact phone message) := by
  have touched : Orderly (do
      let ret ← modifyChatOrder fun order => chatOrderTouch order slot
      if ret ≠ .strgOk then
        return ret
      let latest := ((← get).htable.htable slot).latestMsgExtent
      messageHistoryAdd ⟨BitVec.ofNat 16 latest, message⟩) := by
    apply (orderly_modifyChatOrder _).bind
    intro ret
    apply Orderly.ite (orderly_pure _)
    apply supplies_get
    exact fun _ _ => orderly_historyAdd message_history_confines _
  unfold recordMessage
  apply Orderly.ite
  · apply (orderly_sortedArrayInsert _ _).bind
    exact fun _ => Orderly.ite (orderly_pure _) touched
  · apply (orderly_pure _).bind
    exact fun _ => Orderly.ite (orderly_pure _) touched

theorem orderly_databaseMessageAdd (phone : Option CString) (timestamp : BitVec 32)
    (direction : Bool) (str : Option CString) :
    Orderly (databaseMessageAdd phone timestamp direction str) := by
  unfold databaseMessageAdd
  split
  · apply Orderly.ite (orderly_pure _)
    apply (orderly_findOccupied _).bind
    intro known
    -- a known number and an unknown one differ in the flag alone
    cases known
    all_goals
      apply (orderly_pure _).bind
      intro isNewContact
      apply (orderly_hashInsertMessage _ _).bind
      intro inserted
      apply Orderly.ite (orderly_pure _)
      apply (orderly_findOccupied _).bind
      intro found
      cases found with
      | error ret => exact orderly_pure _
      | ok slot => exact orderly_recordMessage _ _ _ _
  · exact orderly_pure _

theorem orderly_databaseMessageRemoveChat (phone : Option CString) :
    Orderly (databaseMessageRemoveChat phone) := by
  unfold databaseMessageRemoveChat
  split
  · exact orderly_pure _
  · apply (orderly_findOccupied _).bind
    intro found
    cases found with
    | error ret => exact orderly_pure _
    | ok slot =>
        apply supplies_get
        intro db _
        apply Orderly.ite (orderly_pure _)
        apply (orderly_hashRemoveMessage _).bind
        intro removed
        apply Orderly.ite (orderly_pure _)
        apply (orderly_modifyChatOrder _).bind
        exact fun _ => orderly_pure _

theorem orderly_databaseCallAdd (phone : Option CString) : Orderly (databaseCallAdd phone) := by
  unfold databaseCallAdd
  split
  · exact orderly_pure _
  · apply (orderly_findOccupied _).bind
    intro found
    cases found with
    | error ret => exact orderly_historyAdd call_history_confines _
    | ok slot =>
        apply supplies_get
        intro db _
        apply (orderly_readContact _).bind
        intro read
        cases read with
        | error ret => exact orderly_pure _
        | ok contact => exact orderly_historyAdd call_history_confines _

theorem orderly_findMessageNIndex (startMsg hopsLeft prevIndex msgPassed : Nat) :
    Orderly (findMessageNIndex startMsg hopsLeft prevIndex msgPassed) := by
  induction hopsLeft generalizing prevIndex msgPassed with
  | zero => exact orderly_pure _
  | succ hopsLeft ih =>
      unfold findMessageNIndex
      apply Orderly.ite (orderly_pure _)
      apply (orderly_of_reads (reads_checkUsageBit _)).bind
      intro used
      apply Orderly.ite (orderly_pure _)
      apply (orderly_of_reads (reads_readSector id _)).bind
      intro content
      cases content with
      | error ret => exact orderly_pure _
      | ok content => exact Orderly.ite (ih _ _) (orderly_pure _)

theorem orderly_readMessageSectors (n hopsLeft prevIndex : Nat) (read : List Message) :
    Orderly (readMessageSectors n hopsLeft prevIndex read) := by
  induction hopsLeft generalizing prevIndex read with
  | zero =>
      unfold readMessageSectors
      exact Orderly.ite (orderly_pure _) (Orderly.ite (orderly_pure _) (orderly_pure _))
  | succ hopsLeft ih =>
      unfold readMessageSectors
      apply Orderly.ite (orderly_pure _)
      apply Orderly.ite (orderly_pure _)
      apply (orderly_of_reads (reads_checkUsageBit _)).bind
      intro used
      apply Orderly.ite (orderly_pure _)
      apply (orderly_of_reads (reads_readSector id _)).bind
      intro content
      cases content with
      | error ret => exact orderly_pure _
      | ok content =>
          dsimp only
          cases readMessagesFromSector n (ofSector content) read with
          | none => exact orderly_pure _
          | some longer => exact ih _ _

theorem orderly_readNMessages (startIndex startMsg n : Nat) :
    Orderly (readNMessages startIndex startMsg n) := by
  unfold readNMessages
  apply Orderly.ite (orderly_pure _)
  apply Orderly.ite (orderly_pure _)
  apply (orderly_findMessageNIndex _ _ _ _).bind
  intro position
  cases position with
  | error ret => exact orderly_pure _
  | ok found =>
      dsimp only
      cases readMessagesFromPInSector n found.startOffset found.mSector [] with
      | none => exact orderly_pure _
      | some read => exact orderly_readMessageSectors _ _ _ _

theorem orderly_databaseContactGet (phone : Option CString) (given : Bool) :
    Orderly (databaseContactGet phone given) := by
  unfold databaseContactGet
  split
  · apply (orderly_findOccupied _).bind
    intro found
    cases found with
    | error ret => exact orderly_pure _
    | ok slot =>
        apply supplies_get
        exact fun _ _ => orderly_readContact _
  · exact orderly_pure _

theorem orderly_databaseContactList (start n : Nat) (given : Bool) :
    Orderly (databaseContactList start n given) := by
  apply Orderly.ite (orderly_pure _)
  apply supplies_get
  intro db _
  apply Orderly.ite (orderly_pure _)
  generalize ([] : List Contact) = read
  induction n generalizing start read with
  | zero => exact orderly_pure _
  | succ n ih =>
      unfold listContacts
      apply supplies_get
      intro current _
      cases current.nameIndex.mem[start]? with
      | none => exact orderly_pure _
      | some entry =>
          apply supplies_get
          intro _ _
          apply (orderly_readContact _).bind
          intro answer
          cases answer with
          | error ret => exact orderly_pure _
          | ok contact => exact ih _ _

theorem orderly_databaseContactSeek (text : Option CString) (given : Bool) :
    Orderly (databaseContactSeek text given) := by
  unfold databaseContactSeek
  split
  · apply Orderly.ite (orderly_pure _)
    apply supplies_get
    intro db _
    apply (orderly_binarySearch _ _).bind
    intro searched
    cases searched <;> exact orderly_pure _
  · exact orderly_pure _

theorem orderly_databaseMessageGetChat (phone : Option CString) (start n : Nat) (given : Bool) :
    Orderly (databaseMessageGetChat phone start n given) := by
  unfold databaseMessageGetChat
  split
  · apply (orderly_findOccupied _).bind
    intro found
    cases found with
    | error ret => exact orderly_pure _
    | ok slot =>
        apply supplies_get
        exact fun _ _ => Orderly.ite (orderly_pure _) (orderly_readNMessages _ _ _)
  · exact orderly_pure _

theorem orderly_databaseChatList (start n : Nat) (given : Bool) :
    Orderly (databaseChatList start n given) := by
  apply Orderly.ite (orderly_pure _)
  apply supplies_get
  intro db _
  apply Orderly.ite (orderly_pure _)
  generalize ([] : List ChatSummary) = read
  induction n generalizing start read with
  | zero => exact orderly_pure _
  | succ n ih =>
      unfold listChats
      apply supplies_get
      intro current _
      dsimp only
      cases current.chatOrder.mem[start]? with
      | none => exact orderly_pure _
      | some slot =>
          apply supplies_get
          intro _ _
          apply (orderly_readContact _).bind
          intro answer
          cases answer with
          | error ret => exact orderly_pure _
          | ok contact =>
              apply (orderly_readNMessages _ _ _).bind
              intro latest
              obtain ⟨ret, messages⟩ := latest
              cases ret <;> first | exact ih _ _ | exact orderly_pure _

/-- Whichever writes fail, a call writes to the journal by `journal_add` and `journal_free`. -/
theorem orderly_call (call : Call) : Orderly call.run := by
  cases call with
  | contactAdd => exact (orderly_databaseContactAdd _ _).bind fun _ => orderly_pure _
  | contactGet => exact (orderly_databaseContactGet _ _).bind fun _ => orderly_pure _
  | contactUpdate => exact (orderly_databaseContactUpdate _ _ _).bind fun _ => orderly_pure _
  | contactRemove => exact (orderly_databaseContactRemove _).bind fun _ => orderly_pure _
  | contactList => exact (orderly_databaseContactList _ _ _).bind fun _ => orderly_pure _
  | contactSeek => exact (orderly_databaseContactSeek _ _).bind fun _ => orderly_pure _
  | contactCount => exact supplies_get fun _ _ => orderly_pure _
  | messageAdd => exact (orderly_databaseMessageAdd _ _ _ _).bind fun _ => orderly_pure _
  | messageGetChat => exact (orderly_databaseMessageGetChat _ _ _ _).bind fun _ => orderly_pure _
  | messageRemoveChat => exact (orderly_databaseMessageRemoveChat _).bind fun _ => orderly_pure _
  | messageRecent =>
      exact (orderly_of_reads (reads_messageRecent _ _ _)).bind fun _ => orderly_pure _
  | chatList => exact (orderly_databaseChatList _ _ _).bind fun _ => orderly_pure _
  | chatCount => exact supplies_get fun _ _ => orderly_pure _
  | callAdd => exact (orderly_databaseCallAdd _).bind fun _ => orderly_pure _
  | callRecent => exact (orderly_of_reads (reads_callRecent _ _ _)).bind fun _ => orderly_pure _

end SdDatabase
