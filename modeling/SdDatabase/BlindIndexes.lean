import SdDatabase.DamagedLookups
import SdDatabase.Database
import SdDatabase.Lib.ReadFaults

/-!
# The indexes of a mount with failing reads

Behind the two scans `database_mount` builds the chat order and the name index and finds
the histories. These programs only read, and each of them reports a read that fails.
-/

namespace SdDatabase

open Bytes Device Heapsort

set_option autoImplicit false

abbrev Reports {A : Type} : Except StrgRet A → Prop := Breaks fun ret => ret ≠ .strgOk

/-- The programs behind the scans leave the free message sectors alone. -/
abbrev FragileRead {A : Type} (refused : A → Prop) (program : DbM A) : Prop :=
  Fragile Database.messageAllocator refused program

variable {K : Type} {key : Database → K}

section Records

theorem fragile_checkUsageBit (dataSector : Nat) (refused : Bool → Prop) :
    Fragile key refused (checkUsageBit dataSector) :=
  fragile_get fun _ => fragile_pure _

theorem fragile_readSectorRaw (index : Nat) : Fragile key Reports (readSectorRaw index) := by
  unfold readSectorRaw
  apply (fragile_readBlock _).bind
  · intro answer
    cases answer <;> exact fragile_pure _
  · intro answer missing
    rw [missing]
    intro memory faults card impossible
    cases impossible

theorem fragile_readSector (index : Nat) : Fragile key Reports (readSector index) := by
  unfold readSector
  apply (fragile_readSectorRaw index).orError
  · intro answer
    cases answer with
    | error ret => exact fragile_pure _
    | ok content =>
        dsimp only
        split <;> exact fragile_pure _
  · exact fun ret bad memory faults card => bad

theorem fragile_readContact (index : Nat) : Fragile key Reports (readContact index) := by
  unfold readContact
  apply (fragile_checkUsageBit _ fun _ => False).bind
  · intro used
    refine Fragile.ite (fragile_pure _) ?_
    apply (fragile_readSector _).orError
    · intro answer
      cases answer with
      | error ret => exact fragile_pure _
      | ok content =>
          dsimp only
          split <;> exact fragile_pure _
    · exact fun ret bad memory faults card => bad
  · exact fun used impossible => impossible.elim

end Records

section ChatOrder

theorem fragile_findMessageNIndex (startMsg hopsLeft prevIndex passed : Nat) :
    Fragile key Reports (findMessageNIndex startMsg hopsLeft prevIndex passed) := by
  induction hopsLeft generalizing prevIndex passed with
  | zero => exact fragile_pure _
  | succ hopsLeft ih =>
      unfold findMessageNIndex
      refine Fragile.ite (fragile_pure _) ?_
      apply (fragile_checkUsageBit _ fun _ => False).bind
      · intro used
        refine Fragile.ite (fragile_pure _) ?_
        apply (fragile_readSector _).orError
        · intro answer
          cases answer with
          | error ret => exact fragile_pure _
          | ok content => exact Fragile.ite (ih _ _) (fragile_pure _)
        · exact fun ret bad memory faults card => bad
      · exact fun used impossible => impossible.elim

theorem fragile_readMessageSectors (n hopsLeft prevIndex : Nat) (read : List Message) :
    Fragile key (fun answer => answer.1 ≠ .strgOk) (readMessageSectors n hopsLeft prevIndex read) := by
  induction hopsLeft generalizing prevIndex read with
  | zero =>
      unfold readMessageSectors
      refine Fragile.ite (fragile_pure _) ?_
      exact Fragile.ite (fragile_pure _) (fragile_pure _)
  | succ hopsLeft ih =>
      unfold readMessageSectors
      refine Fragile.ite (fragile_pure _) ?_
      refine Fragile.ite (fragile_pure _) ?_
      apply (fragile_checkUsageBit _ fun _ => False).bind
      · intro used
        refine Fragile.ite (fragile_pure _) ?_
        apply (fragile_readSector _).orError
        · intro answer
          cases answer with
          | error ret => exact fragile_pure _
          | ok content =>
              dsimp only
              cases readMessagesFromSector n (ofSector content) read with
              | none => exact fragile_pure _
              | some longer => exact ih _ _
        · exact fun ret bad memory faults card => bad
      · exact fun used impossible => impossible.elim

theorem fragile_readNMessages (startIndex startMsg n : Nat) :
    Fragile key (fun answer => answer.1 ≠ .strgOk) (readNMessages startIndex startMsg n) := by
  unfold readNMessages
  refine Fragile.ite (fragile_pure _) ?_
  refine Fragile.ite (fragile_pure _) ?_
  apply (fragile_findMessageNIndex _ _ _ _).orError
  · intro answer
    cases answer with
    | error ret => exact fragile_pure _
    | ok found =>
        dsimp only
        cases readMessagesFromPInSector n found.startOffset found.mSector [] with
        | none => exact fragile_pure _
        | some read => exact fragile_readMessageSectors _ _ _ _
  · exact fun ret bad memory faults card => bad

theorem fragile_collectChats (count slot : Nat) (scratch : List ChatOrderScratch) :
    FragileRead Reports (collectChats count slot scratch) := by
  induction count generalizing slot scratch with
  | zero => exact fragile_pure _
  | succ count ih =>
      unfold collectChats
      apply fragile_get
      intro db
      dsimp only
      refine Fragile.ite (ih _ _) ?_
      refine Fragile.ite (fragile_pure _) ?_
      apply (fragile_readNMessages _ _ _).bind
      · rintro ⟨ret, read⟩
        cases ret with
        | strgOk => exact ih _ _
        | _ => exact fragile_pure _
      · rintro ⟨ret, read⟩ bad memory faults card
        cases ret with
        | strgOk => exact absurd rfl bad
        | _ => exact bad

end ChatOrder

section Sorting

variable {S σ A : Type} {part : σ → K} {bad : StrgRet → Prop}
  {compare : A → A → DevM S σ (Except StrgRet Int)}
  (fragile : ∀ left right, Fragile part (Breaks bad) (compare left right))

include fragile

theorem fragile_compareAt (array : List A) (i j : Nat) :
    Fragile part (Breaks bad) (compareAt compare array i j) := by
  unfold compareAt
  split
  · exact fragile _ _
  · exact fragile_pure _

theorem fragile_largerChild (bound left : Nat) (array : List A) :
    Fragile part (Breaks bad) (largerChild compare bound left array) := by
  unfold largerChild
  refine Fragile.ite ?_ (fragile_pure _)
  apply (fragile_compareAt fragile _ _ _).orError
  · intro answer
    cases answer <;> exact fragile_pure _
  · exact fun failure broken memory faults card => broken

theorem fragile_siftDown (bound fuel root : Nat) (array : List A) :
    Fragile part (Breaks bad) (siftDown compare bound fuel root array) := by
  induction fuel generalizing root array with
  | zero => exact fragile_pure _
  | succ fuel ih =>
      unfold siftDown
      refine Fragile.ite ?_ (fragile_pure _)
      apply (fragile_largerChild fragile _ _ _).orError
      · intro child
        cases child with
        | error failure => exact fragile_pure _
        | ok child =>
            apply (fragile_compareAt fragile _ _ _).orError
            · intro order
              cases order with
              | error failure => exact fragile_pure _
              | ok order => exact Fragile.ite (fragile_pure _) (ih _ _)
            · exact fun failure broken memory faults card => broken
      · exact fun failure broken memory faults card => broken

theorem fragile_buildHeap (bound root : Nat) (array : List A) :
    Fragile part (Breaks bad) (buildHeap compare bound root array) := by
  induction root generalizing array with
  | zero => exact fragile_pure _
  | succ root ih =>
      unfold buildHeap
      apply (fragile_siftDown fragile _ _ _ _).orError
      · intro sifted
        cases sifted with
        | error failure => exact fragile_pure _
        | ok sifted => exact ih _
      · exact fun failure broken memory faults card => broken

theorem fragile_drainHeap (bound : Nat) (array : List A) :
    Fragile part (Breaks bad) (drainHeap compare bound array) := by
  induction bound generalizing array with
  | zero => exact fragile_pure _
  | succ bound ih =>
      unfold drainHeap
      refine Fragile.ite (fragile_pure _) ?_
      apply (fragile_siftDown fragile _ _ _ _).orError
      · intro sifted
        cases sifted with
        | error failure => exact fragile_pure _
        | ok sifted => exact ih _
      · exact fun failure broken memory faults card => broken

theorem fragile_heapsort (array : List A) :
    Fragile part (Breaks bad) (heapsort compare array) := by
  unfold heapsort
  refine Fragile.ite (fragile_pure _) ?_
  apply (fragile_buildHeap fragile _ _ _).orError
  · intro built
    cases built with
    | error failure => exact fragile_pure _
    | ok built => exact fragile_drainHeap fragile _ _
  · exact fun failure broken memory faults card => broken

end Sorting

theorem fragile_chatOrderBuild : FragileRead (fun ret => ret ≠ .strgOk) chatOrderBuild := by
  unfold chatOrderBuild
  refine fragile_after_modify (fun _ => rfl) fun done => ?_
  apply (fragile_collectChats _ _ _).orError
  · intro scratch
    cases scratch with
    | error ret => exact fragile_pure _
    | ok scratch =>
        have sort : FragileRead Reports (chatScratchSort scratch) :=
          fragile_heapsort (fun left right => fragile_pure _) scratch
        apply sort.orError
        · intro sorted
          cases sorted with
          | error ret => exact fragile_pure _
          | ok sorted => exact fragile_after_modify (fun _ => rfl) fun done => fragile_pure _
        · exact fun ret bad memory faults card => bad
  · exact fun ret bad memory faults card => bad

section NameIndex

theorem fragile_tiebreakFn (probe : SortedArrayProbe) (entry : SortedArrayEntry) :
    Fragile key Reports (tiebreakFn probe entry) := by
  unfold tiebreakFn
  apply fragile_get
  intro db
  apply (fragile_readContact _).orError
  · intro answer
    cases answer with
    | error ret => exact fragile_pure _
    | ok contact => exact Fragile.ite (fragile_pure _) (fragile_pure _)
  · exact fun ret bad memory faults card => bad

theorem fragile_entryCmp (left right : SortedArrayEntry) :
    Fragile key Reports (entryCmp left right) := by
  unfold entryCmp
  refine Fragile.ite (fragile_pure _) ?_
  apply fragile_get
  intro db
  apply (fragile_readContact _).orError
  · intro answer
    cases answer with
    | error ret => exact fragile_pure _
    | ok contact => exact Fragile.ite (fragile_pure _) (fragile_tiebreakFn _ _)
  · exact fun ret bad memory faults card => bad

theorem fragile_appendContacts (count slot : Nat) :
    FragileRead (fun ret => ret ≠ .strgOk) (appendContacts count slot) := by
  induction count generalizing slot with
  | zero => exact fragile_pure _
  | succ count ih =>
      unfold appendContacts
      apply fragile_get
      intro db
      refine Fragile.ite (ih _) ?_
      apply (fragile_readContact _).orError
      · intro answer
        cases answer with
        | error ret => exact fragile_pure _
        | ok contact =>
            apply fragile_get
            intro db
            refine Fragile.ite (fragile_pure _) ?_
            exact fragile_after_modify (fun _ => rfl) fun done => ih _
      · exact fun ret bad memory faults card => bad

theorem fragile_sortedArrayBuild : FragileRead (fun ret => ret ≠ .strgOk) sortedArrayBuild := by
  unfold sortedArrayBuild
  refine fragile_after_modify (fun _ => rfl) fun done => ?_
  apply (fragile_appendContacts _ _).bind
  · intro ret
    refine Fragile.ite (fragile_pure _) ?_
    unfold sortedArraySort
    apply fragile_get
    intro db
    apply (fragile_heapsort fragile_entryCmp _).orError
    · intro sorted
      cases sorted with
      | error ret => exact fragile_pure _
      | ok sorted => exact fragile_after_modify (fun _ => rfl) fun done => fragile_pure _
    · exact fun ret bad memory faults card => bad
  · intro ret bad
    rw [if_pos bad]
    exact fun memory faults card => bad

end NameIndex

section Histories

theorem fragile_seqAndStateAt (rawSectorStart index : Nat) :
    FragileRead Reports (seqAndStateAt rawSectorStart index) := by
  have ring : FragileRead Reports (readRingBufferSector rawSectorStart (u16 index)) := by
    unfold readRingBufferSector
    apply (fragile_readSector _).orError
    · intro answer
      cases answer <;> exact fragile_pure _
    · exact fun ret bad memory faults card => bad
  unfold seqAndStateAt
  apply ring.orError
  · intro answer
    cases answer <;> exact fragile_pure _
  · exact fun ret bad memory faults card => bad

theorem fragile_isRingBufferWrapped (rawSectorStart head : Nat) :
    FragileRead (fun ret => ret ≠ .strgOk ∧ ret ≠ .strgEmpty)
      (isRingBufferWrapped rawSectorStart head) := by
  unfold isRingBufferWrapped
  apply (fragile_seqAndStateAt _ _).orError
  · intro answer
    cases answer with
    | error ret => exact fragile_pure _
    | ok header => exact Fragile.ite (fragile_pure _) (fragile_pure _)
  · refine fun ret bad memory faults card => ⟨?_, ?_⟩ <;> rintro ⟨⟩

theorem fragile_searchHeadLoop (rawSectorStart : Nat) (seqStart : BitVec 32) (fuel lo hi : Nat) :
    FragileRead (fun found => found = none) (searchHeadLoop rawSectorStart seqStart fuel lo hi) := by
  induction fuel generalizing lo hi with
  | zero => exact fragile_pure _
  | succ fuel ih =>
      unfold searchHeadLoop
      refine Fragile.ite ?_ (fragile_pure _)
      apply (fragile_seqAndStateAt _ _).orError
      · intro answer
        cases answer with
        | error ret => exact fragile_pure _
        | ok header => exact Fragile.ite (ih _ _) (ih _ _)
      · exact fun ret bad memory faults card => rfl

theorem fragile_binarySearchHead (rawSectorStart memSize : Nat) :
    FragileRead (Breaks fun ret => ret ≠ .strgEmpty) (binarySearchHead rawSectorStart memSize) := by
  unfold binarySearchHead
  apply (fragile_seqAndStateAt _ _).orError
  · intro answer
    cases answer with
    | error ret => exact fragile_pure _
    | ok first =>
        refine Fragile.ite (fragile_pure _) ?_
        apply (fragile_searchHeadLoop _ _ _ _ _).bind
        · intro found
          cases found with
          | none => exact fragile_pure _
          | some head =>
              apply (fragile_seqAndStateAt _ _).orError
              · intro answer
                cases answer <;> exact fragile_pure _
              · rintro ret bad memory faults card ⟨⟩
        · intro found missing
          rw [missing]
          rintro memory faults card ⟨⟩
  · rintro ret bad memory faults card ⟨⟩

theorem fragile_reconstructRingBuffer (rb : RingBuffer) (rawSectorStart : Nat) :
    FragileRead (fun found => found = none) (reconstructRingBuffer rb rawSectorStart) := by
  unfold reconstructRingBuffer
  apply (fragile_binarySearchHead _ _).orError
  · intro answer
    cases answer with
    | error ret => cases ret <;> exact fragile_pure _
    | ok found =>
        obtain ⟨head, seq⟩ := found
        refine Fragile.ite (fragile_pure _) ?_
        apply (fragile_isRingBufferWrapped _ _).bind
        · intro ret
          cases ret <;> exact fragile_pure _
        · rintro ret ⟨notOk, notEmpty⟩ memory faults card
          cases ret with
          | strgOk => exact absurd rfl notOk
          | strgEmpty => exact absurd rfl notEmpty
          | _ => rfl
  · intro ret bad memory faults card
    cases ret with
    | strgEmpty => exact absurd rfl bad
    | _ => rfl

theorem fragile_initRingBuffer (rb : RingBuffer) (size rawSectorStart : Nat) :
    FragileRead (fun found => found = none) (initRingBuffer rb size rawSectorStart) := by
  unfold initRingBuffer
  exact Fragile.ite (fragile_pure _) (fragile_reconstructRingBuffer _ _)

theorem fragile_historyInit : FragileRead (fun ret => ret ≠ .strgOk) historyInit := by
  unfold historyInit
  apply fragile_get
  intro db
  apply (fragile_initRingBuffer _ _ _).bind
  · intro messages
    cases messages with
    | none => exact fragile_pure _
    | some messages =>
        refine fragile_after_modify (fun _ => rfl) fun done => ?_
        apply fragile_get
        intro db
        apply (fragile_initRingBuffer _ _ _).bind
        · intro calls
          cases calls with
          | none => exact fragile_pure _
          | some calls => exact fragile_after_modify (fun _ => rfl) fun done => fragile_pure _
        · rintro calls rfl memory faults card ⟨⟩
  · rintro messages rfl memory faults card ⟨⟩

end Histories

/-- What `database_mount` does behind the scans. -/
def databaseIndexes : DbM StrgRet := do
  let chats ← chatOrderBuild
  if chats ≠ .strgOk then
    return chats
  let names ← sortedArrayBuild
  if names ≠ .strgOk then
    return names
  historyInit

theorem fragile_databaseIndexes : FragileRead (fun ret => ret ≠ .strgOk) databaseIndexes := by
  unfold databaseIndexes
  apply fragile_chatOrderBuild.bind
  · intro chats
    refine Fragile.ite (fragile_pure _) ?_
    apply fragile_sortedArrayBuild.bind
    · intro names
      exact Fragile.ite (fragile_pure _) fragile_historyInit
    · intro ret bad
      rw [if_pos bad]
      exact fun memory faults card => bad
  · intro ret bad
    rw [if_pos bad]
    exact fun memory faults card => bad

end SdDatabase
