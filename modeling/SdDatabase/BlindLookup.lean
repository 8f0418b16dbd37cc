import SdDatabase.ContactRebuild
import SdDatabase.Lib.DoubtfulSearch
import SdDatabase.Lib.ReadFaults
import SdDatabase.ProbeSequence

/-!
# Lookups with failing reads

`hash_find_entry` takes a contact that it cannot read for another one. In the table
that the rebuild makes, the contacts with one hash stand on their path in the order of
their slots, so the card alone says which reads a lookup makes and which one of them
decides.
-/

namespace SdDatabase

open Bytes Device OpenAddressing

set_option autoImplicit false

section Search

variable {db : Database} {card : Card Sector} {phone : Nat → Option (List Byte)}

theorem blind_readContact {slot : Nat} {record : Contact}
    (stored : storedContact db.usageBitmap card slot = some record) (fails : Nat → Bool) :
    exec (readContact slot) db (.blind fails) card =
      ((if fails 0 then .error .strgFail else .ok record, db),
        .blind fun index => fails (index + 1), card) := by
  obtain ⟨inside, used, valid, bit, content⟩ := stored_contact_some stored
  have bound : slot / 6 < 1667 := by simpa using inside
  have capacity : contactSectorCapacity = 6 := by simp
  have narrow : u16 (slot / 6) = slot / 6 := u16_of_lt (by omega)
  have block : contactBlock slot = contactRaw (slot / 6) := by
    have start : slot / 6 + contactDataStartSector + dataRegionStartSector =
        contactRaw (slot / 6) := by
      simp [contactRaw]
      omega
    have below : contactRaw (slot / 6) < 65536 := by
      unfold contactRaw
      omega
    rw [contactBlock, capacity, start, u16_of_lt below, u16_of_lt below]
  rw [exec_readContact, capacity, narrow, used, block]
  unfold Faults.blind
  dsimp only
  cases fails 0 with
  | true => rfl
  | false =>
      have parsed : parseContact slot (card (contactRaw (slot / 6))) = .ok record := by
        unfold parseContact
        rw [capacity, bit, content, if_pos rfl]
      rw [if_neg Bool.false_ne_true, guarded_answer_healthy valid, parsed]
      rfl

theorem stored_contact_used {slot : Nat} {record : Contact}
    (stored : storedContact db.usageBitmap card slot = some record) :
    usageBit db.usageBitmap (u16 (slot / contactSectorCapacity)) = true := by
  obtain ⟨inside, used, _⟩ := stored_contact_some stored
  have bound : slot / 6 < 1667 := by simpa using inside
  have capacity : contactSectorCapacity = 6 := by simp
  rw [capacity, u16_of_lt (by omega)]
  exact used

/-- The card stores a record for every number of the table. -/
def NumbersStored (db : Database) (card : Card Sector) (phone : Nat → Option (List Byte)) : Prop :=
  ∀ sector number, phone sector = some number →
    storedPhone db.usageBitmap card sector = some number

variable (holds : PhoneTable db.htable phone) (stored : NumbersStored db card phone)

include holds stored

theorem blind_probeFrom (number : List Byte) (h1 h2 count attempt : Nat) (buffer : Contact)
    (firstFree : Option Nat) (fails : Nat → Bool) :
    exec (probeFrom number (hashPhone number) h1 h2 count attempt buffer firstFree) db
        (.blind fails) card =
      (let search := doubtfulProbe hashPhone (phoneCell db.htable phone) number
        ((List.range' attempt count).map fun step => (h1 + step * h2) % db.htable.size)
        firstFree fails
       ((search.1, db), .blind fun index => fails (index + search.2), card)) := by
  induction count generalizing attempt buffer firstFree fails with
  | zero => rfl
  | succ count ih =>
      rw [probeFrom, exec_bind_of (exec_get _ _ _), List.range'_succ, List.map_cons, doubtfulProbe]
      dsimp only
      generalize (h1 + attempt * h2) % db.htable.size = index
      cases state : (db.htable.htable index).state with
      | empty =>
          simp only [phoneCell, state]
          rfl
      | deleted =>
          simp only [phoneCell, state]
          exact ih (attempt + 1) buffer _ fails
      | occupied =>
          obtain ⟨found, entry⟩ := holds.entry index state
          obtain ⟨record, place, same⟩ := stored_phone_some (stored _ _ entry.stored)
          rw [entry.cell state]
          dsimp only
          rw [entry.id]
          by_cases tag : hashPhone found = hashPhone number
          · rw [if_pos tag, if_pos tag, exec_bind_of (blind_readContact place fails)]
            cases fails 0 with
            | true =>
                have missed : ¬(true = false ∧ found = number) := by simp
                rw [if_pos rfl, if_neg missed]
                dsimp only
                rw [if_pos (Or.inl rfl)]
                exact ih (attempt + 1) buffer firstFree _
            | false =>
                rw [if_neg Bool.false_ne_true]
                dsimp only
                rw [same]
                by_cases match_ : found = number
                · rw [if_pos match_, if_pos ⟨rfl, match_⟩]
                  rfl
                · rw [if_neg match_, if_neg fun hit => match_ hit.2]
                  exact ih (attempt + 1) record firstFree _
          · rw [if_neg tag, if_neg tag]
            exact ih (attempt + 1) buffer firstFree fails

/-- A search with a healthy card reads the contacts with the hash of the number in front of its
entry, and last its own. -/
theorem trace_probeFrom {number : List Byte} {h1 h2 count attempt slot : Nat}
    {before after : List Nat} (buffer : Contact) (firstFree : Option Nat)
    (path : (List.range' attempt count).map (fun step => (h1 + step * h2) % db.htable.size) =
      before ++ slot :: after)
    (others : ∀ index ∈ before, phoneCell db.htable phone index ≠ .empty ∧
      phoneCell db.htable phone index ≠ .occupied number)
    (own : phoneCell db.htable phone slot = .occupied number) :
    readTrace (probeFrom number (hashPhone number) h1 h2 count attempt buffer firstFree) db
        (.blind fun _ => false) card =
      ((suspects hashPhone (phoneCell db.htable phone) number before ++ [slot]).map fun index =>
        contactBlock (db.htable.htable index).sector) := by
  induction count generalizing attempt buffer firstFree before with
  | zero => simp at path
  | succ count ih =>
      rw [List.range'_succ, List.map_cons] at path
      rw [probeFrom, read_trace_get]
      dsimp only
      revert path
      generalize (h1 + attempt * h2) % db.htable.size = index
      intro path
      cases before with
      | nil =>
          rw [List.nil_append, List.cons.injEq] at path
          obtain ⟨rfl, _⟩ := path
          obtain ⟨occupied, entry⟩ := holds.of_cell own
          obtain ⟨record, place, same⟩ := stored_phone_some (stored _ _ entry.stored)
          rw [occupied]
          dsimp only
          rw [if_pos entry.id, read_trace_bind_of (blind_readContact place _),
            trace_readContact (stored_contact_used place), if_neg Bool.false_ne_true]
          dsimp only
          rw [if_pos same]
          rfl
      | cons first before =>
          rw [List.cons_append, List.cons.injEq] at path
          obtain ⟨rfl, later⟩ := path
          have othersLater : ∀ index ∈ before, phoneCell db.htable phone index ≠ .empty ∧
              phoneCell db.htable phone index ≠ .occupied number :=
            fun other member => others other (List.mem_cons_of_mem _ member)
          obtain ⟨full, notOwn⟩ := others index List.mem_cons_self
          cases state : (db.htable.htable index).state with
          | empty => exact absurd (phone_cell_empty_iff.mpr state) full
          | deleted =>
              have free : suspect hashPhone number (phoneCell db.htable phone index) = false := by
                simp only [phoneCell, state]
                rfl
              rw [suspects_cons_other free]
              exact ih buffer _ later othersLater
          | occupied =>
              obtain ⟨found, entry⟩ := holds.entry index state
              obtain ⟨record, place, same⟩ := stored_phone_some (stored _ _ entry.stored)
              have different : found ≠ number := fun same => notOwn (same ▸ entry.cell state)
              dsimp only
              rw [entry.id]
              by_cases tag : hashPhone found = hashPhone number
              · have isSuspect : suspect hashPhone number (phoneCell db.htable phone index) =
                    true := by
                  rw [entry.cell state]
                  exact decide_eq_true tag
                rw [if_pos tag, suspects_cons_suspect isSuspect,
                  read_trace_bind_of (blind_readContact place _),
                  trace_readContact (stored_contact_used place), if_neg Bool.false_ne_true]
                dsimp only
                rw [same, if_neg different, ih record firstFree later othersLater]
                rfl
              · have other : suspect hashPhone number (phoneCell db.htable phone index) =
                    false := by
                  rw [entry.cell state]
                  exact decide_eq_false tag
                rw [if_neg tag, suspects_cons_other other]
                exact ih buffer firstFree later othersLater

theorem blind_hashFindEntry (small : db.htable.size < 65536) (number : List Byte)
    (fails : Nat → Bool) :
    exec (hashFindEntry number) db (.blind fails) card =
      (let search := doubtfulProbe hashPhone (phoneCell db.htable phone) number
        (phonePath db.htable.size number) none fails
       ((search.1, db), .blind fun index => fails (index + search.2), card)) := by
  rw [hashFindEntry, exec_bind_of (exec_get _ _ _)]
  dsimp only
  rw [u16_of_lt small, blind_probeFrom holds stored, ← List.range_eq_range']
  rfl

end Search

def sameHash (phone : Nat → Option (List Byte)) (hash slot : Nat) : Bool :=
  decide ((phone slot).map hashPhone = some hash)

/-- The number of contacts with this hash in the slots before this one. -/
def earlierContacts (phone : Nat → Option (List Byte)) (hash slot : Nat) : Nat :=
  (List.range slot).countP (sameHash phone hash)

/-- The number of contacts with this hash in the slots behind this one. -/
def laterContacts (phone : Nat → Option (List Byte)) (hash slot limit : Nat) : Nat :=
  (List.range' (slot + 1) (limit - (slot + 1))).countP (sameHash phone hash)

/-- A table without tombstones that knows the numbers of the slots below `count` and has those
of one hash on their path in the order of the slots. -/
structure SlotOrder (table : HashTable) (phone : Nat → Option (List Byte)) (count : Nat) : Prop
    where
  size : table.size = hashTableSize
  numbers : PhoneTable table (phonesBelow count phone)
  undeleted : ∀ slot, (table.htable slot).state ≠ .deleted
  chain : ∀ number, (suspects hashPhone (phoneCell table (phonesBelow count phone)) number
      (phonePath table.size number)).map (fun slot => (table.htable slot).sector) =
    (List.range count).filter (sameHash phone (hashPhone number))

theorem range_split {slot count : Nat} (below : slot < count) :
    List.range count = List.range slot ++ slot :: List.range' (slot + 1) (count - (slot + 1)) := by
  have split := @List.range'_append_1 0 slot (count - slot)
  rw [Nat.zero_add, Nat.add_sub_cancel' (Nat.le_of_lt below), ← List.range_eq_range',
    ← List.range_eq_range', show count - slot = count - (slot + 1) + 1 by omega,
    List.range'_succ] at split
  exact split.symm

section Paths

variable {table : HashTable} {phone : Nat → Option (List Byte)}

theorem phone_path_nodup {size : Nat} (prime : size.Prime) (number : List Byte) :
    (phonePath size number).Nodup :=
  (probe_slots_perm prime (hashPhone number)).nodup_iff.mpr List.nodup_range

theorem phone_path_congr (size : Nat) {first second : List Byte}
    (same : hashPhone first = hashPhone second) : phonePath size first = phonePath size second := by
  unfold phonePath
  rw [same]

theorem PhoneTable.suspect_reached (holds : PhoneTable table phone) (number : List Byte)
    {index : Nat} (same : suspect hashPhone number (phoneCell table phone index) = true) :
    Reaches (phoneCell table phone) (phonePath table.size number) index := by
  cases content : phoneCell table phone index with
  | empty =>
      rw [content] at same
      cases same
  | deleted =>
      rw [content] at same
      cases same
  | occupied found =>
      rw [content] at same
      rw [← phone_path_congr table.size (of_decide_eq_true same)]
      exact (holds.of_cell content).2.reaches

end Paths

section Changes

variable {table : HashTable} {phone : Nat → Option (List Byte)} {count : Nat}

theorem slot_order_start (phone : Nat → Option (List Byte)) :
    SlotOrder (hashInit hashTableSize) phone 0 where
  size := rfl
  numbers :=
    { inside := fun slot full => absurd rfl full
      entry := fun slot occupied => by cases occupied
      placed := fun sector given => absurd (if_neg (Nat.not_lt_zero sector)) given
      separate := fun first second occupied => by cases occupied }
  undeleted slot deleted := by cases deleted
  chain number := by
    have none_ : suspects hashPhone (phoneCell (hashInit hashTableSize) (phonesBelow 0 phone))
        number (phonePath hashTableSize number) = [] := by
      apply List.filter_eq_nil_iff.mpr
      intro index _ same
      cases same
    rw [show (hashInit hashTableSize).size = hashTableSize from rfl, none_]
    rfl

section Unstored

variable {limit : Nat} (further : count ≤ limit)
  (nothing : ∀ slot, count ≤ slot → slot < limit → phone slot = none)

include further nothing

theorem same_hash_unstored (hash : Nat) :
    (List.range limit).filter (sameHash phone hash) =
      (List.range count).filter (sameHash phone hash) := by
  obtain ⟨more, rfl⟩ := Nat.exists_eq_add_of_le further
  have none_ : (List.range' count more).filter (sameHash phone hash) = [] := by
    apply List.filter_eq_nil_iff.mpr
    intro slot member given
    have bounds := List.mem_range'_1.mp member
    rw [sameHash, nothing slot bounds.1 bounds.2] at given
    cases given
  have split := @List.range'_append_1 0 count more
  rw [Nat.zero_add] at split
  rw [List.range_eq_range', List.range_eq_range', ← split, List.filter_append, none_,
    List.append_nil]

theorem slot_order_unstored : SlotOrder table phone limit ↔ SlotOrder table phone count := by
  have below := phones_below_none further nothing
  constructor
  · intro order
    refine ⟨order.size, by rw [← below]; exact order.numbers, order.undeleted, fun number => ?_⟩
    rw [← below, order.chain, same_hash_unstored further nothing]
  · intro order
    refine ⟨order.size, by rw [below]; exact order.numbers, order.undeleted, fun number => ?_⟩
    rw [below, order.chain, same_hash_unstored further nothing]

end Unstored

theorem SlotOrder.congr {next : HashTable} (order : SlotOrder table phone count)
    (size : next.size = table.size)
    (state : ∀ slot, (next.htable slot).state = (table.htable slot).state)
    (id_ : ∀ slot, (next.htable slot).id = (table.htable slot).id)
    (place : ∀ slot, (next.htable slot).sector = (table.htable slot).sector) :
    SlotOrder next phone count := by
  have cells : phoneCell next (phonesBelow count phone) =
      phoneCell table (phonesBelow count phone) := by
    funext slot
    unfold phoneCell
    rw [state, place]
  have holds := order.numbers
  refine ⟨size.trans order.size, ⟨?_, ?_, ?_, ?_⟩, ?_, fun number => ?_⟩
  · intro slot full
    rw [state] at full
    rw [size]
    exact holds.inside slot full
  · intro slot occupied
    rw [state] at occupied
    obtain ⟨number, entry⟩ := holds.entry slot occupied
    refine ⟨number, by rw [place, entry.stored], by rw [id_, entry.id], ?_⟩
    rw [cells, size]
    exact entry.reaches
  · intro sector given
    obtain ⟨slot, occupied, isSector⟩ := holds.placed sector given
    exact ⟨slot, (state slot).trans occupied, (place slot).trans isSector⟩
  · intro first second firstOccupied secondOccupied same
    rw [state] at firstOccupied secondOccupied
    rw [place, place] at same
    exact holds.separate first second firstOccupied secondOccupied same
  · intro slot
    rw [state]
    exact order.undeleted slot
  · have sectors : (fun slot => (next.htable slot).sector) =
        fun slot => (table.htable slot).sector := funext place
    rw [cells, size, sectors]
    exact order.chain number

/-- The contact of the next slot goes to the first empty entry of its path. -/
theorem SlotOrder.insert (order : SlotOrder table phone count) {slot : Nat} {number : List Byte}
    (next : phone count = some number) (bound : slot < hashTableSize)
    (empty : (table.htable slot).state = .empty)
    (reaches : Reaches (phoneCell table (phonesBelow count phone)) (phonePath table.size number)
      slot) (elems : Nat) :
    SlotOrder
      { table.setEntry slot (occupiedEntry (hashPhone number) count) with numElems := elems }
      phone (count + 1) := by
  have size := order.size
  have fresh : phonesBelow count phone count = none := if_neg (lt_irrefl _)
  have inserted := order.numbers.insert number (by rwa [size]) (by rw [empty]; simp) reaches fresh
    elems
  rw [← phones_below_some next] at inserted
  have other : ∀ index, index ≠ slot → Function.update table.htable slot
      (occupiedEntry (hashPhone number) count) index = table.htable index :=
    fun index different => Function.update_of_ne different _ _
  have filled : phoneCell
      { table.setEntry slot (occupiedEntry (hashPhone number) count) with numElems := elems }
      (phonesBelow (count + 1) phone) slot = .occupied number := by
    unfold phoneCell HashTable.setEntry
    dsimp only
    rw [Function.update_self]
    dsimp only [occupiedEntry]
    rw [phones_below_some next, Function.update_self]
    rfl
  have kept : ∀ index, index ≠ slot → phoneCell
      { table.setEntry slot (occupiedEntry (hashPhone number) count) with numElems := elems }
      (phonesBelow (count + 1) phone) index = phoneCell table (phonesBelow count phone) index := by
    intro index different
    unfold phoneCell HashTable.setEntry
    dsimp only
    rw [other index different]
    cases state : (table.htable index).state with
    | empty => rfl
    | deleted => rfl
    | occupied =>
        obtain ⟨found, entry⟩ := order.numbers.entry index state
        have apart : (table.htable index).sector ≠ count :=
          Nat.ne_of_lt (phones_below_part entry.stored).1
        dsimp only
        rw [phones_below_some next, Function.update_of_ne apart]
  have cell : phoneCell table (phonesBelow count phone) slot = .empty :=
    phone_cell_empty_iff.mpr empty
  refine ⟨size, inserted, ?_, fun key => ?_⟩
  · intro index deleted
    unfold HashTable.setEntry at deleted
    dsimp only at deleted
    by_cases same : index = slot
    · rw [same, Function.update_self] at deleted
      cases deleted
    · rw [other index same] at deleted
      exact order.undeleted index deleted
  · have chain := order.chain key
    have sectors : ∀ slots : List Nat, slot ∉ slots →
        slots.map (fun index => (Function.update table.htable slot
          (occupiedEntry (hashPhone number) count) index).sector) =
        slots.map fun index => (table.htable index).sector := by
      intro slots absent
      apply List.map_congr_left
      intro index member
      rw [other index fun same => absent (by rwa [← same])]
    have notSuspect : slot ∉ suspects hashPhone (phoneCell table (phonesBelow count phone)) key
        (phonePath table.size key) := by
      intro member
      exact suspect_full (List.mem_filter.mp member).2 cell
    rw [List.range_succ, List.filter_append]
    by_cases same : hashPhone number = hashPhone key
    · have isNext : sameHash phone (hashPhone key) count = true := by
        unfold sameHash
        rw [next, Option.map_some, same]
        exact decide_eq_true rfl
      obtain ⟨before, after, split, _⟩ := reaches
      rw [phone_path_congr table.size same] at split
      have nodup := phone_path_nodup (by rw [size]; exact table_size_prime : table.size.Prime) key
      have added := fun reached => @suspects_insert _ _ _ hashPhone
        (phoneCell table (phonesBelow count phone)) key _ number slot before after
        (by rwa [← split]) cell filled kept same reached
      rw [← split] at added
      unfold HashTable.setEntry at added ⊢
      dsimp only at added ⊢
      rw [added fun index isSuspect => order.numbers.suspect_reached key isSuspect,
        List.map_append, sectors _ notSuspect, chain, List.filter_cons_of_pos isNext]
      simp [occupiedEntry]
    · have notNext : sameHash phone (hashPhone key) count = false := by
        unfold sameHash
        rw [next, Option.map_some]
        exact decide_eq_false fun equal => same (Option.some.inj equal)
      have free : (phoneCell table (phonesBelow count phone) slot).IsFree := by
        rw [cell]
        exact trivial
      have unchanged := @suspects_insert_other _ _ _ hashPhone
        (phoneCell table (phonesBelow count phone)) key _ number slot free filled kept same
        (phonePath table.size key)
      unfold HashTable.setEntry at unchanged ⊢
      dsimp only at unchanged ⊢
      rw [unchanged, sectors _ notSuspect, chain]
      simp [notNext]

end Changes

section Lookups

variable {db : Database} {card : Card Sector} {phone : Nat → Option (List Byte)} {count : Nat}
  (order : SlotOrder db.htable phone count)
  (few : ∀ sector, phonesBelow count phone sector ≠ none → sector < hashTableEntries)

include order few

theorem SlotOrder.first_empty (number : List Byte) :
    ∃ before free after, phonePath db.htable.size number = before ++ free :: after ∧
      (∀ index ∈ before, ∃ found,
        phoneCell db.htable (phonesBelow count phone) index = .occupied found) ∧
      phoneCell db.htable (phonesBelow count phone) free = .empty ∧
      suspects hashPhone (phoneCell db.htable (phonesBelow count phone)) number
          (phonePath db.htable.size number) =
        suspects hashPhone (phoneCell db.htable (phonesBelow count phone)) number before := by
  have size := order.size
  have prime : db.htable.size.Prime := by
    rw [size]
    exact table_size_prime
  obtain ⟨free, inside, isFree⟩ := order.numbers.room (by rw [size]; decide) few
  have empty : phoneCell db.htable (phonesBelow count phone) free = .empty := by
    rw [phone_cell_free_iff] at isFree
    rw [phone_cell_empty_iff]
    cases state : (db.htable.htable free).state with
    | empty => rfl
    | deleted => exact absurd state (order.undeleted free)
    | occupied => exact absurd state isFree
  obtain ⟨before, first, after, split, full, firstEmpty⟩ :=
    exists_first_empty ⟨free, mem_phonePath prime number inside, empty⟩
  refine ⟨before, first, after, split, ?_, firstEmpty, ?_⟩
  · intro index member
    have notEmpty := full index member
    cases content : phoneCell db.htable (phonesBelow count phone) index with
    | empty => exact absurd content notEmpty
    | deleted =>
        exfalso
        unfold phoneCell at content
        cases state : (db.htable.htable index).state with
        | empty => simp [state] at content
        | deleted => exact order.undeleted index state
        | occupied => simp [state] at content
    | occupied found => exact ⟨found, rfl⟩
  · have nodup := phone_path_nodup prime number
    rw [split] at nodup ⊢
    apply suspects_behind nodup firstEmpty
    intro index same
    rw [← split]
    exact order.numbers.suspect_reached number same

variable (stored : NumbersStored db card (phonesBelow count phone))

include stored

/-- The lookup of a new number reads the contacts with its hash, whether they can be read or
not. -/
theorem SlotOrder.find_absent {number : List Byte}
    (absent : ∀ sector, phonesBelow count phone sector ≠ some number) :
    ∃ free < hashTableSize, (db.htable.htable free).state = .empty ∧
      Reaches (phoneCell db.htable (phonesBelow count phone)) (phonePath db.htable.size number)
        free ∧
      ∀ fails, exec (hashFindEntry number) db (.blind fails) card =
        ((some free, db), .blind fun index =>
          fails (index + earlierContacts phone (hashPhone number) count), card) := by
  have size := order.size
  obtain ⟨before, free, after, split, full, empty, all⟩ := order.first_empty few number
  have length : (suspects hashPhone (phoneCell db.htable (phonesBelow count phone)) number
      before).length = earlierContacts phone (hashPhone number) count := by
    have chain := congrArg List.length (order.chain number)
    rw [List.length_map, all, ← List.countP_eq_length_filter] at chain
    exact chain
  have reaches : Reaches (phoneCell db.htable (phonesBelow count phone))
      (phonePath db.htable.size number) free := by
    refine ⟨before, after, split, fun index member isEmpty => ?_⟩
    obtain ⟨found, content⟩ := full index member
    rw [content] at isEmpty
    cases isEmpty
  have inside := double_hash_path_lt reaches.mem
  rw [size] at inside
  refine ⟨free, inside, phone_cell_empty_iff.mp empty, reaches, fun fails => ?_⟩
  have others : ∀ index ∈ before, ∃ found,
      phoneCell db.htable (phonesBelow count phone) index = .occupied found ∧ found ≠ number := by
    intro index member
    obtain ⟨found, content⟩ := full index member
    refine ⟨found, content, ?_⟩
    rintro rfl
    exact order.numbers.absent_cell absent index content
  rw [blind_hashFindEntry order.numbers stored (by rw [size]; decide), split,
    doubtful_absent _ others empty, length]

/-- The lookup of a known number reads the contacts with its hash in the order of their slots.
Only a failure of the last of these reads, that of its own contact, does any harm. -/
theorem SlotOrder.find_present (distinct : PhonesDistinct (phonesBelow count phone)) {slot : Nat}
    {number : List Byte} (occupied : (db.htable.htable slot).state = .occupied)
    (known : phonesBelow count phone (db.htable.htable slot).sector = some number) :
    ∃ free, (db.htable.htable free).state ≠ .occupied ∧
      ∀ fails, exec (hashFindEntry number) db (.blind fails) card =
        (let earlier := earlierContacts phone (hashPhone number) (db.htable.htable slot).sector
         let later := laterContacts phone (hashPhone number) (db.htable.htable slot).sector count
         if fails earlier = false then
           ((some slot, db), .blind fun index => fails (index + (earlier + 1)), card)
         else ((some free, db), .blind fun index => fails (index + (earlier + 1 + later)),
           card)) := by
  have size := order.size
  obtain ⟨before, free, after, split, full, empty, all⟩ := order.first_empty few number
  obtain ⟨found, entry⟩ := order.numbers.entry slot occupied
  have same : found = number := Option.some_injective _ (entry.stored.symm.trans known)
  rw [same] at entry
  have own := entry.cell occupied
  have isSuspect : suspect hashPhone number
      (phoneCell db.htable (phonesBelow count phone) slot) = true := by
    rw [own]
    exact decide_eq_true rfl
  have inBefore : slot ∈ before := by
    have member : slot ∈ suspects hashPhone (phoneCell db.htable (phonesBelow count phone)) number
        (phonePath db.htable.size number) := List.mem_filter.mpr ⟨entry.reaches.mem, isSuspect⟩
    rw [all] at member
    exact (List.mem_filter.mp member).1
  obtain ⟨early, late, parts⟩ := List.append_of_mem inBefore
  have chain := order.chain number
  rw [all, parts, suspects_append, suspects_cons_suspect isSuspect, List.map_append,
    List.map_cons] at chain
  have below : (db.htable.htable slot).sector < count := (phones_below_part known).1
  have hashed : sameHash phone (hashPhone number) (db.htable.htable slot).sector = true := by
    unfold sameHash
    rw [(phones_below_part known).2]
    exact decide_eq_true rfl
  rw [range_split below, List.filter_append, List.filter_cons_of_pos hashed] at chain
  have notEarlier : (db.htable.htable slot).sector ∉
      (List.range (db.htable.htable slot).sector).filter (sameHash phone (hashPhone number)) :=
    fun member => lt_irrefl _ (List.mem_range.mp (List.mem_filter.mp member).1)
  have notLater : (db.htable.htable slot).sector ∉
      (List.range' ((db.htable.htable slot).sector + 1)
        (count - ((db.htable.htable slot).sector + 1))).filter
          (sameHash phone (hashPhone number)) := by
    intro member
    have above := List.mem_range'_1.mp (List.mem_filter.mp member).1
    omega
  obtain ⟨earlierIs, _, laterIs⟩ :=
    (List.append_cons_inj_of_notMem notEarlier notLater).mp chain.symm
  have earlierLength := congrArg List.length earlierIs.symm
  have laterLength := congrArg List.length laterIs.symm
  rw [List.length_map, ← List.countP_eq_length_filter] at earlierLength laterLength
  refine ⟨free, ?_, fun fails => ?_⟩
  · rw [phone_cell_empty_iff] at empty
    rw [empty]
    simp
  · have others : ∀ index ∈ early ++ late, ∃ found,
        phoneCell db.htable (phonesBelow count phone) index = .occupied found ∧
          found ≠ number := by
      intro index member
      have inPath : index ∈ before := by
        rw [parts]
        rcases List.mem_append.mp member with first | second
        · exact List.mem_append_left _ first
        · exact List.mem_append_right _ (List.mem_cons_of_mem slot second)
      obtain ⟨found, content⟩ := full index inPath
      refine ⟨found, content, ?_⟩
      rintro rfl
      have isSlot := order.numbers.unique distinct own content
      have nodup := phone_path_nodup (by rw [size]; exact table_size_prime :
        db.htable.size.Prime) found
      rw [split, parts, List.append_assoc] at nodup
      rw [isSlot] at member
      have pieces := List.nodup_append.mp nodup
      rcases List.mem_append.mp member with first | second
      · exact pieces.2.2 slot first slot (by simp) rfl
      · exact (List.nodup_cons.mp pieces.2.1).1 (List.mem_append_left _ second)
    rw [blind_hashFindEntry order.numbers stored (by rw [size]; decide), split, parts,
      List.append_assoc, List.cons_append, doubtful_present _ others own empty, earlierLength,
      laterLength]
    dsimp only [earlierContacts, laterContacts]
    split <;> rfl

end Lookups

end SdDatabase
