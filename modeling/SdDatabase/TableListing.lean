import SdDatabase.ChatSort
import SdDatabase.ContactRecords
import SdDatabase.Lib.Cursor

/-!
# Listings in slot order

The iterator of `hash_table.c` over the occupied slots of the entry array, and the
contact and message lists that are read along it.
-/

namespace SdDatabase

open Bytes Device Cursor

set_option autoImplicit false

/-- The loop of `hash_table_iterator_next` over `count` slots from `slot` on. -/
def nextOccupiedFrom (table : HashTable) : Nat → Nat → Option Nat
  | 0, _ => none
  | count + 1, slot =>
      if (table.htable slot).state = .occupied then some slot
      else nextOccupiedFrom table count (slot + 1)

/-- The loop of `hash_table_iterator_prev` from `slot` down to the first slot. -/
def prevOccupiedFrom (table : HashTable) : Nat → Option Nat
  | 0 => if (table.htable 0).state = .occupied then some 0 else none
  | slot + 1 =>
      if (table.htable (slot + 1)).state = .occupied then some (slot + 1)
      else prevOccupiedFrom table slot

/-- `HashTableIteratorCtx`, the table apart; `hash_table_iterator_init` puts the marker there. -/
structure HashTableIterator where
  current : Nat

def hashTableIteratorInit : HashTableIterator := ⟨uint16Max⟩

def hashTableIteratorGet (it : HashTableIterator) : Option Nat :=
  if it.current = uint16Max then none else some it.current

def hashTableIteratorNext (table : HashTable) (it : HashTableIterator) :
    Bool × HashTableIterator :=
  if table.size = 0 then (false, ⟨uint16Max⟩)
  else
    let start := if it.current = uint16Max then 0 else it.current + 1
    match nextOccupiedFrom table (table.size - start) start with
    | some slot => (true, ⟨u16 slot⟩)
    | none => (false, ⟨uint16Max⟩)

def hashTableIteratorPrev (table : HashTable) (it : HashTableIterator) :
    Bool × HashTableIterator :=
  if table.size = 0 then (false, ⟨uint16Max⟩)
  else if it.current = 0 then (false, ⟨uint16Max⟩)
  else
    let start := if it.current = uint16Max then table.size - 1 else it.current - 1
    match prevOccupiedFrom table start with
    | some slot => (true, ⟨u16 slot⟩)
    | none => (false, ⟨uint16Max⟩)

/-- The loop of `hash_get_contact_list`; one round for every slot at most. -/
def listContactSlots (start n : Nat) :
    Nat → HashTableIterator → Nat → List Contact → DbM (StrgRet × List Contact)
  | 0, _, _, read => return (.strgOk, read)
  | fuel + 1, it, skipped, read => do
      if n ≤ read.length then
        return (.strgOk, read)
      let table := (← get).htable
      let (more, it) := hashTableIteratorNext table it
      if !more then
        return (.strgOk, read)
      if skipped < start then
        listContactSlots start n fuel it (skipped + 1) read
      else
        match hashTableIteratorGet it with
        | none => return (.strgFail, read)
        | some slot =>
            match ← readContact (table.htable slot).sector with
            | .error ret => return (ret, read)
            | .ok contact => listContactSlots start n fuel it skipped (read ++ [contact])

/-- `out` tells whether the pointers are non-null; `out_count` is the length of the list. -/
def hashGetContactList (start n : Int) (out : Bool) : DbM (StrgRet × List Contact) := do
  if !out ∨ start < 0 ∨ n < 0 then
    return (.strgFail, [])
  listContactSlots start.toNat n.toNat ((← get).htable.size + 1) hashTableIteratorInit 0 []

/-- The loop of `hash_get_message_list`; one round for every slot at most. -/
def listMessageSlots (start n : Nat) :
    Nat → HashTableIterator → Nat → List Message → DbM (StrgRet × List Message)
  | 0, _, _, read => return (.strgOk, read)
  | fuel + 1, it, skipped, read => do
      if n ≤ read.length then
        return (.strgOk, read)
      let table := (← get).htable
      let (more, it) := hashTableIteratorNext table it
      if !more then
        return (.strgOk, read)
      match hashTableIteratorGet it with
      | none => return (.strgFail, read)
      | some slot =>
          let latest := (table.htable slot).latestMsgExtent
          -- contacts without a chat do not count
          if latest = uint16Max then
            listMessageSlots start n fuel it skipped read
          else if skipped < start then
            listMessageSlots start n fuel it (skipped + 1) read
          else
            match ← readMessage latest 0 with
            | .error ret => return (ret, read)
            | .ok message => listMessageSlots start n fuel it skipped (read ++ [message])

def hashGetMessageList (start n : Int) (out : Bool) : DbM (StrgRet × List Message) := do
  if !out ∨ start < 0 ∨ n < 0 then
    return (.strgFail, [])
  listMessageSlots start.toNat n.toNat ((← get).htable.size + 1) hashTableIteratorInit 0 []

def slotOccupied (table : HashTable) (slot : Nat) : Bool :=
  decide ((table.htable slot).state = .occupied)

def occupiedSlots (table : HashTable) : List Nat := places (slotOccupied table) table.size

def slotChats (table : HashTable) (slot : Nat) : Bool :=
  decide ((table.htable slot).latestMsgExtent ≠ uint16Max)

def chatSlots (table : HashTable) : List Nat := (occupiedSlots table).filter (slotChats table)

/-- What `count` moves of an iterator answer, with the slots it then stands on. -/
def hashTableReadings (move : HashTableIterator → Bool × HashTableIterator) :
    Nat → HashTableIterator → List (Option Nat)
  | 0, _ => []
  | count + 1, it =>
      let (more, moved) := move it
      (if more then hashTableIteratorGet moved else none) :: hashTableReadings move count moved

section Iterator

variable {table : HashTable}

theorem next_occupied_head (count slot : Nat) :
    nextOccupiedFrom table count slot =
      (upward (slotOccupied table) (slot + count) slot).head? := by
  induction count generalizing slot with
  | zero => rw [Nat.add_zero, upward_past (le_refl slot)]; rfl
  | succ count ih =>
      have shifted : slot + (count + 1) = slot + 1 + count := by omega
      rw [nextOccupiedFrom, upward_step (by omega), ih, shifted, slotOccupied]
      by_cases occupied : (table.htable slot).state = .occupied
      · rw [if_pos occupied, if_pos (decide_eq_true occupied)]
        rfl
      · rw [if_neg occupied, decide_eq_false occupied]
        rfl

theorem prev_occupied_head (slot : Nat) :
    prevOccupiedFrom table slot = (downward (slotOccupied table) (slot + 1)).head? := by
  induction slot with
  | zero =>
      rw [prevOccupiedFrom, downward_step, slotOccupied]
      by_cases occupied : (table.htable 0).state = .occupied
      · rw [if_pos occupied, if_pos (decide_eq_true occupied)]
        rfl
      · rw [if_neg occupied, decide_eq_false occupied]
        rfl
  | succ slot ih =>
      rw [prevOccupiedFrom, downward_step, slotOccupied, ih]
      by_cases occupied : (table.htable (slot + 1)).state = .occupied
      · rw [if_pos occupied, if_pos (decide_eq_true occupied)]
        rfl
      · rw [if_neg occupied, decide_eq_false occupied]
        rfl

/-- The iterator that stands on a place, or nowhere. -/
def iteratorAt (place : Option Nat) : HashTableIterator := ⟨place.getD uint16Max⟩

theorem iterator_at_get {place : Option Nat} (small : table.size ≤ uint16Max)
    (inside : ∀ slot ∈ place, slot < table.size) :
    hashTableIteratorGet (iteratorAt place) = place := by
  cases place with
  | none => exact if_pos rfl
  | some slot =>
      have below := inside slot rfl
      have other : slot ≠ uint16Max := by omega
      exact if_neg other

theorem next_place_inside {place : Option Nat} :
    ∀ slot ∈ next (slotOccupied table) table.size place, slot < table.size := by
  intro slot found
  obtain ⟨rest, ahead⟩ := List.head?_eq_some_iff.mp found
  exact (upward_cons ahead).2.1

theorem prev_place_inside {place : Option Nat} (inside : ∀ slot ∈ place, slot < table.size) :
    ∀ slot ∈ prev (slotOccupied table) table.size place, slot < table.size := by
  intro slot found
  obtain ⟨rest, ahead⟩ := List.head?_eq_some_iff.mp found
  have below := (downward_cons ahead).1
  cases place with
  | none => exact below
  | some limit => exact lt_trans below (inside limit rfl)

theorem hash_table_iterator_next_run (small : table.size ≤ uint16Max) {place : Option Nat}
    (inside : ∀ slot ∈ place, slot < table.size) :
    hashTableIteratorNext table (iteratorAt place) =
      ((next (slotOccupied table) table.size place).isSome,
        iteratorAt (next (slotOccupied table) table.size place)) := by
  have below := @next_place_inside table place
  unfold hashTableIteratorNext
  by_cases empty : table.size = 0
  · have nothing : next (slotOccupied table) table.size place = none := by
      rw [next, empty, upward_past (Nat.zero_le _)]
      rfl
    rw [if_pos empty, nothing]
    rfl
  · have start : (if (iteratorAt place).current = uint16Max then 0
        else (iteratorAt place).current + 1) = following place := by
      cases place with
      | none => exact if_pos rfl
      | some slot =>
          have other : slot ≠ uint16Max := by
            have := inside slot rfl
            omega
          exact if_neg other
    have order : following place ≤ table.size := by
      cases place with
      | none => exact Nat.zero_le _
      | some slot => exact inside slot rfl
    have found : nextOccupiedFrom table (table.size - following place) (following place) =
        next (slotOccupied table) table.size place := by
      rw [next_occupied_head, next, Nat.add_sub_of_le order]
    rw [if_neg empty, start]
    dsimp only
    rw [found]
    cases known : next (slotOccupied table) table.size place with
    | none => rfl
    | some slot =>
        have narrow : u16 slot = slot := by
          apply u16_of_lt
          have := below slot known
          simp at small
          omega
        dsimp only
        rw [narrow]
        rfl

theorem hash_table_iterator_prev_run (small : table.size ≤ uint16Max) {place : Option Nat}
    (inside : ∀ slot ∈ place, slot < table.size) :
    hashTableIteratorPrev table (iteratorAt place) =
      ((prev (slotOccupied table) table.size place).isSome,
        iteratorAt (prev (slotOccupied table) table.size place)) := by
  have below := prev_place_inside inside
  unfold hashTableIteratorPrev
  by_cases empty : table.size = 0
  · have nothing : prev (slotOccupied table) table.size place = none := by
      cases place with
      | none => rw [prev, empty]; rfl
      | some slot =>
          have := inside slot rfl
          omega
    rw [if_pos empty, nothing]
    rfl
  · rw [if_neg empty]
    by_cases first : (iteratorAt place).current = 0
    · have place0 : place = some 0 := by
        cases place with
        | none => exact absurd first (by decide)
        | some slot => exact congrArg some first
      rw [if_pos first, place0]
      rfl
    · rw [if_neg first]
      have limit : (if (iteratorAt place).current = uint16Max then table.size - 1
          else (iteratorAt place).current - 1) + 1 = preceding table.size place := by
        cases place with
        | none =>
            change (if uint16Max = uint16Max then table.size - 1 else _) + 1 = table.size
            rw [if_pos rfl]
            omega
        | some slot =>
            have other : slot ≠ uint16Max := by
              have := inside slot rfl
              omega
            change slot ≠ 0 at first
            change (if slot = uint16Max then _ else slot - 1) + 1 = slot
            rw [if_neg other]
            omega
      have found (start : Nat) (limited : start + 1 = preceding table.size place) :
          prevOccupiedFrom table start = prev (slotOccupied table) table.size place := by
        rw [prev_occupied_head, limited]
        rfl
      dsimp only
      rw [found _ limit]
      cases known : prev (slotOccupied table) table.size place with
      | none => rfl
      | some slot =>
          have narrow : u16 slot = slot := by
            apply u16_of_lt
            have := below slot known
            simp at small
            omega
          dsimp only
          rw [narrow]
          rfl

end Iterator

section Lists

variable {db : Database} {card : Card Sector}

variable (small : db.htable.size ≤ uint16Max)
include small

theorem list_contact_slots_run {record : Nat → Contact}
    (readable : ∀ slot ∈ occupiedSlots db.htable,
      storedContact db.usageBitmap card (db.htable.htable slot).sector = some (record slot))
    {start n fuel skipped : Nat} {place : Option Nat} {ahead : List Nat} {read : List Contact}
    (inside : ∀ slot ∈ place, slot < db.htable.size)
    (remaining : upward (slotOccupied db.htable) db.htable.size (following place) = ahead)
    (enough : ahead.length < fuel) (short : read.length ≤ n) (order : skipped ≤ start) :
    out (listContactSlots start n fuel (iteratorAt place) skipped read) db card =
      (((.strgOk, read ++ ((ahead.drop (start - skipped)).take (n - read.length)).map record),
        db), []) := by
  induction ahead generalizing fuel skipped place read with
  | nil =>
      obtain ⟨fuel, rfl⟩ := Nat.exists_eq_succ_of_ne_zero (Nat.ne_of_gt enough)
      have stop : next (slotOccupied db.htable) db.htable.size place = none := by
        rw [next, remaining, List.head?_nil]
      have move := hash_table_iterator_next_run small inside
      rw [stop] at move
      rw [List.drop_nil, List.take_nil, List.map_nil, List.append_nil]
      unfold listContactSlots
      by_cases done : n ≤ read.length
      · rw [if_pos done]
        rfl
      · rw [if_neg done, out_bind_of (out_get _ _), apply_writes_nil, List.nil_append]
        dsimp only
        rw [move]
        rfl
  | cons slot rest ih =>
      obtain ⟨fuel, rfl⟩ := Nat.exists_eq_succ_of_ne_zero (Nat.ne_of_gt (Nat.zero_lt_of_lt enough))
      obtain ⟨_, below, occupied, _, tail⟩ := upward_cons remaining
      have found : next (slotOccupied db.htable) db.htable.size place = some slot := by
        rw [next, remaining, List.head?_cons]
      have move := hash_table_iterator_next_run small inside
      rw [found] at move
      have further : ∀ other ∈ some slot, other < db.htable.size := by
        intro other same
        rw [← Option.some.inj same]
        exact below
      have get := iterator_at_get small further
      rw [List.length_cons] at enough
      unfold listContactSlots
      by_cases done : n ≤ read.length
      · rw [if_pos done, Nat.sub_eq_zero_of_le done, List.take_zero, List.map_nil,
          List.append_nil]
        rfl
      · rw [if_neg done, out_bind_of (out_get _ _), apply_writes_nil, List.nil_append]
        dsimp only
        rw [move]
        dsimp only
        rw [Option.isSome_some, Bool.not_true, if_neg Bool.false_ne_true]
        by_cases skips : skipped < start
        · have shift : start - skipped = start - (skipped + 1) + 1 := by omega
          rw [if_pos skips, ih further tail.symm (by omega) short skips, shift, List.drop_succ_cons]
        · have none_ : start - skipped = 0 := by omega
          have one : n - read.length = n - (read ++ [record slot]).length + 1 := by
            rw [List.length_append, List.length_singleton]
            omega
          have stored := readable slot (by
            rw [occupiedSlots, places_upward]
            exact mem_upward.mpr ⟨Nat.zero_le _, below, occupied⟩)
          have longer : (read ++ [record slot]).length ≤ n := by
            rw [List.length_append, List.length_singleton]
            omega
          rw [if_neg skips, get]
          dsimp only
          rw [out_bind_of (out_readContact_stored stored), apply_writes_nil, List.nil_append]
          dsimp only
          rw [ih further tail.symm (by omega) longer order, none_, List.drop_zero, List.drop_zero, one,
            List.take_succ_cons, List.map_cons, List.append_assoc]
          rfl

theorem list_message_slots_run {message : Nat → Message}
    (readable : ∀ slot ∈ chatSlots db.htable, newestMessage db.usageBitmap card
      (db.htable.htable slot).latestMsgExtent = some (message slot))
    {start n fuel skipped : Nat} {place : Option Nat} {ahead : List Nat} {read : List Message}
    (inside : ∀ slot ∈ place, slot < db.htable.size)
    (remaining : upward (slotOccupied db.htable) db.htable.size (following place) = ahead)
    (enough : ahead.length < fuel) (short : read.length ≤ n) (order : skipped ≤ start) :
    out (listMessageSlots start n fuel (iteratorAt place) skipped read) db card =
      (((.strgOk, read ++ (((ahead.filter (slotChats db.htable)).drop (start - skipped)).take
        (n - read.length)).map message), db), []) := by
  induction ahead generalizing fuel skipped place read with
  | nil =>
      obtain ⟨fuel, rfl⟩ := Nat.exists_eq_succ_of_ne_zero (Nat.ne_of_gt enough)
      have stop : next (slotOccupied db.htable) db.htable.size place = none := by
        rw [next, remaining, List.head?_nil]
      have move := hash_table_iterator_next_run small inside
      rw [stop] at move
      rw [List.filter_nil, List.drop_nil, List.take_nil, List.map_nil, List.append_nil]
      unfold listMessageSlots
      by_cases done : n ≤ read.length
      · rw [if_pos done]
        rfl
      · rw [if_neg done, out_bind_of (out_get _ _), apply_writes_nil, List.nil_append]
        dsimp only
        rw [move]
        rfl
  | cons slot rest ih =>
      obtain ⟨fuel, rfl⟩ := Nat.exists_eq_succ_of_ne_zero (Nat.ne_of_gt (Nat.zero_lt_of_lt enough))
      obtain ⟨_, below, occupied, _, tail⟩ := upward_cons remaining
      have found : next (slotOccupied db.htable) db.htable.size place = some slot := by
        rw [next, remaining, List.head?_cons]
      have move := hash_table_iterator_next_run small inside
      rw [found] at move
      have further : ∀ other ∈ some slot, other < db.htable.size := by
        intro other same
        rw [← Option.some.inj same]
        exact below
      have get := iterator_at_get small further
      rw [List.length_cons] at enough
      unfold listMessageSlots
      by_cases done : n ≤ read.length
      · rw [if_pos done, Nat.sub_eq_zero_of_le done, List.take_zero, List.map_nil,
          List.append_nil]
        rfl
      · rw [if_neg done, out_bind_of (out_get _ _), apply_writes_nil, List.nil_append]
        dsimp only
        rw [move]
        dsimp only
        rw [Option.isSome_some, Bool.not_true, if_neg Bool.false_ne_true, get]
        dsimp only
        by_cases silent : (db.htable.htable slot).latestMsgExtent = uint16Max
        · have passed : ¬ slotChats db.htable slot = true := by
            rw [slotChats, decide_eq_false (not_not.mpr silent)]
            exact Bool.false_ne_true
          rw [if_pos silent, ih further tail.symm (by omega) short order,
            List.filter_cons_of_neg passed]
        · have chats : slotChats db.htable slot = true := decide_eq_true silent
          rw [if_neg silent, List.filter_cons_of_pos chats]
          by_cases skips : skipped < start
          · have shift : start - skipped = start - (skipped + 1) + 1 := by omega
            rw [if_pos skips, ih further tail.symm (by omega) short skips, shift,
              List.drop_succ_cons]
          · have none_ : start - skipped = 0 := by omega
            have one : n - read.length = n - (read ++ [message slot]).length + 1 := by
              rw [List.length_append, List.length_singleton]
              omega
            have listed : slot ∈ chatSlots db.htable := by
              rw [chatSlots, occupiedSlots, places_upward]
              exact List.mem_filter.mpr ⟨mem_upward.mpr ⟨Nat.zero_le _, below, occupied⟩, chats⟩
            have longer : (read ++ [message slot]).length ≤ n := by
              rw [List.length_append, List.length_singleton]
              omega
            rw [if_neg skips, out_bind_of (out_readMessage_newest (readable slot listed)),
              apply_writes_nil, List.nil_append]
            dsimp only
            rw [ih further tail.symm (by omega) longer order, none_, List.drop_zero,
              List.drop_zero, one, List.take_succ_cons, List.map_cons, List.append_assoc]
            rfl

end Lists

section Enumeration

variable {table : HashTable} (small : table.size ≤ uint16Max)
include small

theorem hash_table_next_readings (count : Nat) {place : Option Nat}
    (inside : ∀ slot ∈ place, slot < table.size) :
    hashTableReadings (hashTableIteratorNext table) count (iteratorAt place) =
      visits (next (slotOccupied table) table.size) count place := by
  induction count generalizing place with
  | zero => rfl
  | succ count ih =>
      have move := hash_table_iterator_next_run small inside
      have below := @next_place_inside table place
      rw [hashTableReadings, visits, move]
      dsimp only
      rw [ih below, iterator_at_get small below]
      cases next (slotOccupied table) table.size place <;> rfl

theorem hash_table_prev_readings (count : Nat) {place : Option Nat}
    (inside : ∀ slot ∈ place, slot < table.size) :
    hashTableReadings (hashTableIteratorPrev table) count (iteratorAt place) =
      visits (prev (slotOccupied table) table.size) count place := by
  induction count generalizing place with
  | zero => rfl
  | succ count ih =>
      have move := hash_table_iterator_prev_run small inside
      have below := prev_place_inside inside
      rw [hashTableReadings, visits, move]
      dsimp only
      rw [ih below, iterator_at_get small below]
      cases prev (slotOccupied table) table.size place <;> rfl

theorem hash_table_moves_inverse {first second : Nat} (firstIn : first ∈ occupiedSlots table)
    (secondIn : second ∈ occupiedSlots table) :
    hashTableIteratorNext table ⟨first⟩ = (true, ⟨second⟩) ↔
      hashTableIteratorPrev table ⟨second⟩ = (true, ⟨first⟩) := by
  obtain ⟨firstBelow, firstMark⟩ := mem_places.mp firstIn
  obtain ⟨secondBelow, secondMark⟩ := mem_places.mp secondIn
  have stands {slot : Nat} (below : slot < table.size) :
      ∀ other ∈ some slot, other < table.size := by
    intro other same
    rw [← Option.some.inj same]
    exact below
  have onward := hash_table_iterator_next_run small (stands firstBelow)
  have back := hash_table_iterator_prev_run small (stands secondBelow)
  change hashTableIteratorNext table ⟨first⟩ = _ at onward
  change hashTableIteratorPrev table ⟨second⟩ = _ at back
  have reached {place : Option Nat} {slot : Nat} (below : slot < table.size) :
      (place.isSome, iteratorAt place) = (true, ⟨slot⟩) ↔ place = some slot := by
    cases place with
    | none =>
        constructor
        · intro same
          cases same
        · intro same
          cases same
    | some other =>
        constructor
        · intro same
          injection same with _ iterator
          injection iterator with current
          exact congrArg some current
        · intro same
          rw [Option.some.inj same]
          rfl
  rw [onward, back, reached secondBelow, reached firstBelow]
  exact next_iff_prev secondBelow firstMark secondMark

end Enumeration

/-- What the iterator owes to the occupied slots of a table. -/
structure IteratorEnumerates (table : HashTable) : Prop where
  sorted : (occupiedSlots table).Pairwise (· < ·)
  occupied : ∀ slot, slot ∈ occupiedSlots table ↔
    slot < table.size ∧ (table.htable slot).state = .occupied
  onward : hashTableReadings (hashTableIteratorNext table) ((occupiedSlots table).length + 1)
    hashTableIteratorInit = (occupiedSlots table).map some ++ [none]
  back : hashTableReadings (hashTableIteratorPrev table) ((occupiedSlots table).length + 1)
    hashTableIteratorInit = (occupiedSlots table).reverse.map some ++ [none]
  inverse : ∀ first ∈ occupiedSlots table, ∀ second ∈ occupiedSlots table,
    (hashTableIteratorNext table ⟨first⟩ = (true, ⟨second⟩) ↔
      hashTableIteratorPrev table ⟨second⟩ = (true, ⟨first⟩))

theorem iterator_enumerates {table : HashTable} (small : table.size ≤ uint16Max) :
    IteratorEnumerates table where
  sorted := places_sorted _ _
  occupied slot := by
    rw [occupiedSlots, mem_places, slotOccupied, decide_eq_true_eq]
  onward := by
    have readings := @hash_table_next_readings table small ((occupiedSlots table).length + 1) none
      fun slot none_ => by cases none_
    have all := @visits_next (slotOccupied table) table.size none
    rw [following, ← places_upward] at all
    exact readings.trans all
  back := by
    have readings := @hash_table_prev_readings table small ((occupiedSlots table).length + 1) none
      fun slot none_ => by cases none_
    have all := @visits_prev (slotOccupied table) table.size none
    rw [preceding, ← places_downward, List.length_reverse] at all
    exact readings.trans all
  inverse _ firstIn _ secondIn := hash_table_moves_inverse small firstIn secondIn

section Windows

variable {db : Database} {card : Card Sector} (small : db.htable.size ≤ uint16Max)
include small

theorem out_hashGetContactList {record : Nat → Contact}
    (readable : ∀ slot ∈ occupiedSlots db.htable,
      storedContact db.usageBitmap card (db.htable.htable slot).sector = some (record slot))
    (start n : Nat) :
    out (hashGetContactList start n true) db card =
      (((.strgOk, (((occupiedSlots db.htable).drop start).take n).map record), db), []) := by
  have accepted : ¬ ((!true) = true ∨ (start : Int) < 0 ∨ (n : Int) < 0) := by
    simp
  have short : (occupiedSlots db.htable).length ≤ db.htable.size := by
    have fewer := (List.range db.htable.size).length_filter_le (slotOccupied db.htable)
    rwa [List.length_range] at fewer
  unfold hashGetContactList
  rw [if_neg accepted, Int.toNat_natCast, Int.toNat_natCast, out_bind_of (out_get _ _),
    apply_writes_nil, List.nil_append]
  have run := @list_contact_slots_run db card small record readable start n (db.htable.size + 1) 0 none
    (occupiedSlots db.htable) [] (fun slot none_ => by cases none_) places_upward.symm
    (Nat.lt_succ_of_le short) (Nat.zero_le n) (Nat.zero_le start)
  rw [List.length_nil, Nat.sub_zero, Nat.sub_zero, List.nil_append] at run
  exact run

theorem out_hashGetMessageList {message : Nat → Message}
    (readable : ∀ slot ∈ chatSlots db.htable, newestMessage db.usageBitmap card
      (db.htable.htable slot).latestMsgExtent = some (message slot))
    (start n : Nat) :
    out (hashGetMessageList start n true) db card =
      (((.strgOk, (((chatSlots db.htable).drop start).take n).map message), db), []) := by
  have accepted : ¬ ((!true) = true ∨ (start : Int) < 0 ∨ (n : Int) < 0) := by
    simp
  have short : (occupiedSlots db.htable).length ≤ db.htable.size := by
    have fewer := (List.range db.htable.size).length_filter_le (slotOccupied db.htable)
    rwa [List.length_range] at fewer
  unfold hashGetMessageList
  rw [if_neg accepted, Int.toNat_natCast, Int.toNat_natCast, out_bind_of (out_get _ _),
    apply_writes_nil, List.nil_append]
  have run := @list_message_slots_run db card small message readable start n (db.htable.size + 1) 0 none
    (occupiedSlots db.htable) [] (fun slot none_ => by cases none_) places_upward.symm
    (Nat.lt_succ_of_le short) (Nat.zero_le n) (Nat.zero_le start)
  rw [List.length_nil, Nat.sub_zero, Nat.sub_zero, List.nil_append] at run
  exact run

/-- The lists are windows of the occupied slots and of those with a chat, pages put behind
one another are the whole, and the iterator goes through the slots both ways. -/
theorem slot_order_listings {record : Nat → Contact} {message : Nat → Message}
    (contacts : ∀ slot ∈ occupiedSlots db.htable,
      storedContact db.usageBitmap card (db.htable.htable slot).sector = some (record slot))
    (messages : ∀ slot ∈ chatSlots db.htable, newestMessage db.usageBitmap card
      (db.htable.htable slot).latestMsgExtent = some (message slot)) :
    (∀ start n : Nat, out (hashGetContactList start n true) db card =
      (((.strgOk, (((occupiedSlots db.htable).drop start).take n).map record), db), [])) ∧
    (∀ start n : Nat, out (hashGetMessageList start n true) db card =
      (((.strgOk, (((chatSlots db.htable).drop start).take n).map message), db), [])) ∧
    (∀ sizes : List Nat, (occupiedSlots db.htable).length ≤ sizes.sum →
      ((pages 0 sizes).flatMap fun page =>
        (out (hashGetContactList page.1 page.2 true) db card).1.1.2) =
          (occupiedSlots db.htable).map record) ∧
    (∀ sizes : List Nat, (chatSlots db.htable).length ≤ sizes.sum →
      ((pages 0 sizes).flatMap fun page =>
        (out (hashGetMessageList page.1 page.2 true) db card).1.1.2) =
          (chatSlots db.htable).map message) ∧
    IteratorEnumerates db.htable := by
  refine ⟨out_hashGetContactList small contacts, out_hashGetMessageList small messages, ?_, ?_,
    iterator_enumerates small⟩
  · intro sizes enough
    simp only [out_hashGetContactList small contacts]
    rw [← List.map_flatMap, pages_whole _ enough]
  · intro sizes enough
    simp only [out_hashGetMessageList small messages]
    rw [← List.map_flatMap, pages_whole _ enough]

end Windows

/-- "An" and "an" with phone numbers of their own, "B" and "c". -/
def exampleContact (slot : Nat) : Contact :=
  match slot with
  | 1 => createContact [65#8, 110#8] [49#8]
  | 2 => createContact [97#8, 110#8] [50#8]
  | 3 => createContact [66#8] [51#8]
  | _ => createContact [99#8] [52#8]

def exampleContactSector : ContactSector :=
  [1, 2, 3, 4].foldl (fun cSector slot => cSector.put slot (exampleContact slot)) .zero

def exampleChat (contactIndex : Nat) (time : BitVec 16) : MessageSector :=
  (createNewMessageSector contactIndex uint16Max).push { Message.zero with timestampLo := time }

/-- The contacts in slots 1 to 4 and chats of two of them. -/
def exampleListedCard : Card Sector := fun raw =>
  sectorCrcStamp (if raw = contactRaw 0 then toSector exampleContactSector
    else if raw = messageRaw 0 then toSector (exampleChat 1 5#16)
    else toSector (exampleChat 3 6#16))

/-- A table of seven with gaps and a tombstone. -/
def exampleListedEntry (hashSlot : Nat) : HashEntry :=
  match hashSlot with
  | 1 => ⟨7, 4, uint16Max, .occupied⟩
  | 2 => ⟨9, 0, uint16Max, .deleted⟩
  | 4 => ⟨11, 1, 0, .occupied⟩
  | 5 => ⟨12, 2, uint16Max, .occupied⟩
  | 6 => ⟨13, 3, 1, .occupied⟩
  | _ => .zero

def exampleListed : Database :=
  { blankDatabase with
    htable := ⟨exampleListedEntry, 4, 7⟩
    usageBitmap := setUsageBit (setUsageBit (setUsageBit .zero 0 true) 1667 true) 1668 true }

def exampleRecord (hashSlot : Nat) : Contact := exampleContact (exampleListedEntry hashSlot).sector

def exampleNewest (hashSlot : Nat) : Message :=
  { Message.zero with timestampLo := if hashSlot = 4 then 5#16 else 6#16 }

theorem example_listed_stored : ∀ slot ∈ [1, 2, 3, 4],
    storedContact exampleListed.usageBitmap exampleListedCard slot =
      some (exampleContact slot) := by
  have used : usageBit exampleListed.usageBitmap 0 = true := by
    simp [exampleListed]
  have sector : exampleListedCard (contactRaw 0) = sectorCrcStamp (toSector exampleContactSector) :=
    congrArg sectorCrcStamp (if_pos rfl)
  intro slot member
  have below : slot < 6 := by
    revert slot
    decide
  have place := @stored_contact_position exampleListed.usageBitmap exampleListedCard 0 slot
    (by decide) below used (by rw [sector]; exact stamp_valid _)
  rw [Nat.zero_mul, Nat.zero_add, sector, of_sector_stamp, of_to_sector] at place
  rw [place]
  clear place below
  revert slot
  decide

theorem example_chat_newest {index contactIndex : Nat} {time : BitVec 16} (inside : index < 2)
    (sector : exampleListedCard (messageRaw index) =
      sectorCrcStamp (toSector (exampleChat contactIndex time))) :
    newestMessage exampleListed.usageBitmap exampleListedCard index =
      some { Message.zero with timestampLo := time } := by
  have used : usageBit exampleListed.usageBitmap (messageDataSector index) = true := by
    have either : index = 0 ∨ index = 1 := by omega
    rcases either with rfl | rfl
    · simp [exampleListed]
    · simp [exampleListed]
  have bounded : index < totalMessageSectorSize := inside.trans (by decide)
  have single : (exampleChat contactIndex time).header.msgCount.toNat = 1 := rfl
  unfold newestMessage
  dsimp only
  rw [sector, of_sector_stamp, of_to_sector, single,
    if_pos ⟨bounded, used, stamp_valid _, by decide, by decide⟩]
  rfl

theorem example_listed_newest : ∀ slot ∈ [4, 6],
    newestMessage exampleListed.usageBitmap exampleListedCard
      (exampleListedEntry slot).latestMsgExtent = some (exampleNewest slot) := by
  intro slot member
  rcases List.mem_pair.mp member with rfl | rfl
  · exact @example_chat_newest 0 1 5#16 (by decide) (congrArg sectorCrcStamp rfl)
  · exact @example_chat_newest 1 3 6#16 (by decide) (congrArg sectorCrcStamp rfl)

/-- Pages over the gaps of the table, with and without the contacts that have no chat. -/
theorem slot_order_listings_example :
    out (hashGetContactList 1 2 true) exampleListed exampleListedCard =
      (((.strgOk, [exampleContact 1, exampleContact 2]), exampleListed), []) ∧
    ((pages 0 [1, 2, 1]).flatMap fun page =>
        (out (hashGetContactList page.1 page.2 true) exampleListed exampleListedCard).1.1.2) =
      [exampleContact 4, exampleContact 1, exampleContact 2, exampleContact 3] ∧
    ((pages 0 [1, 1]).flatMap fun page =>
        (out (hashGetMessageList page.1 page.2 true) exampleListed exampleListedCard).1.1.2) =
      [exampleNewest 4, exampleNewest 6] ∧
    IteratorEnumerates exampleListed.htable := by
  have slots : occupiedSlots exampleListed.htable = [1, 4, 5, 6] := by decide
  have chats : chatSlots exampleListed.htable = [4, 6] := by decide
  obtain ⟨window, _, contacts, messages, iterates⟩ := @slot_order_listings exampleListed
    exampleListedCard (by decide) exampleRecord exampleNewest
    (fun slot member => by
      rw [slots] at member
      apply example_listed_stored
      revert slot
      decide)
    (fun slot member => by
      rw [chats] at member
      exact example_listed_newest slot member)
  have middle := window 1 2
  have pagedContacts := contacts [1, 2, 1] (by rw [slots]; decide)
  have pagedMessages := messages [1, 1] (by rw [chats]; decide)
  rw [slots] at middle pagedContacts
  rw [chats] at pagedMessages
  exact ⟨middle, pagedContacts, pagedMessages, iterates⟩

end SdDatabase
