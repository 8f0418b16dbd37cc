import SdDatabase.ContactRecords
import SdDatabase.SectorWalk

/-!
# Contacts in storage order

`get_nth_contact_index` counts contacts through the used sectors, and
`hash_get_contact_list_by_usage` lists them from the slot it gives. An error code of the count
is taken for a slot, and an empty sector for the end.
-/

namespace SdDatabase

open Bytes Device BitScan Cursor SetBits

set_option autoImplicit false

/-- The number of a `STRG_RET`. -/
def StrgRet.code : StrgRet → Nat
  | .strgFail => 0
  | .strgOk => 1
  | .strgEmpty => 2
  | .strgFull => 3
  | .strgNext => 4
  | .strgCorrupt => 5
  | .strgExists => 6

/-- `__builtin_popcount`. -/
def popcount {w : Nat} (bits : BitVec w) : Nat := (List.range w).countP bits.getLsbD

/-- The loop of `get_nth_set_bit`; 32 rounds use up the word. -/
def nthSetBitFrom : Nat → BitVec 32 → Nat → Nat
  | 0, _, _ => uint16Max
  | fuel + 1, bitmap, n =>
      if bitmap = 0#32 then uint16Max
      else if n = 0 then ctz bitmap
      else nthSetBitFrom fuel (clearLowest bitmap) (n - 1)

def getNthSetBit (bitmap : BitVec 32) (n : Nat) : Nat := nthSetBitFrom 32 bitmap n

/-- One used sector of `get_nth_contact_index`. -/
def nthContactVisit (n physSector contactCount : Nat) : DbM (Visit Nat Nat) := do
  let slotBase := u16 (physSector * contactSectorCapacity)
  match ← readContactSector (u16 physSector) with
  | .error ret => return .stop ret.code
  | .ok content =>
      let cHeader := (ofSector content : ContactSector).usedBitmap
      let sectorContactCount := popcount cHeader
      if sectorContactCount = 0 then
        return .stop uint16Max
      if n < contactCount + sectorContactCount then
        let secBitInd := getNthSetBit (cHeader.setWidth 32) (n - contactCount)
        if secBitInd = uint16Max then
          return .stop uint16Max
        return .stop (u16 (secBitInd + slotBase))
      return .next (contactCount + sectorContactCount)

/-- `get_nth_contact_index`, for `n` that is not negative. -/
def getNthContactIndex (n : Nat) : DbM Nat := do
  let firstWord := usageBitmapFindIndex contactDataStartSector
  let lastWord := usageBitmapFindIndex (contactDataStartSector + contactMemorySectorSize)
  -- the source masks the bits before the first sector in a variable it does not read
  match ← walkWords (contactDataStartSector + contactMemorySectorSize) firstWord 0
      (nthContactVisit n) (lastWord + 1 - firstWord) firstWord 0 with
  | .error index => return index
  | .ok _ => return uint16Max

/-- The loop of `read_n_contacts_in_sector`; eight rounds use up the header. -/
def readContactsFrom (cSector : ContactSector) (n : Nat) :
    Nat → Byte → List Contact → List Contact
  | 0, _, read => read
  | fuel + 1, cBitmap, read =>
      if cBitmap = 0#8 then read
      else if n ≤ read.length then read
      else
        readContactsFrom cSector n fuel (clearLowest cBitmap)
          (read ++ [arrayGet cSector.contacts (ctz cBitmap) .zero])

/-- `read_n_contacts_in_sector`, with the records that it writes to `out`. -/
def readNContactsInSector (cSector : ContactSector) (n : Nat) : List Contact :=
  readContactsFrom cSector n 8 cSector.usedBitmap []

/-- One used sector of `hash_get_contact_list_by_usage`: whether it is the first, and the
records written to `out` so far. -/
def listContactVisit (startPosInSector n physSector : Nat) (gathered : Bool × List Contact) :
    DbM (Visit (StrgRet × List Contact) (Bool × List Contact)) := do
  let (firstSector, read) := gathered
  match ← readContactSector (u16 physSector) with
  | .error ret => return .stop (ret, read)
  | .ok content =>
      let cSector : ContactSector := ofSector content
      let usedBitmap :=
        if firstSector then clearBitsTo cSector.usedBitmap startPosInSector
        else cSector.usedBitmap
      let read := read ++
        readNContactsInSector { cSector with usedBitmap := usedBitmap } (n - read.length)
      if n ≤ read.length then
        -- only the sectors of this word are left out
        return .leave (false, read)
      return .next (false, read)

/-- `hash_get_contact_list_by_usage`, for `start` and `n` that are not negative, with the
records that it writes to `out`. -/
def hashGetContactListByUsage (start n : Nat) : DbM (StrgRet × List Contact) := do
  let startContactIndex ← getNthContactIndex start
  let startSector := (contactDataStartSector + startContactIndex) / contactSectorCapacity
  let startWord := usageBitmapFindIndex startSector
  let lastWord := usageBitmapFindIndex (contactDataStartSector + contactMemorySectorSize)
  match ← walkWords (contactDataStartSector + contactMemorySectorSize) startWord
      (usageBitmapFindBit startSector)
      (listContactVisit (startContactIndex % contactSectorCapacity) n)
      (lastWord + 1 - startWord) startWord (true, []) with
  | .error result => return result
  | .ok (_, read) => return (.strgOk, read)

/-- The slot's sector is in use and its bit is set there. -/
def slotSet (bitmap : UsageBitmap) (card : Card Sector) (slot : Nat) : Bool :=
  usageBit bitmap (slot / 6) &&
    (ofSector (card (contactRaw (slot / 6))) : ContactSector).usedBitmap.getLsbD (slot % 6)

def setSlots (bitmap : UsageBitmap) (card : Card Sector) : List Nat :=
  places (slotSet bitmap card) (totalContactSectorSize * 6)

def slotContact (card : Card Sector) (slot : Nat) : Contact :=
  arrayGet (ofSector (card (contactRaw (slot / 6))) : ContactSector).contacts (slot % 6) .zero

def sectorSlots (card : Card Sector) (physSector : Nat) : List Nat :=
  (places (ofSector (card (contactRaw physSector)) : ContactSector).usedBitmap.getLsbD 6).map
    (physSector * 6 + ·)

/-- The headers of the sectors in use have bits for the six slots only. -/
def HeadersFormed (bitmap : UsageBitmap) (card : Card Sector) : Prop :=
  ∀ physSector < totalContactSectorSize, usageBit bitmap physSector = true →
    sectorCrcValid (card (contactRaw physSector)) = true → ∀ position, 6 ≤ position →
    (ofSector (card (contactRaw physSector)) : ContactSector).usedBitmap.getLsbD position = false

section Enumeration

variable {bitmap : UsageBitmap} {card : Card Sector}

theorem set_slots_sectors :
    setSlots bitmap card =
      (usedFrom bitmap totalContactSectorSize 0).flatMap (sectorSlots card) := by
  have block : ∀ physSector, (places (fun position =>
      slotSet bitmap card (physSector * 6 + position)) 6).map (physSector * 6 + ·) =
        if usageBit bitmap physSector then sectorSlots card physSector else [] := by
    intro physSector
    have marks : places (fun position => slotSet bitmap card (physSector * 6 + position)) 6 =
        places (fun position => usageBit bitmap physSector &&
          (ofSector (card (contactRaw physSector)) : ContactSector).usedBitmap.getLsbD position)
          6 := by
      unfold places
      apply List.filter_congr
      intro position member
      have below := List.mem_range.mp member
      unfold slotSet
      rw [show (physSector * 6 + position) / 6 = physSector by omega,
        show (physSector * 6 + position) % 6 = position by omega]
    rw [marks, sectorSlots]
    cases usageBit bitmap physSector with
    | true => rfl
    | false => rfl
  rw [usedFrom, ← places_upward, setSlots, places_blocks, funext block,
    flat_map_places (usageBit bitmap) _ _ fun physSector unused => by rw [unused]; rfl]
  apply List.flatMap_congr
  intro physSector member
  rw [(mem_places.mp member).2, if_pos rfl]

end Enumeration

theorem nth_set_bit_from_eq (fuel : Nat) (bitmap : BitVec 32) (n : Nat)
    (enough : (setBits bitmap).length ≤ fuel) :
    nthSetBitFrom fuel bitmap n = ((setBits bitmap)[n]?).getD uint16Max := by
  induction fuel generalizing bitmap n with
  | zero =>
      have none_ := List.eq_nil_of_length_eq_zero (Nat.le_zero.mp enough)
      rw [none_]
      rfl
  | succ fuel ih =>
      unfold nthSetBitFrom
      by_cases empty : bitmap = 0#32
      · rw [if_pos empty, empty, set_bits_zero]
        rfl
      · rw [if_neg empty]
        rw [set_bits_cons empty] at enough ⊢
        cases n with
        | zero => rfl
        | succ n =>
            rw [if_neg (Nat.succ_ne_zero n), Nat.add_sub_cancel, List.getElem?_cons_succ]
            exact ih _ n (Nat.le_of_succ_le_succ enough)

theorem get_nth_set_bit_eq (bitmap : BitVec 32) (n : Nat) :
    getNthSetBit bitmap n = ((setBits bitmap)[n]?).getD uint16Max :=
  nth_set_bit_from_eq 32 bitmap n (set_bits_length bitmap)

theorem popcount_eq {w : Nat} (bits : BitVec w) : popcount bits = (setBits bits).length :=
  List.countP_eq_length_filter

theorem read_contacts_from_eq (cSector : ContactSector) (n fuel : Nat) (cBitmap : Byte)
    (read : List Contact) (enough : (setBits cBitmap).length ≤ fuel) :
    readContactsFrom cSector n fuel cBitmap read = read ++
      ((setBits cBitmap).take (n - read.length)).map fun position =>
        arrayGet cSector.contacts position .zero := by
  induction fuel generalizing cBitmap read with
  | zero =>
      have none_ := List.eq_nil_of_length_eq_zero (Nat.le_zero.mp enough)
      rw [none_, List.take_nil, List.map_nil, List.append_nil]
      rfl
  | succ fuel ih =>
      unfold readContactsFrom
      by_cases empty : cBitmap = 0#8
      · rw [if_pos empty, empty, set_bits_zero, List.take_nil, List.map_nil, List.append_nil]
      · rw [if_neg empty]
        rw [set_bits_cons empty] at enough ⊢
        by_cases full : n ≤ read.length
        · rw [if_pos full, Nat.sub_eq_zero_of_le full, List.take_zero, List.map_nil,
            List.append_nil]
        · have more : n - read.length = n - (read.length + 1) + 1 := by omega
          rw [if_neg full, ih _ _ (Nat.le_of_succ_le_succ enough), List.length_append,
            List.length_singleton, more, List.take_succ_cons, List.map_cons, List.append_assoc,
            List.singleton_append]

theorem read_n_contacts_eq (cSector : ContactSector) (n : Nat) :
    readNContactsInSector cSector n =
      ((setBits cSector.usedBitmap).take n).map fun position =>
        arrayGet cSector.contacts position .zero := by
  rw [readNContactsInSector, read_contacts_from_eq _ _ _ _ _ (set_bits_length _), List.nil_append,
    List.length_nil, Nat.sub_zero]

theorem header_slots {bits : Byte} (formed : ∀ position, 6 ≤ position →
    bits.getLsbD position = false) : setBits bits = places bits.getLsbD 6 :=
  places_low (by decide) fun position above _ => formed position above

theorem header_slots_wide {bits : Byte} (formed : ∀ position, 6 ≤ position →
    bits.getLsbD position = false) : setBits (bits.setWidth 32) = places bits.getLsbD 6 := by
  have narrow : places (bits.setWidth 32).getLsbD 32 = places (bits.setWidth 32).getLsbD 6 := by
    apply places_low (by decide)
    intro position above _
    rw [BitVec.getLsbD_setWidth, formed position above, Bool.and_false]
  rw [setBits, narrow]
  unfold places
  apply List.filter_congr
  intro position member
  have below := List.mem_range.mp member
  rw [BitVec.getLsbD_setWidth, decide_eq_true (by omega), Bool.true_and]

/-- The sector can be read, is intact and has an occupied slot. -/
def countable (lost : Nat → Bool) (card : Card Sector) (physSector : Nat) : Bool :=
  !lost (contactRaw physSector) && sectorCrcValid (card (contactRaw physSector)) &&
    !(sectorSlots card physSector).isEmpty

/-- What the count returns at a sector that is not countable. -/
def uncountedResult (lost : Nat → Bool) (card : Card Sector) (physSector : Nat) : Nat :=
  if lost (contactRaw physSector) then 0
  else if sectorCrcValid (card (contactRaw physSector)) then uint16Max
  else 5

/-- The used sectors are `passed`, which are countable and hold at most `n` contacts, and
`rest`. -/
structure Passed (lost : Nat → Bool) (bitmap : UsageBitmap) (card : Card Sector) (n : Nat)
    (passed rest : List Nat) : Prop where
  whole : usedFrom bitmap totalContactSectorSize 0 = passed ++ rest
  counted : ∀ physSector ∈ passed, countable lost card physSector = true
  few : (passed.flatMap (sectorSlots card)).length ≤ n

/-- The count has found the slot of contact `n`. -/
def CountFinds (lost : Nat → Bool) (bitmap : UsageBitmap) (card : Card Sector)
    (n result : Nat) : Prop :=
  ∃ passed physSector rest position, Passed lost bitmap card n passed (physSector :: rest) ∧
    countable lost card physSector = true ∧
    (places (ofSector (card (contactRaw physSector)) : ContactSector).usedBitmap.getLsbD 6)[
      n - (passed.flatMap (sectorSlots card)).length]? = some position ∧
    result = physSector * 6 + position

/-- The count ends at a sector that is not countable. -/
def CountBreaks (lost : Nat → Bool) (bitmap : UsageBitmap) (card : Card Sector)
    (n result : Nat) : Prop :=
  ∃ passed physSector rest, Passed lost bitmap card n passed (physSector :: rest) ∧
    countable lost card physSector = false ∧ result = uncountedResult lost card physSector

section Count

variable {db : Database} {card : Card Sector} {lost : Nat → Bool} {n : Nat}

theorem Passed.next {passed rest : List Nat} {physSector : Nat}
    (given : Passed lost db.usageBitmap card n passed (physSector :: rest)) :
    physSector < totalContactSectorSize ∧ usageBit db.usageBitmap physSector = true := by
  have member : physSector ∈ usedFrom db.usageBitmap totalContactSectorSize 0 := by
    rw [given.whole]
    exact List.mem_append_right _ List.mem_cons_self
  exact (mem_upward.mp member).2

theorem lossy_readSectorAt (db : Database) (card : Card Sector) {physSector : Nat}
    (inside : physSector < totalContactSectorSize) :
    lossy lost (readContactSector (u16 physSector)) db card =
      ((if lost (contactRaw physSector) then .error .strgFail
        else if sectorCrcValid (card (contactRaw physSector)) then
          .ok (card (contactRaw physSector))
        else .error .strgCorrupt, db), []) := by
  have narrow : u16 physSector = physSector := by
    apply u16_of_lt
    simp at inside
    omega
  rw [narrow, lossy_readContactSector db card inside]

theorem count_visit (formed : HeadersFormed db.usageBitmap card) :
    VisitKeeps lost db card (nthContactVisit n)
      (fun rest contactCount => ∃ passed, Passed lost db.usageBitmap card n passed rest ∧
        contactCount = (passed.flatMap (sectorSlots card)).length)
      (fun result => CountFinds lost db.usageBitmap card n result ∨
        CountBreaks lost db.usageBitmap card n result) := by
  rintro physSector rest _ ⟨passed, given, rfl⟩
  obtain ⟨inside, used⟩ := given.next
  have read := @lossy_readSectorAt lost db card physSector inside
  have capacity : contactSectorCapacity = 6 := by simp
  have breaks : ∀ result, countable lost card physSector = false →
      result = uncountedResult lost card physSector →
      CountFinds lost db.usageBitmap card n result ∨
        CountBreaks lost db.usageBitmap card n result :=
    fun result uncounted same => Or.inr ⟨passed, physSector, rest, given, uncounted, same⟩
  unfold countable uncountedResult at breaks
  unfold nthContactVisit
  cases gone : lost (contactRaw physSector) with
  | true =>
      rw [gone, if_pos rfl] at read
      refine Or.inl ⟨0, ?_, breaks 0 (by rw [gone]; rfl) (by rw [gone]; rfl)⟩
      dsimp only
      rw [lossy_bind_read read]
      rfl
  | false =>
      cases valid : sectorCrcValid (card (contactRaw physSector)) with
      | false =>
          rw [gone, valid, if_neg Bool.false_ne_true, if_neg Bool.false_ne_true] at read
          refine Or.inl ⟨5, ?_, breaks 5 (by rw [valid, Bool.and_false]; rfl) ?_⟩
          · dsimp only
            rw [lossy_bind_read read]
            rfl
          · rw [gone, valid]
            rfl
      | true =>
          rw [gone, valid, if_neg Bool.false_ne_true, if_pos rfl] at read
          have slots := formed physSector inside used valid
          dsimp only
          rw [lossy_bind_read read]
          dsimp only
          rw [popcount_eq, get_nth_set_bit_eq, header_slots slots, header_slots_wide slots,
            capacity]
          have mapped : (sectorSlots card physSector).length =
              (places (ofSector (card (contactRaw physSector)) :
                ContactSector).usedBitmap.getLsbD 6).length := List.length_map _
          by_cases empty : (places (ofSector (card (contactRaw physSector)) :
              ContactSector).usedBitmap.getLsbD 6).length = 0
          · have none_ : sectorSlots card physSector = [] :=
              List.eq_nil_of_length_eq_zero (mapped.trans empty)
            rw [if_pos empty]
            refine Or.inl ⟨uint16Max, rfl, breaks _ (by rw [none_, Bool.and_comm]; rfl) ?_⟩
            rw [gone, valid]
            rfl
          · have counts : countable lost card physSector = true := by
              have some_ : (sectorSlots card physSector).isEmpty = false := by
                rw [Bool.eq_false_iff, ne_eq, List.isEmpty_iff_length_eq_zero, mapped]
                exact empty
              rw [countable, gone, valid, some_]
              rfl
            have few := given.few
            rw [if_neg empty]
            by_cases here : n < (passed.flatMap (sectorSlots card)).length +
                (places (ofSector (card (contactRaw physSector)) :
                  ContactSector).usedBitmap.getLsbD 6).length
            · obtain ⟨position, found⟩ : ∃ position, (places (ofSector
                  (card (contactRaw physSector)) : ContactSector).usedBitmap.getLsbD 6)[
                    n - (passed.flatMap (sectorSlots card)).length]? = some position :=
                ⟨_, List.getElem?_eq_getElem (by omega)⟩
              have below := (mem_places.mp (List.mem_of_getElem? found)).1
              have bound : physSector < 1667 := by simpa using inside
              have sentinel : position ≠ uint16Max := by
                simp
                omega
              have index : u16 (position + u16 (physSector * 6)) = physSector * 6 + position := by
                rw [u16_of_lt (by omega : physSector * 6 < 65536), u16_of_lt (by omega),
                  Nat.add_comm]
              rw [if_pos here, found, Option.getD_some, if_neg sentinel, index]
              exact Or.inl ⟨_, rfl, Or.inl ⟨passed, physSector, rest, position, given, counts,
                found, rfl⟩⟩
            · rw [if_neg here]
              refine Or.inr (Or.inr ⟨_, rfl, passed ++ [physSector], ⟨?_, ?_, ?_⟩, ?_⟩)
              · rw [List.append_assoc, given.whole]
                rfl
              · intro other member
                rcases List.mem_append.mp member with before | last
                · exact given.counted other before
                · rw [List.mem_singleton.mp last]
                  exact counts
              · rw [List.flatMap_append, List.flatMap_singleton, List.length_append, mapped]
                omega
              · rw [List.flatMap_append, List.flatMap_singleton, List.length_append, mapped]

theorem contact_limit : contactDataStartSector + contactMemorySectorSize =
    totalContactSectorSize := rfl

/-- How `get_nth_contact_index` ends. -/
theorem nth_contact_run (formed : HeadersFormed db.usageBitmap card) :
    ∃ result, lossy lost (getNthContactIndex n) db card = ((result, db), []) ∧
      (CountFinds lost db.usageBitmap card n result ∨
        CountBreaks lost db.usageBitmap card n result ∨
        result = uint16Max ∧ ∃ passed, Passed lost db.usageBitmap card n passed []) := by
  have words : usageBitmapFindIndex (contactDataStartSector + contactMemorySectorSize) + 1 -
      usageBitmapFindIndex contactDataStartSector = 52 + 1 := rfl
  have start : Passed lost db.usageBitmap card n []
      (usedFrom db.usageBitmap totalContactSectorSize 0) :=
    ⟨rfl, fun physSector member => (List.not_mem_nil member).elim, Nat.zero_le n⟩
  have begins : ∃ passed, Passed lost db.usageBitmap card n passed
      (usedFrom db.usageBitmap totalContactSectorSize
        (usageBitmapWordToIndex (usageBitmapFindIndex contactDataStartSector) + 0)) ∧
      0 = (passed.flatMap (sectorSlots card)).length := ⟨[], start, rfl⟩
  have ends := walk_words_run (count_visit formed) (by decide : 0 < 32)
    (by decide : usageBitmapIsCrcWord (usageBitmapFindIndex contactDataStartSector) = false) 52
    begins
  have none_ : usedFrom db.usageBitmap totalContactSectorSize
      (usageBitmapWordToIndex (usageBitmapFindIndex contactDataStartSector + 1 + 52)) = [] :=
    upward_past (by decide)
  rw [none_] at ends
  unfold getNthContactIndex
  dsimp only
  rw [words, contact_limit]
  rcases ends with ⟨result, run, done⟩ | ⟨contactCount, run, passed, given, _⟩
  · refine ⟨result, ?_, ?_⟩
    · rw [lossy_bind_read run]
      rfl
    · exact done.imp id Or.inl
  · refine ⟨uint16Max, ?_, Or.inr (Or.inr ⟨rfl, passed, given⟩)⟩
    rw [lossy_bind_read run]
    rfl

end Count

section Listing

variable {db : Database} {card : Card Sector} {lost : Nat → Bool} {n : Nat}

theorem sector_records (card : Card Sector) {physSector : Nat} {positions : List Nat}
    (inside : ∀ position ∈ positions, position < 6) :
    (positions.map (physSector * 6 + ·)).map (slotContact card) =
      positions.map fun position =>
        arrayGet (ofSector (card (contactRaw physSector)) : ContactSector).contacts position
          .zero := by
  rw [List.map_map]
  apply List.map_congr_left
  intro position member
  have below := inside position member
  rw [Function.comp_apply, slotContact, show (physSector * 6 + position) / 6 = physSector by omega,
    show (physSector * 6 + position) % 6 = position by omega]

theorem gather_step {A : Type} {target read here later : List A}
    (whole : target = read ++ (here ++ later)) (room : read.length ≤ n) :
    (n ≤ (read ++ here.take (n - read.length)).length →
      read ++ here.take (n - read.length) = target.take n) ∧
    (¬n ≤ (read ++ here.take (n - read.length)).length →
      target = (read ++ here.take (n - read.length)) ++ later) := by
  rw [List.length_append, List.length_take, whole]
  constructor
  · intro full
    rw [List.take_append, List.take_of_length_le room,
      List.take_append_of_le_length (by omega)]
  · intro short
    rw [List.take_of_length_le (by omega), List.append_assoc]

def ListLeft (card : Card Sector) (n : Nat) (target : List Contact) (rest : List Nat)
    (read : List Contact) : Prop :=
  (read.length ≤ n ∧ target = read ++ (rest.flatMap (sectorSlots card)).map (slotContact card)) ∨
    (n ≤ read.length ∧ read = target.take n)

/-- The first sector is cut at the slot where the list starts. -/
def ListBegins (card : Card Sector) (start : Nat) (target : List Contact) (rest : List Nat) :
    Prop :=
  ∃ physSector later, rest = physSector :: later ∧
    target = ((((places (ofSector (card (contactRaw physSector)) :
      ContactSector).usedBitmap.getLsbD 6).filter fun position => decide (start ≤ position)).map
        (physSector * 6 + ·)) ++ later.flatMap (sectorSlots card)).map (slotContact card)

theorem list_gathers {target read after : List Contact} {positions rest : List Nat}
    {physSector : Nat} (below : ∀ position ∈ positions, position < 6) (room : read.length ≤ n)
    (whole : target = read ++ ((positions.map (physSector * 6 + ·)) ++
      rest.flatMap (sectorSlots card)).map (slotContact card))
    (gathered : after = read ++ (positions.take (n - read.length)).map fun position =>
      arrayGet (ofSector (card (contactRaw physSector)) : ContactSector).contacts position .zero) :
    (n ≤ after.length → ∀ sectors, ListLeft card n target sectors after) ∧
      (¬n ≤ after.length → ListLeft card n target rest after) := by
  rw [List.map_append, sector_records card below] at whole
  obtain ⟨full, short⟩ := gather_step whole room
  rw [← List.map_take, ← gathered] at full short
  exact ⟨fun many sectors => Or.inr ⟨many, full many⟩,
    fun few => Or.inl ⟨Nat.le_of_lt (Nat.lt_of_not_le few), short few⟩⟩

theorem list_visit (formed : HeadersFormed db.usageBitmap card) {start : Nat} (short : start < 6)
    (target : List Contact) :
    VisitKeeps lost db card (listContactVisit start n)
      (fun rest gathered =>
        (∀ physSector ∈ rest, physSector < totalContactSectorSize ∧
          usageBit db.usageBitmap physSector = true) ∧
        ((gathered = (true, []) ∧ ListBegins card start target rest) ∨
          (gathered.1 = false ∧ ListLeft card n target rest gathered.2)))
      (fun result => result.1 ≠ .strgOk) := by
  rintro physSector rest ⟨first, read⟩ ⟨known, left⟩
  obtain ⟨inside, used⟩ := known physSector List.mem_cons_self
  have later := fun other member => known other (List.mem_cons_of_mem _ member)
  have answer := @lossy_readSectorAt lost db card physSector inside
  unfold listContactVisit
  dsimp only
  cases gone : lost (contactRaw physSector) with
  | true =>
      rw [gone, if_pos rfl] at answer
      refine Or.inl ⟨(.strgFail, read), ?_, fun same => by cases same⟩
      rw [lossy_bind_read answer]
      rfl
  | false =>
      cases valid : sectorCrcValid (card (contactRaw physSector)) with
      | false =>
          rw [gone, valid, if_neg Bool.false_ne_true, if_neg Bool.false_ne_true] at answer
          refine Or.inl ⟨(.strgCorrupt, read), ?_, fun same => by cases same⟩
          rw [lossy_bind_read answer]
          rfl
      | true =>
          rw [gone, valid, if_neg Bool.false_ne_true, if_pos rfl] at answer
          have slots := formed physSector inside used valid
          rw [lossy_bind_read answer]
          dsimp only
          rw [read_n_contacts_eq]
          dsimp only
          obtain ⟨after, gathered⟩ : ∃ after, after = read ++
              ((setBits (if first = true then
                clearBitsTo (ofSector (card (contactRaw physSector)) : ContactSector).usedBitmap
                  start
              else (ofSector (card (contactRaw physSector)) : ContactSector).usedBitmap)).take
                (n - read.length)).map fun position =>
                  arrayGet (ofSector (card (contactRaw physSector)) : ContactSector).contacts
                    position .zero := ⟨_, rfl⟩
          have step : (n ≤ after.length → ∀ sectors, ListLeft card n target sectors after) ∧
              (¬n ≤ after.length → ListLeft card n target rest after) := by
            rcases left with
              ⟨begin_, _, _, restEq, whole⟩ | ⟨notFirst, ⟨room, whole⟩ | ⟨full, listed⟩⟩
            · obtain ⟨rfl, rfl⟩ := Prod.mk.inj begin_
              obtain ⟨rfl, rfl⟩ := List.cons_eq_cons.mp restEq
              rw [if_pos rfl, set_bits_clear_to _ (by omega), header_slots slots] at gathered
              have room : ([] : List Contact).length ≤ n := Nat.zero_le n
              refine list_gathers (fun position member => ?_) room whole gathered
              exact (mem_places.mp (List.mem_of_mem_filter member)).1
            · dsimp only at notFirst
              rw [notFirst, if_neg Bool.false_ne_true, header_slots slots] at gathered
              refine list_gathers (fun position member => (mem_places.mp member).1) room ?_ gathered
              rw [whole, List.flatMap_cons]
              rfl
            · dsimp only at full listed
              rw [Nat.sub_eq_zero_of_le full, List.take_zero, List.map_nil, List.append_nil]
                at gathered
              rw [gathered]
              exact ⟨fun _ _ => Or.inr ⟨full, listed⟩, fun few => absurd full few⟩
          rw [← gathered]
          by_cases many : n ≤ after.length
          · rw [if_pos many]
            refine Or.inr (Or.inl ⟨(false, after), rfl, fun sectors suffix => ⟨?_, ?_⟩⟩)
            · exact fun other member => later other (suffix.subset member)
            · exact Or.inr ⟨rfl, step.1 many sectors⟩
          · rw [if_neg many]
            exact Or.inr (Or.inr ⟨(false, after), rfl, later, Or.inr ⟨rfl, step.2 many⟩⟩)

/-- The list from a slot whose sector is in use, with the visits that `left` and `returns`
describe. -/
theorem list_from_run {slot physSector : Nat} (sector : slot / 6 = physSector)
    (inside : physSector < totalContactSectorSize)
    {left : List Nat → Bool × List Contact → Prop} {returns : StrgRet × List Contact → Prop}
    (keeps : VisitKeeps lost db card (listContactVisit (slot % 6) n) left returns)
    (begins : left (usedFrom db.usageBitmap totalContactSectorSize physSector) (true, []))
    {start : Nat}
    (count : lossy lost (getNthContactIndex start) db card = ((slot, db), [])) :
    ∃ result, lossy lost (hashGetContactListByUsage start n) db card = ((result, db), []) ∧
      (returns result ∨ result.1 = .strgOk ∧ ∃ first, left [] (first, result.2)) := by
  have capacity : contactSectorCapacity = 6 := by simp
  have bound : physSector < 1667 := by simpa using inside
  have startSector : (contactDataStartSector + slot) / contactSectorCapacity = physSector := by
    rw [capacity, ← sector]
    simp
  have word : usageBitmapFindIndex physSector ≤ 52 := by
    simp
    omega
  have place : usageBitmapWordToIndex (usageBitmapFindIndex physSector) +
      usageBitmapFindBit physSector = physSector := by
    simp
    omega
  have words : usageBitmapFindIndex totalContactSectorSize + 1 - usageBitmapFindIndex physSector =
      (52 - usageBitmapFindIndex physSector) + 1 := by
    have last : usageBitmapFindIndex totalContactSectorSize = 52 := rfl
    omega
  have none_ : usedFrom db.usageBitmap totalContactSectorSize (usageBitmapWordToIndex
      (usageBitmapFindIndex physSector + 1 + (52 - usageBitmapFindIndex physSector))) = [] := by
    rw [show usageBitmapFindIndex physSector + 1 + (52 - usageBitmapFindIndex physSector) = 53 by
      omega]
    exact upward_past (by decide)
  rw [← place] at begins
  have bit : usageBitmapFindBit physSector < 32 := Nat.mod_lt _ (by decide)
  have ends := walk_words_run keeps bit (usage_index_covered physSector)
    (52 - usageBitmapFindIndex physSector) begins
  rw [none_] at ends
  unfold hashGetContactListByUsage
  rw [lossy_bind_read count]
  dsimp only
  rw [startSector, contact_limit, words, capacity]
  rcases ends with ⟨result, run, done⟩ | ⟨⟨first, read⟩, run, done⟩
  · refine ⟨result, ?_, Or.inl done⟩
    rw [lossy_bind_read run]
    rfl
  · refine ⟨(.strgOk, read), ?_, Or.inr ⟨rfl, first, done⟩⟩
    rw [lossy_bind_read run]
    rfl

theorem list_found_run (formed : HeadersFormed db.usageBitmap card) {start slot : Nat}
    (count : lossy lost (getNthContactIndex start) db card = ((slot, db), []))
    (found : CountFinds lost db.usageBitmap card start slot) :
    (setSlots db.usageBitmap card)[start]? = some slot ∧
      ∃ result, lossy lost (hashGetContactListByUsage start n) db card = ((result, db), []) ∧
        (result.1 = .strgOk → result.2 =
          (((setSlots db.usageBitmap card).drop start).take n).map (slotContact card)) := by
  obtain ⟨passed, physSector, rest, position, given, _, at_, rfl⟩ := found
  obtain ⟨inside, used⟩ := given.next
  have below : position < 6 := (mem_places.mp (List.mem_of_getElem? at_)).1
  have order := given.few
  have slots : setSlots db.usageBitmap card = passed.flatMap (sectorSlots card) ++
      (sectorSlots card physSector ++ rest.flatMap (sectorSlots card)) := by
    rw [set_slots_sectors, given.whole, List.flatMap_append, List.flatMap_cons]
  obtain ⟨rank, rankEq⟩ : ∃ rank, rank = start - (passed.flatMap (sectorSlots card)).length :=
    ⟨_, rfl⟩
  rw [← rankEq] at at_
  have short : rank < (sectorSlots card physSector).length := by
    rw [sectorSlots, List.length_map]
    exact (List.getElem?_eq_some_iff.mp at_).1
  have here : (sectorSlots card physSector)[rank]? = some (physSector * 6 + position) := by
    rw [sectorSlots, List.getElem?_map, at_]
    rfl
  have behind : (setSlots db.usageBitmap card).drop start =
      (((places (ofSector (card (contactRaw physSector)) :
        ContactSector).usedBitmap.getLsbD 6).filter fun other => decide (position ≤ other)).map
          (physSector * 6 + ·)) ++ rest.flatMap (sectorSlots card) := by
    rw [slots, List.drop_append, List.drop_eq_nil_of_le order, List.nil_append, ← rankEq,
      List.drop_append_of_le_length (Nat.le_of_lt short), sectorSlots, ← List.map_drop,
      drop_eq_filter (places_sorted _ _) at_]
  constructor
  · rw [slots, List.getElem?_append_right order, ← rankEq, List.getElem?_append_left short, here]
  · have sectors : usedFrom db.usageBitmap totalContactSectorSize physSector =
        physSector :: rest := upward_split given.whole
    have sector : (physSector * 6 + position) / 6 = physSector := by omega
    have modulo : (physSector * 6 + position) % 6 = position := by omega
    have begins : ListBegins card ((physSector * 6 + position) % 6)
        (((setSlots db.usageBitmap card).drop start).map (slotContact card))
        (usedFrom db.usageBitmap totalContactSectorSize physSector) := by
      refine ⟨physSector, rest, sectors, ?_⟩
      rw [modulo, behind]
    obtain ⟨result, run, done⟩ := list_from_run sector inside
      (list_visit formed (Nat.mod_lt _ (by decide)) _)
      ⟨fun other member => (mem_upward.mp member).2, Or.inl ⟨rfl, begins⟩⟩ count
    refine ⟨result, run, fun ok => ?_⟩
    rw [List.map_take]
    rcases done with wrong | ⟨_, first, _, left⟩
    · exact absurd ok wrong
    · rcases left with ⟨_, _, _, none_, _⟩ | ⟨_, ⟨few, whole⟩ | ⟨_, listed⟩⟩
      · cases none_
      · rw [List.flatMap_nil, List.map_nil, List.append_nil] at whole
        rw [whole, List.take_of_length_le few]
      · exact listed

theorem list_end_run {start : Nat}
    (count : lossy lost (getNthContactIndex start) db card = ((uint16Max, db), [])) :
    lossy lost (hashGetContactListByUsage start n) db card = (((.strgOk, []), db), []) := by
  unfold hashGetContactListByUsage
  rw [lossy_bind_read count]
  rfl

/-- A list that starts in the first sector fails when it cannot be read. -/
theorem list_blocked_run {start slot : Nat} (low : slot < 6)
    (used : usageBit db.usageBitmap 0 = true)
    (unread : lost (contactRaw 0) = true ∨ sectorCrcValid (card (contactRaw 0)) = false)
    (count : lossy lost (getNthContactIndex start) db card = ((slot, db), [])) :
    (lossy lost (hashGetContactListByUsage start n) db card).1.1.1 ≠ .strgOk := by
  have inside : 0 < totalContactSectorSize := by decide
  have keeps : VisitKeeps lost db card (listContactVisit (slot % 6) n)
      (fun rest _ => ∃ later, rest = 0 :: later) (fun result => result.1 ≠ .strgOk) := by
    rintro _ rest ⟨first, read⟩ ⟨_, same⟩
    obtain ⟨rfl, rfl⟩ := List.cons_eq_cons.mp same
    left
    have answer := @lossy_readSectorAt lost db card 0 inside
    unfold listContactVisit
    dsimp only
    cases gone : lost (contactRaw 0) with
    | true =>
        rw [gone, if_pos rfl] at answer
        refine ⟨(.strgFail, read), ?_, fun same => by cases same⟩
        rw [lossy_bind_read answer]
        rfl
    | false =>
        rw [gone] at unread
        rw [gone, unread.resolve_left Bool.false_ne_true, if_neg Bool.false_ne_true,
          if_neg Bool.false_ne_true] at answer
        refine ⟨(.strgCorrupt, read), ?_, fun same => by cases same⟩
        rw [lossy_bind_read answer]
        rfl
  obtain ⟨result, run, done⟩ := list_from_run (Nat.div_eq_of_lt low) inside keeps
    ⟨_, (upward_step inside).trans (if_pos used)⟩ count
  rw [run]
  rcases done with fails | ⟨_, _, _, none_⟩
  · exact fails
  · cases none_

end Listing

/-- The count gives the slot of contact `start` or the marker, and every list from there that
succeeds is the window of all occupied slots. -/
def StorageOrderListed (lost : Nat → Bool) (db : Database) (card : Card Sector) (start : Nat) :
    Prop :=
  ((lossy lost (getNthContactIndex start) db card).1.1 = uint16Max ∨
    (setSlots db.usageBitmap card)[start]? =
      some (lossy lost (getNthContactIndex start) db card).1.1) ∧
  ∀ n, (lossy lost (hashGetContactListByUsage start n) db card).1.1.1 = .strgOk →
    (lossy lost (hashGetContactListByUsage start n) db card).1.1.2 =
      (((setSlots db.usageBitmap card).drop start).take n).map (slotContact card)

/-- Contact `start` comes before the first used sector that is not countable, or it is what
the count takes it for there: slot 0 at a lost sector, slot 5 at a corrupt one, and none at an
empty one. -/
def StartInOrder (lost : Nat → Bool) (bitmap : UsageBitmap) (card : Card Sector) (start : Nat) :
    Prop :=
  let used := usedFrom bitmap totalContactSectorSize 0
  start < ((used.takeWhile (countable lost card)).flatMap (sectorSlots card)).length ∨
    ∀ physSector rest, used.dropWhile (countable lost card) = physSector :: rest →
      (setSlots bitmap card)[start]? =
        if lost (contactRaw physSector) then some 0
        else if sectorCrcValid (card (contactRaw physSector)) then none
        else some 5

section Order

variable {db : Database} {card : Card Sector} {lost : Nat → Bool} {start : Nat}

theorem Passed.takes {passed rest : List Nat}
    (given : Passed lost db.usageBitmap card start passed rest) :
    (usedFrom db.usageBitmap totalContactSectorSize 0).takeWhile (countable lost card) =
        passed ++ rest.takeWhile (countable lost card) ∧
      (usedFrom db.usageBitmap totalContactSectorSize 0).dropWhile (countable lost card) =
        rest.dropWhile (countable lost card) := by
  rw [given.whole, List.takeWhile_append_of_pos given.counted,
    List.dropWhile_append_of_pos given.counted]
  exact ⟨rfl, rfl⟩

theorem slot_above {physSector slot : Nat} (member : slot ∈ sectorSlots card physSector) :
    physSector * 6 ≤ slot := by
  obtain ⟨position, _, rfl⟩ := List.mem_map.mp member
  exact Nat.le_add_right _ _

/-- A contact in the first six slots is behind counted sectors only if there are none. -/
theorem Passed.first {passed rest : List Nat} {physSector slot : Nat}
    (given : Passed lost db.usageBitmap card start passed (physSector :: rest)) (low : slot < 6)
    (at_ : (setSlots db.usageBitmap card)[start]? = some slot) :
    physSector = 0 ∧ usageBit db.usageBitmap 0 = true := by
  have slots : setSlots db.usageBitmap card = passed.flatMap (sectorSlots card) ++
      (physSector :: rest).flatMap (sectorSlots card) := by
    rw [set_slots_sectors, given.whole, List.flatMap_append]
  rw [slots, List.getElem?_append_right given.few] at at_
  obtain ⟨sector, member, here⟩ := List.mem_flatMap.mp (List.mem_of_getElem? at_)
  have zero : sector = 0 := by
    have above := slot_above here
    omega
  rw [zero] at member
  have ahead : usedFrom db.usageBitmap totalContactSectorSize physSector = physSector :: rest :=
    upward_split given.whole
  rw [← ahead] at member
  obtain ⟨order, _, used⟩ := mem_upward.mp member
  exact ⟨Nat.le_zero.mp order, used⟩

theorem listed_found (formed : HeadersFormed db.usageBitmap card) {result : Nat}
    (count : lossy lost (getNthContactIndex start) db card = ((result, db), []))
    (found : CountFinds lost db.usageBitmap card start result) :
    StorageOrderListed lost db card start ∧ StartInOrder lost db.usageBitmap card start := by
  constructor
  · unfold StorageOrderListed
    rw [count]
    constructor
    · exact Or.inr (@list_found_run db card lost 0 formed start result count found).1
    · intro n ok
      obtain ⟨_, outcome, run, window⟩ := @list_found_run db card lost n formed start result count
        found
      rw [run] at ok ⊢
      exact window ok
  · obtain ⟨passed, physSector, rest, position, given, counts, at_, _⟩ := found
    have order := given.few
    have short : start - (passed.flatMap (sectorSlots card)).length <
        (sectorSlots card physSector).length := by
      rw [sectorSlots, List.length_map]
      exact (List.getElem?_eq_some_iff.mp at_).1
    left
    rw [given.takes.1, List.takeWhile_cons_of_pos counts, List.flatMap_append, List.flatMap_cons,
      List.length_append, List.length_append]
    omega

theorem listed_end (count : lossy lost (getNthContactIndex start) db card = ((uint16Max, db), [])) :
    StorageOrderListed lost db card start ↔ (setSlots db.usageBitmap card)[start]? = none := by
  unfold StorageOrderListed
  rw [count, List.getElem?_eq_none_iff]
  constructor
  · intro listed
    have one := listed.2 1
    rw [list_end_run count] at one
    have none_ := congrArg List.length (one rfl)
    simp only [List.length_nil, List.length_map, List.length_take, List.length_drop] at none_
    omega
  · intro past
    refine ⟨Or.inl rfl, fun n _ => ?_⟩
    rw [list_end_run count, List.drop_eq_nil_of_le past, List.take_nil]
    rfl

theorem listed_broken {passed rest : List Nat} {physSector : Nat}
    (given : Passed lost db.usageBitmap card start passed (physSector :: rest))
    (unread : lost (contactRaw physSector) = true ∨
      sectorCrcValid (card (contactRaw physSector)) = false) {slot : Nat} (low : slot < 6)
    (count : lossy lost (getNthContactIndex start) db card = ((slot, db), [])) :
    StorageOrderListed lost db card start ↔
      (setSlots db.usageBitmap card)[start]? = some slot := by
  constructor
  · intro listed
    have index := listed.1
    rw [count] at index
    rcases index with marker | at_
    · have marked : slot = 65535 := marker
      omega
    · exact at_
  · intro at_
    obtain ⟨rfl, used⟩ := given.first low at_
    unfold StorageOrderListed
    rw [count]
    exact ⟨Or.inr at_, fun n ok => absurd ok (list_blocked_run low used unread count)⟩

/-- The list in storage order is right exactly if its start is in order. -/
theorem storage_order_listed_iff (formed : HeadersFormed db.usageBitmap card) :
    StorageOrderListed lost db card start ↔ StartInOrder lost db.usageBitmap card start := by
  obtain ⟨result, count, found | ⟨passed, physSector, rest, given, uncounted, rfl⟩ |
    ⟨rfl, passed, given⟩⟩ := @nth_contact_run db card lost start formed
  · obtain ⟨listed, order⟩ := listed_found formed count found
    exact iff_of_true listed order
  · have order : StartInOrder lost db.usageBitmap card start ↔
        (setSlots db.usageBitmap card)[start]? =
          if lost (contactRaw physSector) then some 0
          else if sectorCrcValid (card (contactRaw physSector)) then none
          else some 5 := by
      have none_ : ¬countable lost card physSector = true := by
        rw [uncounted]
        exact Bool.false_ne_true
      unfold StartInOrder
      dsimp only
      rw [given.takes.1, given.takes.2, List.takeWhile_cons_of_neg none_,
        List.dropWhile_cons_of_neg none_, List.append_nil]
      constructor
      · rintro (before | answer)
        · exact absurd given.few (Nat.not_le.mpr before)
        · exact answer physSector rest rfl
      · intro answer
        refine Or.inr fun other later same => ?_
        obtain ⟨rfl, _⟩ := List.cons_eq_cons.mp same
        exact answer
    rw [order]
    unfold uncountedResult at count
    cases gone : lost (contactRaw physSector) with
    | true =>
        rw [gone, if_pos rfl] at count
        rw [if_pos rfl]
        exact listed_broken given (Or.inl gone) (by decide) count
    | false =>
        rw [gone, if_neg Bool.false_ne_true] at count
        rw [if_neg Bool.false_ne_true]
        cases valid : sectorCrcValid (card (contactRaw physSector)) with
        | true =>
            rw [valid, if_pos rfl] at count
            exact listed_end count
        | false =>
            rw [valid, if_neg Bool.false_ne_true] at count
            exact listed_broken given (Or.inr valid) (by decide) count
  · have past : (setSlots db.usageBitmap card)[start]? = none := by
      rw [List.getElem?_eq_none_iff, set_slots_sectors, given.whole, List.append_nil]
      exact given.few
    refine iff_of_true ((listed_end count).mpr past) (Or.inr fun physSector rest same => ?_)
    rw [given.takes.2] at same
    cases same

end Order

/-- A contact in slot 0 and one in slot 6. -/
def exampleOrderCard : Card Sector := fun raw =>
  if raw = contactRaw 0 then
    sectorCrcStamp (toSector (ContactSector.zero.put 0 (createContact [65#8] [49#8])))
  else sectorCrcStamp (toSector (ContactSector.zero.put 0 (createContact [66#8] [50#8])))

def exampleOrdered : Database :=
  { blankDatabase with usageBitmap := setUsageBit (setUsageBit .zero 0 true) 1 true }

/-- The second contact sector cannot be read. -/
def secondLost (raw : Nat) : Bool := raw == contactRaw 1

theorem example_order_used :
    usedFrom exampleOrdered.usageBitmap totalContactSectorSize 0 = [0, 1] := by
  have bits : ∀ physSector, usageBit exampleOrdered.usageBitmap physSector =
      (decide (physSector = 1) || decide (physSector = 0)) := by
    intro physSector
    simp only [exampleOrdered, usage_bit_set]
    by_cases second : physSector = 1
    · rw [if_pos second, decide_eq_true second, Bool.true_or]
    · rw [if_neg second, decide_eq_false second, Bool.false_or]
      by_cases first : physSector = 0
      · rw [if_pos first, decide_eq_true first]
      · rw [if_neg first, decide_eq_false first]
        simp [usage_bit_eq, UsageBitmap.zero]
  have behind : upward (usageBit exampleOrdered.usageBitmap) totalContactSectorSize 2 = [] := by
    apply upward_nil
    intro other above _
    rw [bits, decide_eq_false (by omega), decide_eq_false (by omega)]
    rfl
  unfold usedFrom
  rw [upward_step (by decide), if_pos (by rw [bits]; rfl), upward_step (by decide),
    if_pos (by rw [bits]; rfl), behind]

theorem example_order_sector {physSector : Nat} (inside : physSector = 0 ∨ physSector = 1) :
    sectorCrcValid (exampleOrderCard (contactRaw physSector)) = true ∧
      (ofSector (exampleOrderCard (contactRaw physSector)) : ContactSector).usedBitmap = 1#8 := by
  obtain ⟨record, content⟩ : ∃ record, exampleOrderCard (contactRaw physSector) =
      sectorCrcStamp (toSector (ContactSector.zero.put 0 record)) := by
    rcases inside with rfl | rfl
    · exact ⟨_, if_pos rfl⟩
    · exact ⟨_, if_neg (by decide)⟩
  rw [content, of_sector_stamp, of_to_sector]
  exact ⟨stamp_valid _, rfl⟩

theorem example_order_slots {physSector : Nat} (inside : physSector = 0 ∨ physSector = 1) :
    sectorSlots exampleOrderCard physSector = [physSector * 6] := by
  rw [sectorSlots, (example_order_sector inside).2]
  rfl

theorem example_order_formed :
    HeadersFormed exampleOrdered.usageBitmap exampleOrderCard := by
  intro physSector inside used _ position above
  have member : physSector ∈ [0, 1] := by
    rw [← example_order_used]
    exact mem_upward.mpr ⟨Nat.zero_le _, inside, used⟩
  rw [(example_order_sector (by simpa using member)).2, BitVec.getLsbD_one,
    decide_eq_false (show ¬position = 0 by omega), Bool.and_false]

theorem example_order_countable :
    countable secondLost exampleOrderCard 0 = true ∧
      countable secondLost exampleOrderCard 1 = false := by
  unfold countable
  rw [(example_order_sector (Or.inl rfl)).1, example_order_slots (Or.inl rfl)]
  exact ⟨rfl, rfl⟩

/-- Of the two sectors the first is counted and the second is not. -/
theorem example_order_passed {passed rest : List Nat} {physSector : Nat}
    (given : Passed secondLost exampleOrdered.usageBitmap exampleOrderCard 1 passed
      (physSector :: rest)) :
    (passed = [] ∧ physSector = 0) ∨ (passed = [0] ∧ physSector = 1) := by
  have whole := given.whole
  rw [example_order_used] at whole
  cases passed with
  | nil =>
      obtain ⟨rfl, _⟩ := List.cons_eq_cons.mp whole
      exact Or.inl ⟨rfl, rfl⟩
  | cons first passed =>
      obtain ⟨rfl, behind⟩ := List.cons_eq_cons.mp whole
      cases passed with
      | nil =>
          obtain ⟨rfl, _⟩ := List.cons_eq_cons.mp behind
          exact Or.inr ⟨rfl, rfl⟩
      | cons second passed =>
          obtain ⟨_, none_⟩ := List.cons_eq_cons.mp behind
          have length := congrArg List.length none_
          simp at length

theorem example_order_count : lossy secondLost (getNthContactIndex 1) exampleOrdered
    exampleOrderCard = ((0, exampleOrdered), []) := by
  obtain ⟨first, second⟩ := example_order_countable
  obtain ⟨result, run, found | breaks | ⟨_, passed, given⟩⟩ :=
    @nth_contact_run exampleOrdered exampleOrderCard secondLost 1 example_order_formed
  · obtain ⟨passed, physSector, rest, position, given, counts, at_, _⟩ := found
    rcases example_order_passed given with ⟨rfl, rfl⟩ | ⟨rfl, rfl⟩
    · rw [(example_order_sector (Or.inl rfl)).2] at at_
      cases at_
    · rw [second] at counts
      cases counts
  · obtain ⟨passed, physSector, rest, given, uncounted, rfl⟩ := breaks
    rcases example_order_passed given with ⟨rfl, rfl⟩ | ⟨rfl, rfl⟩
    · rw [first] at uncounted
      cases uncounted
    · exact run
  · have whole := given.whole
    rw [example_order_used, List.append_nil] at whole
    have member : 1 ∈ passed := by
      rw [← whole]
      exact List.mem_cons_of_mem _ List.mem_cons_self
    have counts := given.counted 1 member
    rw [second] at counts
    cases counts

theorem storage_order_listed_first :
    StorageOrderListed secondLost exampleOrdered exampleOrderCard 0 := by
  apply (storage_order_listed_iff example_order_formed).mpr
  left
  rw [example_order_used, List.takeWhile_cons_of_pos example_order_countable.1, List.flatMap_cons,
    example_order_slots (Or.inl rfl)]
  exact Nat.succ_pos _

theorem example_order_visit :
    lossy secondLost (listContactVisit 0 1 0 (true, [])) exampleOrdered exampleOrderCard =
      ((.leave (false, [createContact [65#8] [49#8]]), exampleOrdered), []) := by
  have read := @lossy_readSectorAt secondLost exampleOrdered exampleOrderCard 0 (by decide)
  rw [(example_order_sector (Or.inl rfl)).1, if_neg (by decide), if_pos rfl] at read
  have content : exampleOrderCard (contactRaw 0) =
      sectorCrcStamp (toSector (ContactSector.zero.put 0 (createContact [65#8] [49#8]))) :=
    if_pos rfl
  unfold listContactVisit
  dsimp only
  rw [lossy_bind_read read]
  dsimp only
  rw [content, of_sector_stamp, of_to_sector]
  rfl

/-- The count at the lost sector gives slot 0, and the list starts there. -/
theorem storage_order_lost_sector :
    setSlots exampleOrdered.usageBitmap exampleOrderCard = [0, 6] ∧
      lossy secondLost (getNthContactIndex 1) exampleOrdered exampleOrderCard =
        ((0, exampleOrdered), []) ∧
      lossy secondLost (hashGetContactListByUsage 1 1) exampleOrdered exampleOrderCard =
        (((.strgOk, [createContact [65#8] [49#8]]), exampleOrdered), []) ∧
      ¬StorageOrderListed secondLost exampleOrdered exampleOrderCard 1 := by
  have slots : setSlots exampleOrdered.usageBitmap exampleOrderCard = [0, 6] := by
    rw [set_slots_sectors, example_order_used, List.flatMap_cons, List.flatMap_cons,
      example_order_slots (Or.inl rfl), example_order_slots (Or.inr rfl)]
    rfl
  refine ⟨slots, example_order_count, ?_, ?_⟩
  · have word : lossy secondLost (walkBits totalContactSectorSize (listContactVisit 0 1) 0 32
        (exampleOrdered.usageBitmap.word 0) (true, [])) exampleOrdered exampleOrderCard =
          ((.ok (false, [createContact [65#8] [49#8]]), exampleOrdered), []) := by
      have lowest : ctz (exampleOrdered.usageBitmap.word 0) = 0 := by decide
      rw [walkBits, if_neg (by decide)]
      dsimp only
      rw [lowest, if_neg (by decide)]
      exact lossy_bind_read example_order_visit
    have past : usedFrom exampleOrdered.usageBitmap totalContactSectorSize
        (usageBitmapWordToIndex 1) = [] := by
      have suffix := @used_from_suffix totalContactSectorSize exampleOrdered.usageBitmap 2
        (usageBitmapWordToIndex 1) (by decide)
      have none_ : usedFrom exampleOrdered.usageBitmap totalContactSectorSize 2 = [] :=
        (upward_cons (upward_cons example_order_used).2.2.2.2.symm).2.2.2.2.symm
      rw [none_] at suffix
      exact List.suffix_nil.mp suffix
    have later := @walk_later_words_run (StrgRet × List Contact) _ exampleOrdered exampleOrderCard
      secondLost totalContactSectorSize (listContactVisit 0 1)
      (fun rest gathered => rest = [] ∧ gathered = (false, [createContact [65#8] [49#8]]))
      (fun _ => False) (fun _ _ _ impossible => by cases impossible.1) 0 0 52 1 _
      (Nat.succ_pos 0) ⟨past, rfl⟩
    obtain ⟨_, _, impossible⟩ | ⟨_, rest, _, rfl⟩ := later
    · exact impossible.elim
    · have words : lossy secondLost (walkWords totalContactSectorSize 0 0 (listContactVisit 0 1)
          (52 + 1) 0 (true, [])) exampleOrdered exampleOrderCard =
            ((.ok (false, [createContact [65#8] [49#8]]), exampleOrdered), []) := by
        rw [walkWords, if_neg (by decide), lossy_bind_read (lossy_get _ _)]
        dsimp only
        rw [if_neg (by decide), lossy_bind_read word]
        exact rest
      unfold hashGetContactListByUsage
      rw [lossy_bind_read example_order_count]
      exact lossy_bind_read words
  · intro listed
    have index := listed.1
    rw [example_order_count, slots] at index
    rcases index with marker | at_
    · cases marker
    · cases at_

end SdDatabase
