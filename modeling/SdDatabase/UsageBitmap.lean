import SdDatabase.State
import SdDatabase.Lib.BitScan

/-!
# Usage bitmap

`usage_bitmap.c`: one bit for every contact and message sector, kept as a flat
array of words in memory and mirrored on the card sector by sector. The last
word of every bitmap sector is its checksum trailer and holds no usage bits.
-/

namespace SdDatabase

open Bytes Device BitScan

set_option autoImplicit false

/-- The bytes of one bitmap sector of the array in memory. -/
def bitmapSector (bitmap : UsageBitmap) (sector : Nat) : Sector where
  bytes := (List.ofFn fun element : Fin 128 =>
    word32.encode (bitmap.word (sector * elementsPerSector + element))).flatten
  size := by
    rw [flatten_constant_length 4]
    · rw [List.length_ofFn]
      rfl
    · intro block member
      obtain ⟨element, rfl⟩ := List.mem_ofFn.mp member
      exact word32.encode_length _

def UsageBitmap.zero : UsageBitmap := ⟨fun _ => 0#32⟩

def UsageBitmap.setWord (bitmap : UsageBitmap) (index : Nat) (value : BitVec 32) : UsageBitmap :=
  ⟨Function.update bitmap.word index value⟩

/-- `sector_crc_stamp` on a bitmap sector in memory: its last word is replaced. -/
def stampBitmap (bitmap : UsageBitmap) (sector : Nat) : UsageBitmap :=
  bitmap.setWord (sector * elementsPerSector + usageWordsPerSector)
    (crc32Calculate (bitmapSector bitmap sector).payload)

/-- Words of a bitmap sector read from the card into the array. -/
def loadBitmap (bitmap : UsageBitmap) (sector : Nat) (content : Sector) : UsageBitmap where
  word index :=
    if index / elementsPerSector = sector then
      word32.decode (content.bytes.drop (index % elementsPerSector * bytesPerElement))
    else bitmap.word index

def usageBit (bitmap : UsageBitmap) (dataSector : Nat) : Bool :=
  (bitmap.word (usageBitmapFindIndex dataSector) >>> usageBitmapFindBit dataSector).getLsbD 0

def assignUsageBit (bitmap : UsageBitmap) (dataSector : Nat) (used : Bool) : UsageBitmap :=
  let index := usageBitmapFindIndex dataSector
  let mask := 1#32 <<< usageBitmapFindBit dataSector
  bitmap.setWord index (if used then bitmap.word index ||| mask else bitmap.word index &&& ~~~mask)

def writeBitmapSectors : List Nat → DbM Bool
  | [] => return true
  | sector :: rest => do
      let db ← get
      if ← writeBlock (usageBitmapStartSector + sector) (bitmapSector db.usageBitmap sector) then
        writeBitmapSectors rest
      else return false

/-- `init_usage_bitmap`; the multi-block write goes sector by sector. -/
def initUsageBitmap : DbM Bool := do
  modify fun db =>
    { db with
      usageBitmap := (List.range usageBitmapSectorSize).foldl stampBitmap .zero }
  writeBitmapSectors (List.range usageBitmapSectorSize)

/-- The multi-block read of `read_usage_bitmap`. -/
def readBitmapSectors : List Nat → DbM Bool
  | [] => return true
  | sector :: rest => do
      match ← readBlock (usageBitmapStartSector + sector) with
      | none => return false
      | some content =>
          modify fun db => { db with usageBitmap := loadBitmap db.usageBitmap sector content }
          readBitmapSectors rest

def readUsageBitmap : DbM Bool := do
  if ← readBitmapSectors (List.range usageBitmapSectorSize) then
    let db ← get
    return (List.range usageBitmapSectorSize).all fun sector =>
      sectorCrcValid (bitmapSector db.usageBitmap sector)
  else return false

def checkUsageBit (dataSector : Nat) : DbM Bool := do
  return usageBit (← get).usageBitmap (u16 dataSector)

def updateUsageBit (dataSector : Nat) (usedState : Bool) : DbM StrgRet := do
  let index := u16 dataSector
  let sector := usageBitmapFindSector index
  let prevBitVal := usageBit (← get).usageBitmap index
  modify fun db =>
    { db with usageBitmap := stampBitmap (assignUsageBit db.usageBitmap index usedState) sector }
  let db ← get
  if ← writeBlock (usageBitmapStartSector + sector) (bitmapSector db.usageBitmap sector) then
    return .strgOk
  else
    -- the bit goes back only when this call changed it
    if prevBitVal != usedState then
      modify fun db =>
        { db with
          usageBitmap := stampBitmap (assignUsageBit db.usageBitmap index (!usedState)) sector }
    return .strgFail

/-- Words `first, first + 1, ...` of the scan of `get_next_bit`. -/
def nextBitFrom (bitmap : UsageBitmap) (firstWord firstBit : Nat) : Nat → Nat → Nat
  | 0, _ => uint16Max
  | count + 1, word =>
      if usageBitmapIsCrcWord word then nextBitFrom bitmap firstWord firstBit count (word + 1)
      else
        let bits :=
          if word = firstWord ∧ 0 < firstBit then clearBitsTo (bitmap.word word) firstBit
          else bitmap.word word
        if bits ≠ 0#32 then u16 (usageBitmapWordToIndex word + ctz bits)
        else nextBitFrom bitmap firstWord firstBit count (word + 1)

def getNextBit (bitmap : UsageBitmap) (curInd limInd : Nat) : Nat :=
  let firstWord := usageBitmapFindIndex curInd
  let lastWord := usageBitmapFindIndex limInd
  nextBitFrom bitmap firstWord (usageBitmapFindBit curInd) (lastWord + 1 - firstWord) firstWord

theorem bitmap_sector_bytes (bitmap : UsageBitmap) (sector : Nat) :
    (bitmapSector bitmap sector).bytes =
      (List.ofFn fun element : Fin 127 =>
        word32.encode (bitmap.word (sector * 128 + element))).flatten ++
      word32.encode (bitmap.word (sector * 128 + 127)) := by
  have words := List.ofFn_succ_last (f := fun element : Fin 128 =>
    word32.encode (bitmap.word (sector * 128 + element)))
  calc
    (bitmapSector bitmap sector).bytes =
        (List.ofFn fun element : Fin 128 =>
          word32.encode (bitmap.word (sector * 128 + element))).flatten := rfl
    _ = _ := by
      rw [words, List.flatten_append, List.flatten_singleton]
      rfl

private theorem leading_words_length (bitmap : UsageBitmap) (sector : Nat) :
    (List.ofFn fun element : Fin 127 =>
      word32.encode (bitmap.word (sector * 128 + element))).flatten.length = 508 := by
  rw [flatten_constant_length 4]
  · rw [List.length_ofFn]
  · intro block member
    obtain ⟨element, rfl⟩ := List.mem_ofFn.mp member
    exact word32.encode_length _

theorem bitmap_sector_payload (bitmap : UsageBitmap) (sector : Nat) :
    (bitmapSector bitmap sector).payload =
      (List.ofFn fun element : Fin 127 =>
        word32.encode (bitmap.word (sector * 128 + element))).flatten := by
  rw [Sector.payload, bitmap_sector_bytes]
  exact List.take_left' (leading_words_length bitmap sector)

theorem bitmap_sector_trailer (bitmap : UsageBitmap) (sector : Nat) :
    (bitmapSector bitmap sector).trailer = word32.encode (bitmap.word (sector * 128 + 127)) := by
  rw [Sector.trailer, bitmap_sector_bytes]
  exact List.drop_left' (leading_words_length bitmap sector)

/-- A bitmap sector depends on its own words only. -/
theorem bitmap_sector_congr {first second : UsageBitmap} {sector : Nat}
    (same : ∀ element < 128, first.word (sector * 128 + element) =
      second.word (sector * 128 + element)) :
    bitmapSector first sector = bitmapSector second sector := by
  apply Sector.ext
  simp only [bitmapSector]
  congr 2
  funext element
  exact congrArg word32.encode (same element element.isLt)

theorem stamp_word_trailer (bitmap : UsageBitmap) (sector : Nat) :
    (stampBitmap bitmap sector).word (sector * 128 + 127) =
      crc32Calculate (bitmapSector bitmap sector).payload :=
  Function.update_self _ _ _

theorem stamp_word_other (bitmap : UsageBitmap) (sector word : Nat)
    (other : word ≠ sector * 128 + 127) :
    (stampBitmap bitmap sector).word word = bitmap.word word :=
  Function.update_of_ne other _ _

theorem bitmap_sector_stamp (bitmap : UsageBitmap) (sector : Nat) :
    bitmapSector (stampBitmap bitmap sector) sector =
      sectorCrcStamp (bitmapSector bitmap sector) := by
  have leading : (List.ofFn fun element : Fin 127 =>
      word32.encode ((stampBitmap bitmap sector).word (sector * 128 + element))) =
      List.ofFn fun element : Fin 127 =>
        word32.encode (bitmap.word (sector * 128 + element)) := by
    congr 1
    funext element
    rw [stamp_word_other]
    have bound := element.isLt
    omega
  apply Sector.ext
  rw [bitmap_sector_bytes, leading, stamp_word_trailer]
  simp only [sectorCrcStamp, bitmap_sector_payload]
  rfl

theorem bitmap_sector_stamp_other (bitmap : UsageBitmap) {stamped sector : Nat}
    (other : sector ≠ stamped) :
    bitmapSector (stampBitmap bitmap stamped) sector = bitmapSector bitmap sector := by
  apply bitmap_sector_congr
  intro element bound
  apply stamp_word_other
  omega

theorem stamp_bitmap_of_valid {bitmap : UsageBitmap} {sector : Nat}
    (valid : sectorCrcValid (bitmapSector bitmap sector) = true) :
    stampBitmap bitmap sector = bitmap := by
  have stored : bitmap.word (sector * 128 + 127) =
      crc32Calculate (bitmapSector bitmap sector).payload := by
    have trailer := bitmap_sector_trailer bitmap sector
    have decoded : fromLittleEndian (word32.encode (bitmap.word (sector * 128 + 127))) =
        (bitmap.word (sector * 128 + 127)).toNat := by
      simp only [word32, word, from_to_little_endian]
      exact Nat.mod_eq_of_lt (by simpa using (bitmap.word (sector * 128 + 127)).isLt)
    simp only [sectorCrcValid, trailer, decoded, beq_iff_eq] at valid
    exact BitVec.eq_of_toNat_eq valid
  apply UsageBitmap.ext
  funext word
  by_cases last : word = sector * 128 + 127
  · rw [last, stamp_word_trailer, stored]
  · exact stamp_word_other bitmap sector word last

theorem bitmap_sector_load (bitmap : UsageBitmap) (sector : Nat) (content : Sector) :
    bitmapSector (loadBitmap bitmap sector content) sector = content := by
  apply Sector.ext
  have words := flatten_words 4 128 content.bytes content.size
  refine Eq.trans ?_ words
  simp only [bitmapSector, loadBitmap, elementsPerSector, sectorSize, bytesPerElement]
  congr 2
  funext element
  have bound := element.isLt
  have quotient : (sector * 128 + element.val) / 128 = sector := by omega
  have remainder : (sector * 128 + element.val) % 128 = element.val := by omega
  simp only [Nat.reduceDiv, quotient, remainder, if_true]
  rfl

theorem bitmap_sector_load_other (bitmap : UsageBitmap) {loaded sector : Nat} (content : Sector)
    (other : sector ≠ loaded) :
    bitmapSector (loadBitmap bitmap loaded content) sector = bitmapSector bitmap sector := by
  apply bitmap_sector_congr
  intro element bound
  have quotient : (sector * 128 + element) / 128 = sector := by omega
  simp [loadBitmap, quotient, other]

theorem usage_bit_eq (bitmap : UsageBitmap) (dataSector : Nat) :
    usageBit bitmap dataSector =
      (bitmap.word (usageBitmapFindIndex dataSector)).getLsbD (usageBitmapFindBit dataSector) := by
  simp [usageBit]

@[simp] theorem usage_bit_stamp (bitmap : UsageBitmap) (sector dataSector : Nat) :
    usageBit (stampBitmap bitmap sector) dataSector = usageBit bitmap dataSector := by
  rw [usage_bit_eq, usage_bit_eq, stamp_word_other]
  simp
  omega

theorem usage_position_injective {first second : Nat}
    (sameWord : usageBitmapFindIndex first = usageBitmapFindIndex second)
    (sameBit : usageBitmapFindBit first = usageBitmapFindBit second) : first = second := by
  simp at sameWord sameBit
  omega

theorem usage_bit_assign (bitmap : UsageBitmap) (dataSector other : Nat) (used : Bool) :
    usageBit (assignUsageBit bitmap dataSector used) other =
      if other = dataSector then used else usageBit bitmap other := by
  have bound : usageBitmapFindBit other < 32 := Nat.mod_lt _ (by decide)
  rw [usage_bit_eq, usage_bit_eq]
  by_cases sameWord : usageBitmapFindIndex other = usageBitmapFindIndex dataSector
  · have assigned : (assignUsageBit bitmap dataSector used).word (usageBitmapFindIndex other) =
        if used then bitmap.word (usageBitmapFindIndex other) ||| 1#32 <<< usageBitmapFindBit dataSector
        else bitmap.word (usageBitmapFindIndex other) &&&
          ~~~(1#32 <<< usageBitmapFindBit dataSector) := by
      rw [sameWord]
      exact Function.update_self _ _ _
    rw [assigned, masked_bit _ _ bound]
    by_cases same : other = dataSector
    · rw [if_pos same, if_pos (by rw [same])]
    · rw [if_neg same, if_neg fun sameBit => same (usage_position_injective sameWord sameBit)]
  · have different : other ≠ dataSector := fun same => sameWord (by rw [same])
    have untouched : (assignUsageBit bitmap dataSector used).word (usageBitmapFindIndex other) =
        bitmap.word (usageBitmapFindIndex other) := Function.update_of_ne sameWord _ _
    rw [if_neg different, untouched]

/-- The bitmap after `update_usage_bit`. -/
def setUsageBit (bitmap : UsageBitmap) (dataSector : Nat) (used : Bool) : UsageBitmap :=
  stampBitmap (assignUsageBit bitmap dataSector used) (usageBitmapFindSector dataSector)

@[simp] theorem usage_bit_set (bitmap : UsageBitmap) (dataSector other : Nat) (used : Bool) :
    usageBit (setUsageBit bitmap dataSector used) other =
      if other = dataSector then used else usageBit bitmap other := by
  rw [setUsageBit, usage_bit_stamp, usage_bit_assign]

theorem assign_sector_other (bitmap : UsageBitmap) (dataSector : Nat) (used : Bool) {sector : Nat}
    (other : sector ≠ usageBitmapFindSector dataSector) :
    bitmapSector (assignUsageBit bitmap dataSector used) sector = bitmapSector bitmap sector := by
  apply bitmap_sector_congr
  intro element bound
  apply Function.update_of_ne
  simp at other ⊢
  omega

theorem set_bitmap_other (bitmap : UsageBitmap) (dataSector : Nat) (used : Bool) {sector : Nat}
    (other : sector ≠ usageBitmapFindSector dataSector) :
    bitmapSector (setUsageBit bitmap dataSector used) sector = bitmapSector bitmap sector := by
  rw [setUsageBit, bitmap_sector_stamp_other _ other, assign_sector_other _ _ _ other]

theorem set_sector_valid (bitmap : UsageBitmap) (dataSector : Nat) (used : Bool) :
    sectorCrcValid (bitmapSector (setUsageBit bitmap dataSector used)
      (usageBitmapFindSector dataSector)) = true := by
  rw [setUsageBit, bitmap_sector_stamp]
  exact stamp_valid _

theorem bitmap_payload_congr {first second : UsageBitmap} {sector : Nat}
    (same : ∀ element < 127, first.word (sector * 128 + element) =
      second.word (sector * 128 + element)) :
    (bitmapSector first sector).payload = (bitmapSector second sector).payload := by
  rw [bitmap_sector_payload, bitmap_sector_payload]
  congr 2
  funext element
  exact congrArg word32.encode (same element element.isLt)

theorem assign_word_of_index {bitmap : UsageBitmap} {dataSector word : Nat} {used : Bool}
    (other : word ≠ usageBitmapFindIndex dataSector) :
    (assignUsageBit bitmap dataSector used).word word = bitmap.word word :=
  Function.update_of_ne other _ _

theorem set_usage_bit_stamped (bitmap : UsageBitmap) (dataSector : Nat) (used : Bool) :
    setUsageBit (stampBitmap bitmap (usageBitmapFindSector dataSector)) dataSector used =
      setUsageBit bitmap dataSector used := by
  have inside : usageBitmapFindIndex dataSector ≠ usageBitmapFindSector dataSector * 128 + 127 := by
    simp
    omega
  have words : ∀ word ≠ usageBitmapFindSector dataSector * 128 + 127,
      (assignUsageBit (stampBitmap bitmap (usageBitmapFindSector dataSector)) dataSector used).word
          word = (assignUsageBit bitmap dataSector used).word word := by
    intro word other
    by_cases assigned : word = usageBitmapFindIndex dataSector
    · rw [assigned]
      simp only [assignUsageBit, UsageBitmap.setWord, Function.update_self,
        stamp_word_other _ _ _ inside]
    · rw [assign_word_of_index assigned, assign_word_of_index assigned,
        stamp_word_other _ _ _ other]
  apply UsageBitmap.ext
  funext word
  unfold setUsageBit
  by_cases trailer : word = usageBitmapFindSector dataSector * 128 + 127
  · rw [trailer, stamp_word_trailer, stamp_word_trailer]
    congr 1
    apply bitmap_payload_congr
    intro element bound
    apply words
    omega
  · rw [stamp_word_other _ _ _ trailer, stamp_word_other _ _ _ trailer, words word trailer]

theorem usage_word_position {word bit : Nat} (covered : usageBitmapIsCrcWord word = false)
    (bound : bit < 32) :
    usageBitmapFindIndex (usageBitmapWordToIndex word + bit) = word ∧
      usageBitmapFindBit (usageBitmapWordToIndex word + bit) = bit := by
  simp at covered ⊢
  omega

theorem usage_index_covered (dataSector : Nat) :
    usageBitmapIsCrcWord (usageBitmapFindIndex dataSector) = false := by
  simp
  omega

/-- `dataSector` is set and at or behind bit `firstBit` of word `firstWord`. -/
def Scanned (bitmap : UsageBitmap) (firstWord firstBit dataSector : Nat) : Prop :=
  usageBit bitmap dataSector = true ∧
    (usageBitmapFindIndex dataSector = firstWord → firstBit ≤ usageBitmapFindBit dataSector)

theorem scanned_word_bit (bitmap : UsageBitmap) {firstWord firstBit word : Nat}
    (firstBound : firstBit < 32) (dataSector : Nat)
    (inWord : usageBitmapFindIndex dataSector = word) :
    (if word = firstWord ∧ 0 < firstBit then clearBitsTo (bitmap.word word) firstBit
      else bitmap.word word).getLsbD (usageBitmapFindBit dataSector) = true ↔
    Scanned bitmap firstWord firstBit dataSector := by
  unfold Scanned
  rw [usage_bit_eq, inWord]
  split
  · rename_i first
    rw [clear_bits_to_bit _ first.2 firstBound, Bool.and_eq_true, decide_eq_true_eq]
    simp only [first.1, forall_true_left]
  · rename_i other
    constructor
    · intro set
      refine ⟨set, fun same => ?_⟩
      have zero : firstBit = 0 := by
        by_contra positive
        exact other ⟨same, Nat.pos_of_ne_zero positive⟩
      rw [zero]
      exact Nat.zero_le _
    · exact fun scanned => scanned.1

theorem next_bit_from_spec (bitmap : UsageBitmap) {firstWord firstBit : Nat}
    (firstBound : firstBit < 32) (count word : Nat) :
    (∃ dataSector, nextBitFrom bitmap firstWord firstBit count word = u16 dataSector ∧
      Scanned bitmap firstWord firstBit dataSector ∧
      word ≤ usageBitmapFindIndex dataSector ∧ usageBitmapFindIndex dataSector < word + count ∧
      ∀ other, Scanned bitmap firstWord firstBit other → word ≤ usageBitmapFindIndex other →
        dataSector ≤ other) ∨
    (nextBitFrom bitmap firstWord firstBit count word = uint16Max ∧
      ∀ other, word ≤ usageBitmapFindIndex other → usageBitmapFindIndex other < word + count →
        ¬Scanned bitmap firstWord firstBit other) := by
  induction count generalizing word with
  | zero =>
      refine Or.inr ⟨rfl, fun other low high => ?_⟩
      omega
  | succ count ih =>
      rw [nextBitFrom]
      by_cases trailer : usageBitmapIsCrcWord word = true
      · rw [if_pos trailer]
        have skipped : ∀ other, word ≤ usageBitmapFindIndex other →
            word + 1 ≤ usageBitmapFindIndex other := by
          intro other low
          have covered := usage_index_covered other
          rcases Nat.eq_or_lt_of_le low with same | above
          · rw [← same, trailer] at covered
            cases covered
          · exact above
        rcases ih (word + 1) with ⟨dataSector, result, scanned, low, high, least⟩ | ⟨result, none_⟩
        · exact Or.inl ⟨dataSector, result, scanned, by omega, by omega,
            fun other found above => least other found (skipped other above)⟩
        · exact Or.inr ⟨result, fun other above below =>
            none_ other (skipped other above) (by omega)⟩
      · have covered : usageBitmapIsCrcWord word = false := by simpa using trailer
        rw [if_neg trailer]
        have inWord := fun dataSector =>
          @scanned_word_bit bitmap firstWord _ word firstBound dataSector
        dsimp only
        generalize (if word = firstWord ∧ 0 < firstBit then
          clearBitsTo (bitmap.word word) firstBit else bitmap.word word) = bits at inWord ⊢
        by_cases empty : bits = 0#32
        · rw [if_neg (not_not.mpr empty)]
          have skipped : ∀ other, Scanned bitmap firstWord firstBit other →
              word ≤ usageBitmapFindIndex other → word + 1 ≤ usageBitmapFindIndex other := by
            intro other found low
            rcases Nat.eq_or_lt_of_le low with same | above
            · have set := (inWord other same.symm).mpr found
              rw [empty] at set
              simp at set
            · exact above
          rcases ih (word + 1) with
            ⟨dataSector, result, scanned, low, high, least⟩ | ⟨result, none_⟩
          · exact Or.inl ⟨dataSector, result, scanned, by omega, by omega,
              fun other found above => least other found (skipped other found above)⟩
          · exact Or.inr ⟨result, fun other above below found =>
              none_ other (skipped other found above) (by omega) found⟩
        · rw [if_pos empty]
          obtain ⟨bound, set, clear⟩ := ctz_spec empty
          obtain ⟨index, bit⟩ := usage_word_position covered bound
          left
          refine ⟨_, rfl, (inWord _ index).mp (by rw [bit]; exact set), by omega, by omega, ?_⟩
          intro other found low
          by_contra smaller
          have sameWord : usageBitmapFindIndex other = word := by
            simp only [usageBitmapFindIndex, usageBitmapFindSector, usageBitmapFindElement] at *
            simp at *
            omega
          have smallerBit : usageBitmapFindBit other < ctz bits := by
            simp at *
            omega
          have otherSet := (inWord other sameWord).mpr found
          rw [clear _ smallerBit] at otherSet
          cases otherSet

/-- `get_next_bit` finds the first set bit from `curInd` on. -/
theorem get_next_bit_spec (bitmap : UsageBitmap) (curInd limInd : Nat) :
    (∃ dataSector, getNextBit bitmap curInd limInd = u16 dataSector ∧
      usageBit bitmap dataSector = true ∧ curInd ≤ dataSector ∧
      usageBitmapFindIndex dataSector ≤ usageBitmapFindIndex limInd ∧
      ∀ other, usageBit bitmap other = true → curInd ≤ other → dataSector ≤ other) ∨
    (getNextBit bitmap curInd limInd = uint16Max ∧
      ∀ other, curInd ≤ other → usageBitmapFindIndex other ≤ usageBitmapFindIndex limInd →
        usageBit bitmap other = false) := by
  have firstBound : usageBitmapFindBit curInd < 32 := Nat.mod_lt _ (by decide)
  have ahead : ∀ other, curInd ≤ other ↔
      (usageBitmapFindIndex curInd ≤ usageBitmapFindIndex other ∧
        (usageBitmapFindIndex other = usageBitmapFindIndex curInd →
          usageBitmapFindBit curInd ≤ usageBitmapFindBit other)) := by
    intro other
    simp
    omega
  unfold getNextBit
  rcases next_bit_from_spec bitmap firstBound
      (usageBitmapFindIndex limInd + 1 - usageBitmapFindIndex curInd)
      (usageBitmapFindIndex curInd) with
    ⟨dataSector, result, scanned, low, high, least⟩ | ⟨result, none_⟩
  · left
    refine ⟨dataSector, result, scanned.1, (ahead dataSector).mpr ⟨low, scanned.2⟩, by omega, ?_⟩
    intro other set above
    have position := (ahead other).mp above
    exact least other ⟨set, position.2⟩ position.1
  · right
    refine ⟨result, fun other above below => ?_⟩
    have position := (ahead other).mp above
    by_contra set
    exact none_ other position.1 (by omega) ⟨by simpa using set, position.2⟩

section UsageBitmapRuns

variable (db : Database) (card : Card Sector)

@[simp] theorem out_checkUsageBit (dataSector : Nat) :
    out (checkUsageBit dataSector) db card =
      ((usageBit db.usageBitmap (u16 dataSector), db), []) := rfl

@[simp] theorem out_updateUsageBit (dataSector : Nat) (used : Bool) :
    out (updateUsageBit dataSector used) db card =
      ((.strgOk, { db with usageBitmap := setUsageBit db.usageBitmap (u16 dataSector) used }),
        [(usageBitmapStartSector + usageBitmapFindSector (u16 dataSector),
          bitmapSector (setUsageBit db.usageBitmap (u16 dataSector) used)
            (usageBitmapFindSector (u16 dataSector)))]) := rfl

/-- `update_usage_bit` up to its only write. -/
theorem exec_updateUsageBit (faults : Faults Sector) (dataSector : Nat) (used : Bool) :
    exec (updateUsageBit dataSector used) db faults card =
      exec (if faults.writes 0 then pure StrgRet.strgOk
        else do
          if usageBit db.usageBitmap (u16 dataSector) != used then
            modify fun db => { db with
              usageBitmap := setUsageBit db.usageBitmap (u16 dataSector) (!used) }
          return .strgFail)
        { db with usageBitmap := setUsageBit db.usageBitmap (u16 dataSector) used }
        faults.afterWrite
        (if faults.writes 0 then Function.update card
          (usageBitmapStartSector + usageBitmapFindSector (u16 dataSector))
          (bitmapSector (setUsageBit db.usageBitmap (u16 dataSector) used)
            (usageBitmapFindSector (u16 dataSector))) else card) := by
  unfold updateUsageBit
  rw [exec_bind_of (exec_get _ _ _), exec_bind_of (exec_modify _ _ _ _),
    exec_bind_of (exec_get _ _ _), exec_bind_of (exec_writeBlock _ _ _ _ _)]
  rfl

end UsageBitmapRuns

end SdDatabase
