import SdDatabase.UsageBitmap
import SdDatabase.Lib.Cursor

/-!
# Scans of the usage bitmap

`get_prev_bit` and the iterator of `usage_bitmap.c`. The scan to the front keeps to
both ends of its range; the scan to the back reads the last word whole, so bits
behind the range are found when there is none in it.
-/

namespace SdDatabase

open BitScan Cursor

set_option autoImplicit false

/-- Words `word, word - 1, ...` of the scan of `get_prev_bit`. -/
def prevBitFrom (bitmap : UsageBitmap) (firstWord firstBit lastWord lastBit : Nat) :
    Nat → Nat → Nat
  | 0, _ => uint16Max
  | count + 1, word =>
      if usageBitmapIsCrcWord word then
        prevBitFrom bitmap firstWord firstBit lastWord lastBit count (word - 1)
      else
        let low :=
          if word = firstWord ∧ firstBit < bitsPerElement - 1 then
            bitmap.word word &&& ((1#32 <<< (firstBit + 1)) - 1#32)
          else bitmap.word word
        let bits :=
          if word = lastWord ∧ 0 < lastBit then low &&& ~~~((1#32 <<< lastBit) - 1#32) else low
        if bits ≠ 0#32 then u16 (usageBitmapWordToIndex word + highestBit bits)
        else prevBitFrom bitmap firstWord firstBit lastWord lastBit count (word - 1)

def getPrevBit (bitmap : UsageBitmap) (curInd limInd : Nat) : Nat :=
  let firstWord := usageBitmapFindIndex limInd
  let lastWord := usageBitmapFindIndex curInd
  prevBitFrom bitmap firstWord (usageBitmapFindBit limInd) lastWord (usageBitmapFindBit curInd)
    (firstWord + 1 - lastWord) firstWord

structure UsageBitmapIterator where
  currBit : Nat
  totalBits : Nat
  totalElems : Nat

def usageBitmapIteratorInit (totalBits totalElems : Nat) : UsageBitmapIterator :=
  ⟨uint16Max, totalBits, totalElems⟩

def usageBitmapIteratorGet (it : UsageBitmapIterator) : Option Nat :=
  if it.currBit = uint16Max then none else some it.currBit

def usageBitmapIteratorNext (bitmap : UsageBitmap) (it : UsageBitmapIterator) :
    Bool × UsageBitmapIterator :=
  if it.totalBits = 0 then (false, { it with currBit := uint16Max })
  else
    let start := if it.currBit = uint16Max then 0 else u16 (it.currBit + 1)
    if it.totalBits ≤ start then (false, { it with currBit := uint16Max })
    else
      let found := getNextBit bitmap start (u16 (it.totalBits - 1))
      (found != uint16Max, { it with currBit := found })

def usageBitmapIteratorPrev (bitmap : UsageBitmap) (it : UsageBitmapIterator) :
    Bool × UsageBitmapIterator :=
  if it.totalBits = 0 then (false, { it with currBit := uint16Max })
  else if it.currBit = 0 then (false, { it with currBit := uint16Max })
  else
    let last := if it.currBit = uint16Max then u16 (it.totalBits - 1) else u16 (it.currBit - 1)
    let found := getPrevBit bitmap 0 last
    (found != uint16Max, { it with currBit := found })

/-- `result` is the first set bit of the range, or the marker. -/
def LeastSetBit (bitmap : UsageBitmap) (curInd limInd result : Nat) : Prop :=
  (usageBit bitmap result = true ∧ curInd ≤ result ∧ result ≤ limInd ∧
    usageBitmapIsCrcWord (usageBitmapFindIndex result) = false ∧
    ∀ index, curInd ≤ index → index ≤ limInd → usageBit bitmap index = true → result ≤ index) ∨
  (result = uint16Max ∧
    ∀ index, curInd ≤ index → index ≤ limInd → usageBit bitmap index = false)

/-- `result` is the last set bit of the range, or the marker. -/
def GreatestSetBit (bitmap : UsageBitmap) (curInd limInd result : Nat) : Prop :=
  (usageBit bitmap result = true ∧ curInd ≤ result ∧ result ≤ limInd ∧
    usageBitmapIsCrcWord (usageBitmapFindIndex result) = false ∧
    ∀ index, curInd ≤ index → index ≤ limInd → usageBit bitmap index = true → index ≤ result) ∨
  (result = uint16Max ∧
    ∀ index, curInd ≤ index → index ≤ limInd → usageBit bitmap index = false)

/-- The word of `limInd` has a set bit behind it. -/
def BitsBehind (bitmap : UsageBitmap) (limInd : Nat) : Prop :=
  ∃ index, limInd < index ∧ usageBitmapFindIndex index = usageBitmapFindIndex limInd ∧
    usageBit bitmap index = true

section Scans

variable (bitmap : UsageBitmap)

/-- A set bit is not behind bit `firstBit` of the first word nor before bit `lastBit` of the
last one. -/
def ScannedBack (firstWord firstBit lastWord lastBit dataSector : Nat) : Prop :=
  usageBit bitmap dataSector = true ∧
    (usageBitmapFindIndex dataSector = firstWord → usageBitmapFindBit dataSector ≤ firstBit) ∧
    (usageBitmapFindIndex dataSector = lastWord → lastBit ≤ usageBitmapFindBit dataSector)

theorem scanned_back_bit {firstWord firstBit lastWord lastBit word dataSector : Nat}
    {low bits : BitVec 32} (lastBound : lastBit < 32)
    (inWord : usageBitmapFindIndex dataSector = word)
    (lowEq : low = if word = firstWord ∧ firstBit < bitsPerElement - 1 then
        bitmap.word word &&& ((1#32 <<< (firstBit + 1)) - 1#32) else bitmap.word word)
    (bitsEq : bits = if word = lastWord ∧ 0 < lastBit then
        low &&& ~~~((1#32 <<< lastBit) - 1#32) else low) :
    bits.getLsbD (usageBitmapFindBit dataSector) = true ↔
      ScannedBack bitmap firstWord firstBit lastWord lastBit dataSector := by
  have short : usageBitmapFindBit dataSector < 32 := Nat.mod_lt _ (by decide)
  have lowBit : low.getLsbD (usageBitmapFindBit dataSector) = true ↔
      usageBit bitmap dataSector = true ∧
        (word = firstWord → usageBitmapFindBit dataSector ≤ firstBit) := by
    rw [usage_bit_eq, inWord, lowEq]
    split
    · rename_i first
      have narrow : firstBit + 1 < 32 := by
        have := first.2
        simp at this
        omega
      rw [keep_low_bit _ narrow, Bool.and_eq_true, decide_eq_true_eq]
      simp only [first.1, forall_true_left, Nat.lt_succ_iff]
    · rename_i other
      constructor
      · intro set
        refine ⟨set, fun same => ?_⟩
        have wide : ¬ firstBit < bitsPerElement - 1 := fun narrow => other ⟨same, narrow⟩
        simp at wide
        omega
      · exact fun found => found.1
  unfold ScannedBack
  rw [bitsEq, inWord]
  split
  · rename_i last
    rw [keep_high_bit _ lastBound, Bool.and_eq_true, decide_eq_true_eq, lowBit, and_assoc]
    simp only [last.1, forall_true_left]
  · rename_i other
    rw [lowBit]
    constructor
    · rintro ⟨set, first⟩
      refine ⟨set, first, fun same => ?_⟩
      have zero : lastBit = 0 := by
        by_contra positive
        exact other ⟨same, Nat.pos_of_ne_zero positive⟩
      rw [zero]
      exact Nat.zero_le _
    · exact fun found => ⟨found.1, found.2.1⟩

/-- What the scan of `count` words from `word` on down may answer. -/
def FoundBack (firstWord firstBit lastWord lastBit count word result : Nat) : Prop :=
  (∃ dataSector, result = u16 dataSector ∧
    ScannedBack bitmap firstWord firstBit lastWord lastBit dataSector ∧
    usageBitmapFindIndex dataSector ≤ word ∧ word < usageBitmapFindIndex dataSector + count ∧
    ∀ other, ScannedBack bitmap firstWord firstBit lastWord lastBit other →
      usageBitmapFindIndex other ≤ word → other ≤ dataSector) ∨
  (result = uint16Max ∧
    ∀ other, usageBitmapFindIndex other ≤ word → word < usageBitmapFindIndex other + count →
      ¬ScannedBack bitmap firstWord firstBit lastWord lastBit other)

variable {bitmap}

theorem FoundBack.pass {firstWord firstBit lastWord lastBit count word result : Nat}
    (rest : FoundBack bitmap firstWord firstBit lastWord lastBit count (word - 1) result)
    (skipped : ∀ other, ScannedBack bitmap firstWord firstBit lastWord lastBit other →
      usageBitmapFindIndex other ≠ word) :
    FoundBack bitmap firstWord firstBit lastWord lastBit (count + 1) word result := by
  rcases rest with ⟨dataSector, same, found, low, high, most⟩ | ⟨same, none_⟩
  · left
    have different := skipped dataSector found
    refine ⟨dataSector, same, found, by omega, by omega, fun other seen below => ?_⟩
    have apart := skipped other seen
    exact most other seen (by omega)
  · right
    refine ⟨same, fun other below above seen => ?_⟩
    have apart := skipped other seen
    exact none_ other (by omega) (by omega) seen

variable (bitmap)

theorem prev_bit_from_spec {firstWord firstBit lastWord lastBit : Nat} (lastBound : lastBit < 32)
    (count word : Nat) :
    FoundBack bitmap firstWord firstBit lastWord lastBit count word
      (prevBitFrom bitmap firstWord firstBit lastWord lastBit count word) := by
  induction count generalizing word with
  | zero =>
      right
      refine ⟨rfl, fun other low high => ?_⟩
      omega
  | succ count ih =>
      by_cases trailer : usageBitmapIsCrcWord word = true
      · rw [prevBitFrom, if_pos trailer]
        apply (ih (word - 1)).pass
        intro other _ same
        have covered := usage_index_covered other
        rw [same, trailer] at covered
        cases covered
      · have covered : usageBitmapIsCrcWord word = false := by simpa using trailer
        obtain ⟨low, lowEq⟩ : ∃ low, low = if word = firstWord ∧ firstBit < bitsPerElement - 1 then
            bitmap.word word &&& ((1#32 <<< (firstBit + 1)) - 1#32) else bitmap.word word :=
          ⟨_, rfl⟩
        obtain ⟨bits, bitsEq⟩ : ∃ bits, bits = if word = lastWord ∧ 0 < lastBit then
            low &&& ~~~((1#32 <<< lastBit) - 1#32) else low := ⟨_, rfl⟩
        have inWord (dataSector : Nat) (place : usageBitmapFindIndex dataSector = word) :=
          scanned_back_bit bitmap lastBound place lowEq bitsEq
        have value : prevBitFrom bitmap firstWord firstBit lastWord lastBit (count + 1) word =
            if bits ≠ 0#32 then u16 (usageBitmapWordToIndex word + highestBit bits)
            else prevBitFrom bitmap firstWord firstBit lastWord lastBit count (word - 1) := by
          rw [prevBitFrom, if_neg trailer, bitsEq, lowEq]
        by_cases empty : bits = 0#32
        · rw [value, if_neg (not_not.mpr empty)]
          apply (ih (word - 1)).pass
          intro other seen same
          have set := (inWord other same).mpr seen
          rw [empty, BitVec.getLsbD_zero] at set
          cases set
        · obtain ⟨bound, set, clear⟩ := highest_bit_spec empty
          obtain ⟨index, bit⟩ := usage_word_position covered bound
          left
          refine ⟨usageBitmapWordToIndex word + highestBit bits, by rw [value, if_pos empty],
            (inWord _ index).mp (by rw [bit]; exact set), by omega, by omega, ?_⟩
          intro other seen below
          by_contra larger
          have sameWord : usageBitmapFindIndex other = word := by
            simp only [usageBitmapFindIndex, usageBitmapFindSector, usageBitmapFindElement] at *
            simp at *
            omega
          have largerBit : highestBit bits < usageBitmapFindBit other := by
            simp at *
            omega
          have otherSet := (inWord other sameWord).mpr seen
          rw [clear _ largerBit] at otherSet
          cases otherSet

/-- `get_prev_bit` finds the last set bit of its range. -/
theorem get_prev_bit_found {curInd limInd : Nat} (order : curInd ≤ limInd)
    (known : limInd < usageBitmapTotalBits) :
    GreatestSetBit bitmap curInd limInd (getPrevBit bitmap curInd limInd) := by
  have lastBound : usageBitmapFindBit curInd < 32 := Nat.mod_lt _ (by decide)
  have inside : ∀ other, (curInd ≤ other ∧ other ≤ limInd) ↔
      (usageBitmapFindIndex curInd ≤ usageBitmapFindIndex other ∧
        usageBitmapFindIndex other ≤ usageBitmapFindIndex limInd ∧
        (usageBitmapFindIndex other = usageBitmapFindIndex limInd →
          usageBitmapFindBit other ≤ usageBitmapFindBit limInd) ∧
        (usageBitmapFindIndex other = usageBitmapFindIndex curInd →
          usageBitmapFindBit curInd ≤ usageBitmapFindBit other)) := by
    intro other
    simp
    omega
  have words : usageBitmapFindIndex curInd ≤ usageBitmapFindIndex limInd :=
    ((inside limInd).mp ⟨order, le_refl _⟩).1
  unfold getPrevBit
  rcases prev_bit_from_spec bitmap lastBound
      (usageBitmapFindIndex limInd + 1 - usageBitmapFindIndex curInd)
      (usageBitmapFindIndex limInd) with
    ⟨dataSector, result, found, low, high, most⟩ | ⟨result, none_⟩
  · left
    have place := (inside dataSector).mpr ⟨by omega, low, found.2⟩
    have narrow : u16 dataSector = dataSector := by
      apply u16_of_lt
      simp at known
      omega
    dsimp only
    rw [result, narrow]
    refine ⟨found.1, place.1, place.2, usage_index_covered dataSector, ?_⟩
    intro index above below set
    have position := (inside index).mp ⟨above, below⟩
    exact most index ⟨set, position.2.2⟩ position.2.1
  · right
    refine ⟨result, fun index above below => ?_⟩
    have position := (inside index).mp ⟨above, below⟩
    by_contra set
    exact none_ index position.2.1 (by omega) ⟨by simpa using set, position.2.2⟩

/-- `get_next_bit` finds the first set bit of its range unless the range has none and the last
word has one behind it. -/
theorem get_next_bit_found {curInd limInd : Nat}
    (known : limInd < usageBitmapTotalBits) :
    LeastSetBit bitmap curInd limInd (getNextBit bitmap curInd limInd) ∨
      ((∀ index, curInd ≤ index → index ≤ limInd → usageBit bitmap index = false) ∧
        BitsBehind bitmap limInd ∧ limInd < getNextBit bitmap curInd limInd ∧
        getNextBit bitmap curInd limInd < uint16Max) := by
  have words : ∀ index, curInd ≤ index → index ≤ limInd →
      usageBitmapFindIndex index ≤ usageBitmapFindIndex limInd := by
    intro index above below
    simp
    omega
  rcases get_next_bit_spec bitmap curInd limInd with
    ⟨dataSector, result, set, above, inWords, least⟩ | ⟨result, none_⟩
  · have small : dataSector < uint16Max := by
      simp at known inWords ⊢
      omega
    have narrow : u16 dataSector = dataSector := by
      apply u16_of_lt
      simp at small
      omega
    rw [result, narrow]
    by_cases inside : dataSector ≤ limInd
    · left
      exact Or.inl ⟨set, above, inside, usage_index_covered dataSector,
        fun index from_ _ bit => least index bit from_⟩
    · right
      refine ⟨fun index from_ below => ?_, ⟨dataSector, by omega, ?_, set⟩, by omega, small⟩
      · by_contra bit
        have := least index (by simpa using bit) from_
        omega
      · simp at inWords inside ⊢
        omega
  · left
    exact Or.inr ⟨result, fun index above below => none_ index above (words index above below)⟩

theorem least_set_bit_iff {curInd limInd : Nat} (order : curInd ≤ limInd)
    (known : limInd < usageBitmapTotalBits) :
    LeastSetBit bitmap curInd limInd (getNextBit bitmap curInd limInd) ↔
      ¬ ((∀ index, curInd ≤ index → index ≤ limInd → usageBit bitmap index = false) ∧
        BitsBehind bitmap limInd) := by
  constructor
  · rintro least ⟨clear, index, behind, sameWord, set⟩
    rcases get_next_bit_spec bitmap curInd limInd with
      ⟨dataSector, result, found, above, inWords, first⟩ | ⟨result, none_⟩
    · have small : dataSector < uint16Max := by
        simp at known inWords ⊢
        omega
      have narrow : u16 dataSector = dataSector := by
        apply u16_of_lt
        simp at small
        omega
      rw [result, narrow] at least
      rcases least with ⟨_, _, inside, _⟩ | ⟨marker, _⟩
      · rw [clear dataSector above inside] at found
        cases found
      · omega
    · rw [none_ index (by omega) (le_of_eq sameWord)] at set
      cases set
  · intro fails
    rcases get_next_bit_found bitmap known with least | ⟨clear, behind, _⟩
    · exact least
    · exact absurd ⟨clear, behind⟩ fails

end Scans

/-- What `count` moves of an iterator answer, with the places it then stands on. -/
def usageBitmapReadings (move : UsageBitmapIterator → Bool × UsageBitmapIterator) :
    Nat → UsageBitmapIterator → List (Option Nat)
  | 0, _ => []
  | count + 1, it =>
      let (more, moved) := move it
      (if more then usageBitmapIteratorGet moved else none) :: usageBitmapReadings move count moved

section Iteration

variable {bitmap : UsageBitmap} {totalBits : Nat} {it : UsageBitmapIterator}

/-- An iterator that has not started, has come to its end, or stands on a set bit. -/
def Standing (bitmap : UsageBitmap) (totalBits : Nat) (it : UsageBitmapIterator) : Prop :=
  it.totalBits = totalBits ∧
    (it.currBit = uint16Max ∨ (it.currBit < totalBits ∧ usageBit bitmap it.currBit = true))

theorem standing_get (known : totalBits ≤ usageBitmapTotalBits)
    (standing : Standing bitmap totalBits it) :
    (it.currBit = uint16Max ∧ usageBitmapIteratorGet it = none) ∨
      (it.currBit ≠ uint16Max ∧ it.currBit < totalBits ∧ usageBit bitmap it.currBit = true ∧
        usageBitmapIteratorGet it = some it.currBit) := by
  unfold usageBitmapIteratorGet
  rcases standing.2 with none_ | ⟨inside, set⟩
  · exact Or.inl ⟨none_, if_pos none_⟩
  · have other : it.currBit ≠ uint16Max := by
      simp at known ⊢
      omega
    exact Or.inr ⟨other, inside, set, if_neg other⟩

theorem standing_on {place : Nat} (known : totalBits ≤ usageBitmapTotalBits)
    (size : it.totalBits = totalBits) (inside : place < totalBits)
    (set : usageBit bitmap place = true) :
    Standing bitmap totalBits { it with currBit := place } ∧
      usageBitmapIteratorGet { it with currBit := place } = some place := by
  have other : place ≠ uint16Max := by
    simp at known ⊢
    omega
  exact ⟨⟨size, Or.inr ⟨inside, set⟩⟩, if_neg other⟩

theorem iterator_next_run (known : totalBits ≤ usageBitmapTotalBits)
    (standing : Standing bitmap totalBits it) :
    (∃ place rest, upward (usageBit bitmap) totalBits (following (usageBitmapIteratorGet it)) =
        place :: rest ∧ usageBitmapIteratorNext bitmap it = (true, { it with currBit := place })) ∨
    (upward (usageBit bitmap) totalBits (following (usageBitmapIteratorGet it)) = [] ∧
      (following (usageBitmapIteratorGet it) < totalBits → ¬ BitsBehind bitmap (totalBits - 1)) ∧
      usageBitmapIteratorNext bitmap it = (false, { it with currBit := uint16Max })) ∨
    (upward (usageBit bitmap) totalBits (following (usageBitmapIteratorGet it)) = [] ∧
      following (usageBitmapIteratorGet it) < totalBits ∧ BitsBehind bitmap (totalBits - 1) ∧
      ∃ place, totalBits ≤ place ∧ place < uint16Max ∧
        usageBitmapIteratorNext bitmap it = (true, { it with currBit := place })) := by
  have size := standing.1
  have start : (if it.currBit = uint16Max then 0 else u16 (it.currBit + 1)) =
      following (usageBitmapIteratorGet it) := by
    rcases standing_get known standing with ⟨none_, get⟩ | ⟨other, inside, _, get⟩
    · rw [if_pos none_, get]
      rfl
    · rw [if_neg other, get, u16_of_lt]
      · rfl
      · simp at known
        omega
  unfold usageBitmapIteratorNext
  rw [start, size]
  generalize following (usageBitmapIteratorGet it) = first
  by_cases past : totalBits ≤ first
  · right
    left
    refine ⟨upward_past past, fun before => by omega, ?_⟩
    by_cases empty : totalBits = 0
    · rw [if_pos empty]
    · rw [if_neg empty, if_pos past]
  · have limit : u16 (totalBits - 1) = totalBits - 1 := by
      apply u16_of_lt
      simp at known
      omega
    have order : first ≤ totalBits - 1 := by omega
    have within : totalBits - 1 < usageBitmapTotalBits := by omega
    rw [if_neg (by omega), if_neg past, limit]
    dsimp only
    rcases get_next_bit_found bitmap within with
      (⟨set, above, below, _, least⟩ | ⟨marker, clear⟩) | ⟨clear, behind, beyond, small⟩
    · left
      have before : ∀ other, first ≤ other → other < getNextBit bitmap first (totalBits - 1) →
          usageBit bitmap other = false := by
        intro other low high
        by_contra bit
        have := least other low (by omega) (by simpa using bit)
        omega
      refine ⟨_, _, upward_at above (by omega) set before, ?_⟩
      rw [bne_iff_ne.mpr]
      simp at known ⊢
      omega
    · right
      left
      have found := (least_set_bit_iff bitmap order within).mp (Or.inr ⟨marker, clear⟩)
      refine ⟨upward_nil fun other low high => clear other low (by omega),
        fun _ behind => found ⟨clear, behind⟩, ?_⟩
      rw [marker]
      rfl
    · right
      right
      refine ⟨upward_nil fun other low high => clear other low (by omega), by omega, behind, _,
        by omega, small, ?_⟩
      rw [bne_iff_ne.mpr (ne_of_lt small)]

theorem iterator_prev_run (known : totalBits ≤ usageBitmapTotalBits)
    (standing : Standing bitmap totalBits it) :
    (∃ place rest, downward (usageBit bitmap) (preceding totalBits (usageBitmapIteratorGet it)) =
        place :: rest ∧ usageBitmapIteratorPrev bitmap it = (true, { it with currBit := place })) ∨
    (downward (usageBit bitmap) (preceding totalBits (usageBitmapIteratorGet it)) = [] ∧
      usageBitmapIteratorPrev bitmap it = (false, { it with currBit := uint16Max })) := by
  have size := standing.1
  unfold usageBitmapIteratorPrev
  rw [size]
  by_cases empty : totalBits = 0
  · right
    rw [if_pos empty]
    refine ⟨downward_nil fun other below => ?_, rfl⟩
    rcases standing_get known standing with ⟨_, get⟩ | ⟨_, inside, _, _⟩
    · rw [get] at below
      change other < totalBits at below
      omega
    · omega
  · rw [if_neg empty]
    by_cases first : it.currBit = 0
    · right
      rw [if_pos first]
      refine ⟨?_, rfl⟩
      have get : usageBitmapIteratorGet it = some 0 := by
        rw [usageBitmapIteratorGet, first]
        rfl
      rw [get]
      rfl
    · have last : ∃ last, (if it.currBit = uint16Max then u16 (totalBits - 1)
          else u16 (it.currBit - 1)) = last ∧ last < usageBitmapTotalBits ∧
          preceding totalBits (usageBitmapIteratorGet it) = last + 1 := by
        rcases standing_get known standing with ⟨none_, get⟩ | ⟨other, inside, _, get⟩
        · refine ⟨totalBits - 1, ?_, by omega, ?_⟩
          · rw [if_pos none_, u16_of_lt]
            simp at known
            omega
          · rw [get]
            change totalBits = _
            omega
        · refine ⟨it.currBit - 1, ?_, by omega, ?_⟩
          · rw [if_neg other, u16_of_lt]
            simp at known
            omega
          · rw [get]
            change it.currBit = _
            omega
      obtain ⟨last, lastEq, within, limit⟩ := last
      rw [if_neg first, lastEq, limit]
      dsimp only
      rcases get_prev_bit_found bitmap (Nat.zero_le last) within with
        ⟨set, _, below, _, most⟩ | ⟨marker, clear⟩
      · left
        have behind : ∀ other, getPrevBit bitmap 0 last < other → other < last + 1 →
            usageBit bitmap other = false := by
          intro other low high
          by_contra bit
          have := most other (Nat.zero_le _) (by omega) (by simpa using bit)
          omega
        refine ⟨_, _, downward_at (by omega) set behind, ?_⟩
        rw [bne_iff_ne.mpr]
        simp at within ⊢
        omega
      · right
        refine ⟨downward_nil fun other below => clear other (Nat.zero_le _) (by omega), ?_⟩
        rw [marker]
        rfl

theorem iterator_next_readings (known : totalBits ≤ usageBitmapTotalBits)
    (standing : Standing bitmap totalBits it) {ahead : List Nat}
    (remaining : upward (usageBit bitmap) totalBits (following (usageBitmapIteratorGet it)) =
      ahead) :
    ∃ last, Standing bitmap totalBits last ∧
      upward (usageBit bitmap) totalBits (following (usageBitmapIteratorGet last)) = [] ∧
      usageBitmapReadings (usageBitmapIteratorNext bitmap) (ahead.length + 1) it =
        ahead.map some ++ usageBitmapReadings (usageBitmapIteratorNext bitmap) 1 last := by
  induction ahead generalizing it with
  | nil => exact ⟨it, standing, remaining, rfl⟩
  | cons first rest ih =>
      rcases iterator_next_run known standing with
        ⟨place, others, ahead, run⟩ | ⟨nothing, _⟩ | ⟨nothing, _⟩
      · rw [ahead] at remaining
        injection remaining with head tail
        obtain ⟨_, inside, set, _, behind⟩ := upward_cons ahead
        obtain ⟨stands, get⟩ := standing_on known standing.1 inside set
        have rested : upward (usageBit bitmap) totalBits
            (following (usageBitmapIteratorGet { it with currBit := place })) = rest := by
          rw [get, ← tail, behind]
          rfl
        obtain ⟨last, stood, ended, readings⟩ := ih stands rested
        refine ⟨last, stood, ended, ?_⟩
        rw [List.length_cons, usageBitmapReadings, run]
        dsimp only
        rw [if_pos rfl, get, readings, head]
        rfl
      · rw [nothing] at remaining
        cases remaining
      · rw [nothing] at remaining
        cases remaining

theorem iterator_prev_readings (known : totalBits ≤ usageBitmapTotalBits)
    (standing : Standing bitmap totalBits it) {ahead : List Nat}
    (remaining : downward (usageBit bitmap) (preceding totalBits (usageBitmapIteratorGet it)) =
      ahead) :
    usageBitmapReadings (usageBitmapIteratorPrev bitmap) (ahead.length + 1) it =
      ahead.map some ++ [none] := by
  induction ahead generalizing it with
  | nil =>
      rcases iterator_prev_run known standing with ⟨place, others, ahead, _⟩ | ⟨_, run⟩
      · rw [ahead] at remaining
        cases remaining
      · rw [List.length_nil, usageBitmapReadings, run]
        rfl
  | cons first rest ih =>
      rcases iterator_prev_run known standing with ⟨place, others, ahead, run⟩ | ⟨nothing, _⟩
      · rw [ahead] at remaining
        injection remaining with head tail
        obtain ⟨below, set, _, behind⟩ := downward_cons ahead
        have inside : place < totalBits := by
          rcases standing_get known standing with ⟨_, get⟩ | ⟨_, inside, _, get⟩
          · rw [get] at below
            exact below
          · rw [get] at below
            exact lt_trans below inside
        obtain ⟨stands, get⟩ := standing_on known standing.1 inside set
        have rested : downward (usageBit bitmap)
            (preceding totalBits (usageBitmapIteratorGet { it with currBit := place })) = rest := by
          rw [get, ← tail, behind]
          rfl
        rw [List.length_cons, usageBitmapReadings, run]
        dsimp only
        rw [if_pos rfl, get, ih stands rested, head]
        rfl
      · rw [nothing] at remaining
        cases remaining

end Iteration

/-- The moves of an iterator visit the given bits, each once, and then report the end. -/
def Visits (move : UsageBitmapIterator → Bool × UsageBitmapIterator) (bits : List Nat)
    (it : UsageBitmapIterator) : Prop :=
  usageBitmapReadings move (bits.length + 1) it = bits.map some ++ [none]

theorem iterator_next_visits_iff {bitmap : UsageBitmap} {totalBits : Nat} (totalElems : Nat)
    (known : totalBits ≤ usageBitmapTotalBits) :
    Visits (usageBitmapIteratorNext bitmap) (places (usageBit bitmap) totalBits)
        (usageBitmapIteratorInit totalBits totalElems) ↔
      ¬ (0 < totalBits ∧ usageBit bitmap (totalBits - 1) = false ∧
        BitsBehind bitmap (totalBits - 1)) := by
  have fresh : Standing bitmap totalBits (usageBitmapIteratorInit totalBits totalElems) :=
    ⟨rfl, Or.inl rfl⟩
  obtain ⟨last, stood, ended, readings⟩ := iterator_next_readings known fresh rfl
  rw [show usageBitmapIteratorGet (usageBitmapIteratorInit totalBits totalElems) = none from rfl,
    following, ← places_upward] at readings
  unfold Visits
  rw [readings, List.append_cancel_left_eq]
  constructor
  · rintro stops ⟨some_, unset, index, above, sameWord, set⟩
    rcases iterator_next_run known stood with
      ⟨place, rest, ahead, _⟩ | ⟨_, none_, run⟩ | ⟨_, _, _, place, _, small, run⟩
    · rw [ended] at ahead
      cases ahead
    · -- the bit behind the range would have been found
      have before : following (usageBitmapIteratorGet last) ≤ totalBits - 1 := by
        rcases standing_get known stood with ⟨_, get⟩ | ⟨_, inside, bit, get⟩
        · rw [get]
          exact Nat.zero_le _
        · have other : last.currBit ≠ totalBits - 1 := by
            intro same
            rw [same, unset] at bit
            cases bit
          rw [get]
          change last.currBit + 1 ≤ _
          omega
      exact none_ (by omega) ⟨index, above, sameWord, set⟩
    · have get : usageBitmapIteratorGet { last with currBit := place } = some place :=
        if_neg (ne_of_lt small)
      rw [usageBitmapReadings, run] at stops
      dsimp only at stops
      rw [if_pos rfl, get] at stops
      cases stops
  · intro fine
    rcases iterator_next_run known stood with
      ⟨place, rest, ahead, _⟩ | ⟨_, _, run⟩ | ⟨_, before, behind, _⟩
    · rw [ended] at ahead
      cases ahead
    · rw [usageBitmapReadings, run]
      rfl
    · exfalso
      apply fine
      refine ⟨by omega, ?_, behind⟩
      by_contra set
      have member : totalBits - 1 ∈ upward (usageBit bitmap) totalBits
          (following (usageBitmapIteratorGet last)) :=
        mem_upward.mpr ⟨by omega, by omega, by simpa using set⟩
      rw [ended] at member
      cases member

/-- The scans and the iterator, with what makes the scan to the back leave its range. -/
theorem usage_bitmap_scans (bitmap : UsageBitmap) :
    (∀ curInd limInd, curInd ≤ limInd → limInd < usageBitmapTotalBits →
      (LeastSetBit bitmap curInd limInd (getNextBit bitmap curInd limInd) ↔
        ¬ ((∀ index, curInd ≤ index → index ≤ limInd → usageBit bitmap index = false) ∧
          BitsBehind bitmap limInd)) ∧
      GreatestSetBit bitmap curInd limInd (getPrevBit bitmap curInd limInd)) ∧
    (∀ totalBits totalElems, totalBits ≤ usageBitmapTotalBits →
      (Visits (usageBitmapIteratorNext bitmap) (places (usageBit bitmap) totalBits)
          (usageBitmapIteratorInit totalBits totalElems) ↔
        ¬ (0 < totalBits ∧ usageBit bitmap (totalBits - 1) = false ∧
          BitsBehind bitmap (totalBits - 1))) ∧
      Visits (usageBitmapIteratorPrev bitmap) (places (usageBit bitmap) totalBits).reverse
        (usageBitmapIteratorInit totalBits totalElems)) := by
  constructor
  · intro curInd limInd order known
    exact ⟨least_set_bit_iff bitmap order known, get_prev_bit_found bitmap order known⟩
  · intro totalBits totalElems known
    have fresh : Standing bitmap totalBits (usageBitmapIteratorInit totalBits totalElems) :=
      ⟨rfl, Or.inl rfl⟩
    exact ⟨iterator_next_visits_iff totalElems known, iterator_prev_readings known fresh rfl⟩

/-- Only data sector 1 is used. -/
def exampleScanned : UsageBitmap := ⟨fun word => if word = 0 then 2#32 else 0#32⟩

/-- The range of data sector 0 alone has no set bit, but the scan and the iterator over one
bit find data sector 1. -/
theorem usage_bitmap_scan_leaves_range :
    getNextBit exampleScanned 0 0 = 1 ∧
      ¬ LeastSetBit exampleScanned 0 0 (getNextBit exampleScanned 0 0) ∧
      ¬ Visits (usageBitmapIteratorNext exampleScanned) (places (usageBit exampleScanned) 1)
        (usageBitmapIteratorInit 1 1) := by
  have behind : BitsBehind exampleScanned 0 := ⟨1, by decide, by decide, by decide⟩
  have clear : ∀ index, 0 ≤ index → index ≤ 0 → usageBit exampleScanned index = false := by
    intro index _ below
    rw [Nat.le_zero.mp below]
    decide
  refine ⟨by decide, ?_, ?_⟩
  · intro least
    exact (least_set_bit_iff exampleScanned (le_refl 0) (by decide)).mp least ⟨clear, behind⟩
  · intro visits
    exact (iterator_next_visits_iff 1 (by decide)).mp visits ⟨by decide, by decide, behind⟩

end SdDatabase
