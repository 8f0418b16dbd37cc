import SdDatabase.UsageBitmap
import SdDatabase.Lib.LostBlocks
import SdDatabase.Lib.SetBits

/-!
# Walks over the used sectors

The loops of `hash_table.c` that take the used sectors below a limit from the words of the
usage bitmap. A visit to a sector goes on, leaves the rest of the word out, or returns.
-/

namespace SdDatabase

open Device BitScan Cursor

set_option autoImplicit false

/-- How a visit to a sector ends. -/
inductive Visit (R A : Type) where
  | next (gathered : A)
  | leave (gathered : A)
  | stop (result : R)

section Walk

variable {R A : Type}

/-- The set bits of one word; 32 rounds use up the word. -/
def walkBits (limit : Nat) (visit : Nat → A → DbM (Visit R A)) (word : Nat) :
    Nat → BitVec 32 → A → DbM (Except R A)
  | 0, _, gathered => return .ok gathered
  | fuel + 1, bits, gathered => do
      if bits = 0#32 then
        return .ok gathered
      let physSector := usageBitmapWordToIndex word + ctz bits
      if limit ≤ physSector then
        return .ok gathered
      match ← visit physSector gathered with
      | .stop result => return .error result
      | .leave gathered => return .ok gathered
      | .next gathered => walkBits limit visit word fuel (clearLowest bits) gathered

/-- The words of the bitmap, without the bits before `firstBit` of the first one. -/
def walkWords (limit firstWord firstBit : Nat) (visit : Nat → A → DbM (Visit R A)) :
    Nat → Nat → A → DbM (Except R A)
  | 0, _, gathered => return .ok gathered
  | count + 1, word, gathered => do
      if usageBitmapIsCrcWord word then
        walkWords limit firstWord firstBit visit count (word + 1) gathered
      else
        let stored := (← get).usageBitmap.word word
        let bits :=
          if word = firstWord ∧ 0 < firstBit then clearBitsTo stored firstBit else stored
        match ← walkBits limit visit word 32 bits gathered with
        | .error result => return .error result
        | .ok gathered => walkWords limit firstWord firstBit visit count (word + 1) gathered

end Walk

def usedFrom (bitmap : UsageBitmap) (limit start : Nat) : List Nat :=
  upward (usageBit bitmap) limit start

/-- The set bits of a word from bit `passed` on, which are used sectors from `start` on. -/
def WordLeft (bitmap : UsageBitmap) (start passed : Nat) (bits : BitVec 32) : Prop :=
  ∀ bit < 32, bits.getLsbD bit = (decide (passed ≤ bit) && usageBit bitmap (start + bit))

section Rule

variable {R A : Type} {db : Database} {card : Card Sector} {lost : Nat → Bool} {limit : Nat}
  {visit : Nat → A → DbM (Visit R A)} {left : List Nat → A → Prop} {returns : R → Prop}

/-- What a visit owes: `left` holds of the sectors still to come and what is gathered, and
`returns` of a result. -/
def VisitKeeps (lost : Nat → Bool) (db : Database) (card : Card Sector)
    (visit : Nat → A → DbM (Visit R A)) (left : List Nat → A → Prop) (returns : R → Prop) : Prop :=
  ∀ sector rest gathered, left (sector :: rest) gathered →
    (∃ result, lossy lost (visit sector gathered) db card = ((.stop result, db), []) ∧
      returns result) ∨
    (∃ after, lossy lost (visit sector gathered) db card = ((.leave after, db), []) ∧
      ∀ later, later <:+ rest → left later after) ∨
    (∃ after, lossy lost (visit sector gathered) db card = ((.next after, db), []) ∧
      left rest after)

def WalkEnds (db : Database) (left : List Nat → A → Prop) (returns : R → Prop)
    (sectors : List Nat) (outcome : (Except R A × Database) × WriteLog Sector) : Prop :=
  (∃ result, outcome = ((.error result, db), []) ∧ returns result) ∨
    ∃ gathered, outcome = ((.ok gathered, db), []) ∧ left sectors gathered

theorem WordLeft.rest {bitmap : UsageBitmap} {start passed : Nat} {bits : BitVec 32}
    (given : WordLeft bitmap start passed bits) (some_ : bits ≠ 0#32) :
    passed ≤ ctz bits ∧ usageBit bitmap (start + ctz bits) = true ∧
      (∀ other, start + passed ≤ other → other < start + ctz bits →
        usageBit bitmap other = false) ∧
      WordLeft bitmap start (ctz bits + 1) (clearLowest bits) := by
  obtain ⟨below, set, least⟩ := ctz_spec some_
  have lowest := clear_lowest_bit some_
  generalize ctz bits = bit at below set least lowest ⊢
  have found := set
  rw [given bit below, Bool.and_eq_true, decide_eq_true_eq] at found
  refine ⟨found.1, found.2, ?_, ?_⟩
  · intro other above before
    have place : start + (other - start) = other := by omega
    have clear := least (other - start) (by omega)
    rwa [given _ (by omega), place, decide_eq_true (by omega), Bool.true_and] at clear
  · intro other short
    rw [lowest]
    rcases Nat.lt_trichotomy other bit with before | same | behind
    · rw [least other before, Bool.false_and, decide_eq_false (by omega), Bool.false_and]
    · rw [same, decide_eq_false (by omega), Bool.and_false, decide_eq_false (by omega),
        Bool.false_and]
    · rw [given other short, decide_eq_true (show other ≠ bit by omega), Bool.and_true,
        decide_eq_true (by omega), decide_eq_true (by omega)]

theorem WordLeft.used_up {bitmap : UsageBitmap} {start passed : Nat}
    (given : WordLeft bitmap start passed 0#32) (inside : passed ≤ 32) :
    usedFrom bitmap limit (start + passed) = usedFrom bitmap limit (start + 32) := by
  apply upward_skip (by omega)
  intro other above before _
  have place : start + (other - start) = other := by omega
  have clear := given (other - start) (by omega)
  rw [place, decide_eq_true (by omega), Bool.true_and, BitVec.getLsbD_zero] at clear
  exact clear.symm

theorem used_from_suffix (bitmap : UsageBitmap) {first second : Nat} (order : first ≤ second) :
    usedFrom bitmap limit second <:+ usedFrom bitmap limit first := by
  induction second, order using Nat.le_induction with
  | base => exact List.suffix_refl _
  | succ second order ih =>
      apply List.IsSuffix.trans _ ih
      unfold usedFrom
      by_cases inside : second < limit
      · rw [upward_step inside]
        split
        · exact List.suffix_cons _ _
        · exact List.suffix_refl _
      · rw [upward_past (by omega), upward_past (by omega)]

variable (keeps : VisitKeeps lost db card visit left returns)

include keeps

theorem walk_bits_run {word : Nat} (fuel : Nat) {passed : Nat} {bits : BitVec 32} {gathered : A}
    (given : WordLeft db.usageBitmap (usageBitmapWordToIndex word) passed bits)
    (inside : passed ≤ 32) (enough : 32 ≤ passed + fuel)
    (begins : left (usedFrom db.usageBitmap limit (usageBitmapWordToIndex word + passed))
      gathered) :
    WalkEnds db left returns
      (usedFrom db.usageBitmap limit (usageBitmapWordToIndex word + 32))
      (lossy lost (walkBits limit visit word fuel bits gathered) db card) := by
  induction fuel generalizing passed bits gathered with
  | zero =>
      rw [show passed = 32 by omega] at begins
      exact Or.inr ⟨gathered, rfl, begins⟩
  | succ fuel ih =>
      unfold walkBits
      by_cases empty : bits = 0#32
      · rw [if_pos empty]
        rw [empty] at given
        rw [given.used_up inside] at begins
        exact Or.inr ⟨gathered, rfl, begins⟩
      · rw [if_neg empty]
        obtain ⟨below, _⟩ := ctz_spec empty
        obtain ⟨low, used, clear, behind⟩ := given.rest empty
        generalize ctz bits = bit at below low used clear behind ⊢
        dsimp only
        by_cases past : limit ≤ usageBitmapWordToIndex word + bit
        · rw [if_pos past]
          have nothing : usedFrom db.usageBitmap limit (usageBitmapWordToIndex word + passed) =
              [] := by
            apply upward_nil
            intro other above known
            exact clear other above (by omega)
          rw [nothing] at begins
          refine Or.inr ⟨gathered, rfl, ?_⟩
          rw [usedFrom, upward_past (by omega)]
          exact begins
        · rw [if_neg past]
          have ahead : usedFrom db.usageBitmap limit (usageBitmapWordToIndex word + passed) =
              (usageBitmapWordToIndex word + bit) ::
                usedFrom db.usageBitmap limit (usageBitmapWordToIndex word + bit + 1) :=
            upward_at (by omega) (by omega) used clear
          rw [ahead] at begins
          rcases keeps _ _ _ begins with
            ⟨result, run, done⟩ | ⟨after, run, done⟩ | ⟨after, run, done⟩
          · refine Or.inl ⟨result, ?_, done⟩
            rw [lossy_bind_read run]
            rfl
          · refine Or.inr ⟨after, ?_, done _ (used_from_suffix _ (by omega))⟩
            rw [lossy_bind_read run]
            rfl
          · rw [Nat.add_assoc] at done
            rw [lossy_bind_read run]
            exact ih behind (by omega) (by omega) done

omit keeps in
theorem word_to_index_next (word : Nat) : usageBitmapWordToIndex (word + 1) =
    if usageBitmapIsCrcWord word then usageBitmapWordToIndex word
    else usageBitmapWordToIndex word + 32 := by
  by_cases trailer : usageBitmapIsCrcWord word = true
  · rw [if_pos trailer]
    simp at trailer ⊢
    omega
  · rw [if_neg trailer]
    simp at trailer ⊢
    omega

omit keeps in
theorem word_left_whole (bitmap : UsageBitmap) {word : Nat}
    (covered : usageBitmapIsCrcWord word = false) :
    WordLeft bitmap (usageBitmapWordToIndex word) 0 (bitmap.word word) := by
  intro bit short
  obtain ⟨index, place⟩ := usage_word_position covered short
  rw [usage_bit_eq, index, place, decide_eq_true (Nat.zero_le _), Bool.true_and]

omit keeps in
theorem word_left_cleared (bitmap : UsageBitmap) {word passed : Nat}
    (covered : usageBitmapIsCrcWord word = false) (some_ : 0 < passed) (short : passed < 32) :
    WordLeft bitmap (usageBitmapWordToIndex word) passed
      (clearBitsTo (bitmap.word word) passed) := by
  intro bit inside
  rw [clear_bits_to_bit _ some_ short, word_left_whole bitmap covered bit inside,
    decide_eq_true (Nat.zero_le _), Bool.true_and, Bool.and_comm]

/-- Words behind the first one. -/
theorem walk_later_words_run (firstWord firstBit count : Nat) {word : Nat} {gathered : A}
    (behind : firstWord < word)
    (begins : left (usedFrom db.usageBitmap limit (usageBitmapWordToIndex word)) gathered) :
    WalkEnds db left returns
      (usedFrom db.usageBitmap limit (usageBitmapWordToIndex (word + count)))
      (lossy lost (walkWords limit firstWord firstBit visit count word gathered) db card) := by
  induction count generalizing word gathered with
  | zero => exact Or.inr ⟨gathered, rfl, begins⟩
  | succ count ih =>
      have next := word_to_index_next word
      rw [show word + (count + 1) = word + 1 + count by omega]
      unfold walkWords
      cases trailer : usageBitmapIsCrcWord word with
      | true =>
          rw [trailer, if_pos rfl] at next
          rw [← next] at begins
          rw [if_pos rfl]
          exact ih (by omega) begins
      | false =>
          rw [trailer, if_neg Bool.false_ne_true] at next
          rw [if_neg Bool.false_ne_true, lossy_bind_read (lossy_get db card)]
          dsimp only
          rw [if_neg fun both => absurd both.1 (by omega)]
          rw [← Nat.add_zero (usageBitmapWordToIndex word)] at begins
          rcases walk_bits_run keeps 32 (word_left_whole db.usageBitmap trailer) (Nat.zero_le 32)
            (by omega) begins with ⟨result, run, done⟩ | ⟨after, run, done⟩
          · refine Or.inl ⟨result, ?_, done⟩
            rw [lossy_bind_read run]
            rfl
          · rw [← next] at done
            rw [lossy_bind_read run]
            exact ih (by omega) done

/-- The whole walk, from a bit of its first word on. -/
theorem walk_words_run {firstWord firstBit : Nat} (short : firstBit < 32)
    (covered : usageBitmapIsCrcWord firstWord = false) (count : Nat) {gathered : A}
    (begins : left (usedFrom db.usageBitmap limit (usageBitmapWordToIndex firstWord + firstBit))
      gathered) :
    WalkEnds db left returns
      (usedFrom db.usageBitmap limit (usageBitmapWordToIndex (firstWord + 1 + count)))
      (lossy lost (walkWords limit firstWord firstBit visit (count + 1) firstWord gathered) db
        card) := by
  have next := word_to_index_next firstWord
  rw [covered, if_neg Bool.false_ne_true] at next
  have bits : WordLeft db.usageBitmap (usageBitmapWordToIndex firstWord) firstBit
      (if firstWord = firstWord ∧ 0 < firstBit then
        clearBitsTo (db.usageBitmap.word firstWord) firstBit
      else db.usageBitmap.word firstWord) := by
    by_cases some_ : 0 < firstBit
    · rw [if_pos ⟨rfl, some_⟩]
      exact word_left_cleared _ covered some_ short
    · rw [if_neg fun both => some_ both.2, Nat.eq_zero_of_not_pos some_]
      exact word_left_whole _ covered
  unfold walkWords
  rw [covered, if_neg Bool.false_ne_true, lossy_bind_read (lossy_get db card)]
  dsimp only
  rcases walk_bits_run keeps 32 bits (by omega) (by omega) begins with
    ⟨result, run, done⟩ | ⟨after, run, done⟩
  · refine Or.inl ⟨result, ?_, done⟩
    rw [lossy_bind_read run]
    rfl
  · rw [← next] at done
    rw [lossy_bind_read run]
    exact walk_later_words_run keeps firstWord firstBit count (Nat.lt_succ_self _) done

end Rule

end SdDatabase
