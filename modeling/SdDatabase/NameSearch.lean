import SdDatabase.ContactRecords
import SdDatabase.NameOrder
import Mathlib.Data.List.Pairwise

/-!
# Searching the name index

An index over contacts that can be read back: the comparison of a probe with an
entry, the lower bound, and what insertion, removal and search make of the
contacts behind the entries.
-/

namespace SdDatabase

open Bytes Device Heapsort

set_option autoImplicit false

/-- A contact with its hash slot, as the index lists it. -/
def indexEntry (item : Nat × Contact) : SortedArrayEntry where
  key := sortedArrayMakeKey item.2.nameBytes
  hashSlot := item.1

/-- The length fields are right and the name has no NUL. -/
structure Contact.WellFormed (contact : Contact) : Prop where
  lengths : contact.lengthsValid = true
  nameText : ∀ character ∈ contact.nameBytes, character ≠ 0#8

/-- The contact of a hash slot is stored on the card. -/
def ReadsBack (db : Database) (card : Card Sector) (item : Nat × Contact) : Prop :=
  storedContact db.usageBitmap card (db.htable.htable item.1).sector = some item.2

/-- The index lists exactly `items`, in the order of the contacts. -/
structure IndexHolds (db : Database) (card : Card Sector) (items : List (Nat × Contact)) :
    Prop where
  index : db.nameIndex = ⟨items.map indexEntry⟩
  sorted : items.Pairwise fun left right => contactKey left.2 < contactKey right.2
  reads : ∀ item ∈ items, ReadsBack db card item
  formed : ∀ item ∈ items, item.2.WellFormed

theorem record_wellFormed (identity : Identity) : identity.record.WellFormed where
  lengths := record_lengthsValid identity
  nameText := by
    rw [record_nameBytes]
    exact identity.nameText

theorem positive_sign {K : Type} [LinearOrder K] {order : Int} {left right : K}
    (sign : (order < 0 ↔ left < right) ∧ (order = 0 ↔ left = right)) :
    (0 < order ↔ right < left) ∧ (order = 0 ↔ right = left) := by
  obtain ⟨negative, zero⟩ := sign
  refine ⟨?_, by rw [zero, eq_comm]⟩
  rcases lt_trichotomy left right with less | same | greater
  · have below := negative.mpr less
    exact ⟨fun above => by omega, fun above => absurd less (lt_asymm above)⟩
  · rw [zero.mpr same, same]
    simp
  · have notBelow := mt negative.mp (lt_asymm greater)
    have notZero := mt zero.mp greater.ne'
    exact ⟨fun _ => greater, fun _ => by omega⟩

theorem untied_sign {K : Type} [LinearOrder K] {order : Int} {left right : K} (tie : order ≠ 0)
    (below : order < 0 → left < right) (above : 0 < order → right < left) :
    (order < 0 ↔ left < right) ∧ (order = 0 ↔ left = right) := by
  rcases lt_or_gt_of_ne tie with negative | positive
  · exact ⟨iff_of_true negative (below negative), iff_of_false tie (below negative).ne⟩
  · exact ⟨iff_of_false (by omega) (lt_asymm (above positive)),
      iff_of_false tie (above positive).ne'⟩

theorem folded_below {left right : Contact}
    (less : comparedBytes true left.nameBytes < comparedBytes true right.nameBytes) :
    contactKey left < contactKey right :=
  Prod.Lex.toLex_lt_toLex.mpr (Or.inl less)

theorem key_decides {left right : Contact} (leftFormed : left.WellFormed)
    (rightFormed : right.WellFormed)
    (tie : keyCmp (sortedArrayMakeKey left.nameBytes) (sortedArrayMakeKey right.nameBytes) ≠ 0) :
    (keyCmp (sortedArrayMakeKey left.nameBytes) (sortedArrayMakeKey right.nameBytes) < 0 ↔
      contactKey left < contactKey right) ∧
    (keyCmp (sortedArrayMakeKey left.nameBytes) (sortedArrayMakeKey right.nameBytes) = 0 ↔
      contactKey left = contactKey right) := by
  obtain ⟨below, above⟩ := key_cmp_sign leftFormed.nameText rightFormed.nameText tie
  exact untied_sign tie (fun negative => folded_below (below negative))
    fun positive => folded_below (above positive)

section Comparisons

variable {db : Database} {card : Card Sector}

theorem out_tiebreakFn {item : Nat × Contact} (reads : ReadsBack db card item)
    (formed : item.2.WellFormed) (probe : SortedArrayProbe) :
    out (tiebreakFn probe (indexEntry item)) db card =
      ((.ok (tiebreakOrder probe item.2), db), []) := by
  rw [tiebreakFn, out_bind_of (out_get _ _)]
  simp only [indexEntry, apply_writes_nil, List.nil_append]
  rw [out_bind_of (out_readContact_stored reads)]
  simp [formed.lengths]

theorem out_probeCmp_contact {contact : Contact} (probed : contact.WellFormed)
    {item : Nat × Contact} (reads : ReadsBack db card item) (formed : item.2.WellFormed) :
    ∃ order : Int, out (probeCmp (probeFromContact contact) (indexEntry item)) db card =
        ((.ok order, db), []) ∧
      (order < 0 ↔ contactKey contact < contactKey item.2) ∧
      (order = 0 ↔ contactKey contact = contactKey item.2) := by
  unfold probeCmp
  change ∃ order : Int, out (if keyCmp (sortedArrayMakeKey contact.nameBytes)
    (sortedArrayMakeKey item.2.nameBytes) = 0 then _ else _) db card = _ ∧ _
  by_cases tie : keyCmp (sortedArrayMakeKey contact.nameBytes)
      (sortedArrayMakeKey item.2.nameBytes) = 0
  · rw [if_pos tie]
    exact ⟨_, out_tiebreakFn reads formed _, tiebreak_sign contact item.2⟩
  · rw [if_neg tie]
    exact ⟨_, rfl, key_decides probed formed tie⟩

/-- A search text is compared with the folded names only. -/
theorem out_probeCmp_string {text : List Byte} (textNoNul : ∀ character ∈ text, character ≠ 0#8)
    {item : Nat × Contact} (reads : ReadsBack db card item) (formed : item.2.WellFormed) :
    ∃ order : Int, out (probeCmp (probeFromString text) (indexEntry item)) db card =
        ((.ok order, db), []) ∧
      (order < 0 ↔ comparedBytes true text < comparedBytes true item.2.nameBytes) ∧
      (order = 0 ↔ comparedBytes true text = comparedBytes true item.2.nameBytes) := by
  unfold probeCmp
  change ∃ order : Int, out (if keyCmp (sortedArrayMakeKey text)
    (sortedArrayMakeKey item.2.nameBytes) = 0 then _ else _) db card = _ ∧ _
  by_cases tie : keyCmp (sortedArrayMakeKey text) (sortedArrayMakeKey item.2.nameBytes) = 0
  · rw [if_pos tie]
    refine ⟨_, out_tiebreakFn reads formed _, ?_⟩
    rw [tiebreak_seek_sign]
    exact bytes_cmp_sign true text item.2.nameBytes
  · rw [if_neg tie]
    obtain ⟨below, above⟩ := key_cmp_sign textNoNul formed.nameText tie
    exact ⟨_, rfl, untied_sign tie below above⟩

theorem out_entryCmp {first second : Nat × Contact} (firstReads : ReadsBack db card first)
    (firstFormed : first.2.WellFormed) (secondReads : ReadsBack db card second)
    (secondFormed : second.2.WellFormed) :
    ∃ order : Int, out (entryCmp (indexEntry first) (indexEntry second)) db card =
        ((.ok order, db), []) ∧
      (order < 0 ↔ contactKey first.2 < contactKey second.2) := by
  unfold entryCmp
  change ∃ order : Int, out (if keyCmp (sortedArrayMakeKey first.2.nameBytes)
    (sortedArrayMakeKey second.2.nameBytes) ≠ 0 then _ else _) db card = _ ∧ _
  by_cases tie : keyCmp (sortedArrayMakeKey first.2.nameBytes)
      (sortedArrayMakeKey second.2.nameBytes) = 0
  · refine ⟨tiebreakOrder (probeFromContact first.2) second.2, ?_,
      (tiebreak_sign first.2 second.2).1⟩
    rw [if_neg (not_not.mpr tie), out_bind_of (out_get _ _)]
    simp only [apply_writes_nil, List.nil_append, indexEntry]
    rw [out_bind_of (out_readContact_stored firstReads)]
    simp only [apply_writes_nil, List.nil_append, firstFormed.lengths, Bool.not_true,
      Bool.false_eq_true, if_false]
    exact out_tiebreakFn secondReads secondFormed _
  · rw [if_pos tie]
    exact ⟨_, rfl, (key_decides firstFormed secondFormed tie).1⟩

end Comparisons

section Search

variable {db : Database} {card : Card Sector} {K : Type} [LinearOrder K] {rank : Nat × Contact → K}
  {target : K} {array : SortedArray} {items : List (Nat × Contact)} {probe : SortedArrayProbe}

theorem lower_bound_loop_spec (mem : array.mem = items.map indexEntry)
    (ordered : ∀ i j, (iBound : i < items.length) → (jBound : j < items.length) → i ≤ j →
      rank items[i] ≤ rank items[j])
    (compares : ∀ item ∈ items, ∃ order : Int,
      out (probeCmp probe (indexEntry item)) db card = ((.ok order, db), []) ∧
      (order < 0 ↔ target < rank item) ∧ (order = 0 ↔ target = rank item))
    (fuel lo hi : Nat) (isMatch : Bool) (range : lo ≤ hi) (inside : hi ≤ items.length)
    (enough : hi < lo + fuel)
    (low : ∀ i, (bound : i < items.length) → i < lo → rank items[i] < target)
    (high : ∀ i, (bound : i < items.length) → hi ≤ i → target ≤ rank items[i])
    (matched : isMatch = true ↔ ∃ bound : hi < items.length, rank items[hi] = target) :
    ∃ found foundMatch,
      out (lowerBoundLoop array probe fuel lo hi isMatch) db card =
        ((.ok (found, foundMatch), db), []) ∧
      found ≤ items.length ∧
      (∀ i, (bound : i < items.length) → i < found → rank items[i] < target) ∧
      (∀ i, (bound : i < items.length) → found ≤ i → target ≤ rank items[i]) ∧
      (foundMatch = true ↔ ∃ bound : found < items.length, rank items[found] = target) := by
  induction fuel generalizing lo hi isMatch with
  | zero => exact absurd enough (by omega)
  | succ fuel ih =>
      rw [lowerBoundLoop]
      by_cases open_ : lo < hi
      · have midLow : lo ≤ lo + (hi - lo) / 2 := by omega
        have midHigh : lo + (hi - lo) / 2 < hi := by omega
        rw [if_pos open_]
        generalize lo + (hi - lo) / 2 = mid at midLow midHigh ⊢
        have midBound : mid < items.length := by omega
        simp only [mem, List.getElem?_map, List.getElem?_eq_getElem midBound, Option.map_some]
        obtain ⟨order, run, sign⟩ := compares items[mid] (List.getElem_mem midBound)
        obtain ⟨above, tie⟩ := positive_sign sign
        rw [out_bind_of run]
        simp only [apply_writes_nil, List.nil_append]
        by_cases right : 0 < order
        · rw [if_pos right]
          refine ih (mid + 1) hi isMatch (by omega) inside (by omega) ?_ high matched
          intro i bound below
          exact (ordered i mid bound midBound (by omega)).trans_lt (above.mp right)
        · rw [if_neg right]
          refine ih lo mid (order == 0) midLow (by omega) (by omega) low ?_ ?_
          · intro i bound behind
            exact (not_lt.mp (mt above.mpr right)).trans (ordered mid i midBound bound behind)
          · rw [beq_iff_eq, tie]
            exact ⟨fun same => ⟨midBound, same⟩, fun ⟨_, same⟩ => same⟩
      · have closed : lo = hi := by omega
        subst closed
        rw [if_neg open_]
        exact ⟨lo, isMatch, rfl, inside, low, high, matched⟩

/-- The search splits the items into the smaller ones and the others, and it
reports a match when the first of the others is one. -/
theorem lower_bound_spec (mem : array.mem = items.map indexEntry)
    (ordered : items.Pairwise fun left right => rank left ≤ rank right)
    (compares : ∀ item ∈ items, ∃ order : Int,
      out (probeCmp probe (indexEntry item)) db card = ((.ok order, db), []) ∧
      (order < 0 ↔ target < rank item) ∧ (order = 0 ↔ target = rank item)) :
    ∃ before after found,
      out (binarySearchLowerBound array probe) db card =
        ((.ok (before.length, found), db), []) ∧
      items = before ++ after ∧ (∀ item ∈ before, rank item < target) ∧
      (∀ item ∈ after, target ≤ rank item) ∧
      (found = true ↔ ∃ item, after.head? = some item ∧ rank item = target) := by
  have length : array.mem.length = items.length := by rw [mem, List.length_map]
  have indexed : ∀ i j, (iBound : i < items.length) → (jBound : j < items.length) → i ≤ j →
      rank items[i] ≤ rank items[j] := by
    intro i j iBound jBound le
    rcases Nat.lt_or_ge i j with less | ge
    · exact List.pairwise_iff_getElem.mp ordered i j iBound jBound less
    · obtain rfl : i = j := by omega
      exact le_refl _
  obtain ⟨position, found, run, bound, low, high, matched⟩ := @lower_bound_loop_spec
    _ _ _ _ _ _ _ _ probe mem indexed compares (array.mem.length + 1) 0 items.length false
    (Nat.zero_le _) (le_refl _) (by omega) (fun i _ below => absurd below (Nat.not_lt_zero i))
    (fun i bound behind => absurd bound (by omega))
    (iff_of_false Bool.false_ne_true fun ⟨bound, _⟩ => absurd bound (lt_irrefl _))
  have taken : (items.take position).length = position := by
    rw [List.length_take, Nat.min_eq_left bound]
  refine ⟨items.take position, items.drop position, found, ?_,
    (List.take_append_drop position items).symm, ?_, ?_, ?_⟩
  · rw [binarySearchLowerBound, taken, ← run, length]
  · intro item member
    obtain ⟨i, inside, rfl⟩ := List.getElem_of_mem member
    rw [List.getElem_take]
    exact low i (by omega) (by omega)
  · intro item member
    obtain ⟨i, inside, rfl⟩ := List.getElem_of_mem member
    rw [List.getElem_drop]
    exact high _ _ (Nat.le_add_right _ _)
  · rw [matched, List.head?_drop]
    constructor
    · rintro ⟨inside, same⟩
      exact ⟨items[position], List.getElem?_eq_getElem inside, same⟩
    · rintro ⟨item, found_, same⟩
      obtain ⟨inside, rfl⟩ := List.getElem?_eq_some_iff.mp found_
      exact ⟨inside, same⟩

end Search

section Operations

variable {db : Database} {card : Card Sector} {items : List (Nat × Contact)} {contact : Contact}

theorem insert_idx_middle {A : Type} (first second : List A) (value : A) :
    (first ++ second).insertIdx first.length value = first ++ value :: second := by
  induction first with
  | nil => rfl
  | cons head rest ih =>
      rw [List.cons_append, List.length_cons, List.insertIdx_succ_cons, ih, List.cons_append]

theorem IndexHolds.weak (holds : IndexHolds db card items) :
    items.Pairwise fun left right => contactKey left.2 ≤ contactKey right.2 :=
  holds.sorted.imp fun less => le_of_lt less

theorem IndexHolds.unique (holds : IndexHolds db card items) {first second : Nat × Contact}
    (firstIn : first ∈ items) (secondIn : second ∈ items)
    (same : contactKey first.2 = contactKey second.2) : first = second := by
  have symmetric : Std.Symm fun left right : Nat × Contact =>
      contactKey left.2 ≠ contactKey right.2 := ⟨fun _ _ differ => differ.symm⟩
  have apart : items.Pairwise fun left right => contactKey left.2 ≠ contactKey right.2 :=
    holds.sorted.imp fun less => less.ne
  by_contra different
  exact apart.forall firstIn secondIn different same

theorem out_sortedArrayFind (holds : IndexHolds db card items) (probed : contact.WellFormed) :
    ∃ before after found,
      out (sortedArrayFind contact) db card = ((.ok (before.length, found), db), []) ∧
      items = before ++ after ∧ (∀ item ∈ before, contactKey item.2 < contactKey contact) ∧
      (∀ item ∈ after, contactKey contact ≤ contactKey item.2) ∧
      (found = true ↔ ∃ item, after.head? = some item ∧ contactKey item.2 = contactKey contact) :=
  lower_bound_spec (congrArg SortedArray.mem holds.index) holds.weak fun item member =>
    out_probeCmp_contact probed (holds.reads item member) (holds.formed item member)

theorem head_matches_iff {before after : List (Nat × Contact)}
    (holds : IndexHolds db card (before ++ after))
    (low : ∀ item ∈ before, contactKey item.2 < contactKey contact)
    (high : ∀ item ∈ after, contactKey contact ≤ contactKey item.2) :
    (∃ item, after.head? = some item ∧ contactKey item.2 = contactKey contact) ↔
      ∃ item ∈ before ++ after, contactKey item.2 = contactKey contact := by
  constructor
  · rintro ⟨item, head, same⟩
    exact ⟨item, List.mem_append_right _ (List.mem_of_mem_head? head), same⟩
  · rintro ⟨item, member, same⟩
    rcases List.mem_append.mp member with inBefore | inAfter
    · exact absurd same (low item inBefore).ne
    · obtain ⟨head, rest, rfl⟩ := List.exists_cons_of_ne_nil (List.ne_nil_of_mem inAfter)
      refine ⟨head, rfl, ?_⟩
      rcases List.mem_cons.mp inAfter with rfl | later
      · exact same
      · have sorted := (List.pairwise_cons.mp (List.pairwise_append.mp holds.sorted).2.1).1
        have less := sorted item later
        rw [same] at less
        exact absurd (high head (by simp)) (not_le.mpr less)

theorem out_sortedArrayInsert_absent (holds : IndexHolds db card items)
    (probed : contact.WellFormed) (room : items.length < hashTableEntries)
    (absent : ∀ item ∈ items, contactKey item.2 ≠ contactKey contact) (slot : Nat) :
    ∃ before after, items = before ++ after ∧
      (∀ item ∈ before, contactKey item.2 < contactKey contact) ∧
      (∀ item ∈ after, contactKey contact < contactKey item.2) ∧
      out (sortedArrayInsert contact slot) db card =
        ((.strgOk, { db with
          nameIndex := ⟨(before ++ (slot, contact) :: after).map indexEntry⟩ }), []) := by
  obtain ⟨before, after, found, run, rfl, low, high, matched⟩ := out_sortedArrayFind holds probed
  have missing : found = false := by
    rw [Bool.eq_false_iff, ne_eq, matched, head_matches_iff holds low high]
    rintro ⟨item, member, same⟩
    exact absent item member same
  have inserted : db.nameIndex.mem.insertIdx before.length (indexEntry (slot, contact)) =
      (before ++ (slot, contact) :: after).map indexEntry := by
    have position : before.length = (before.map indexEntry).length := (List.length_map _).symm
    rw [holds.index, List.map_append, List.map_append, List.map_cons, position]
    exact insert_idx_middle _ _ _
  have short : ¬hashTableEntries ≤ db.nameIndex.mem.length := by
    rw [holds.index, List.length_map]
    exact not_le.mpr room
  refine ⟨before, after, rfl, low, ?_, ?_⟩
  · intro item member
    exact lt_of_le_of_ne (high item member)
      (absent item (List.mem_append_right _ member)).symm
  · rw [sortedArrayInsert, out_bind_of (out_get _ _)]
    simp only [short, if_false, apply_writes_nil, List.nil_append]
    rw [out_bind_of run]
    simp only [missing, Bool.false_eq_true, if_false]
    rw [← inserted]
    rfl

theorem out_sortedArrayInsert_present (holds : IndexHolds db card items)
    (probed : contact.WellFormed) (room : items.length < hashTableEntries)
    (present : ∃ item ∈ items, contactKey item.2 = contactKey contact) (slot : Nat) :
    out (sortedArrayInsert contact slot) db card = ((.strgFail, db), []) := by
  obtain ⟨before, after, found, run, rfl, low, high, matched⟩ := out_sortedArrayFind holds probed
  have hit : found = true := matched.mpr ((head_matches_iff holds low high).mpr present)
  have short : ¬hashTableEntries ≤ db.nameIndex.mem.length := by
    rw [holds.index, List.length_map]
    exact not_le.mpr room
  rw [sortedArrayInsert, out_bind_of (out_get _ _)]
  simp only [short, if_false, apply_writes_nil, List.nil_append]
  rw [out_bind_of run]
  simp only [hit, if_true]
  rfl

theorem out_sortedArrayRemove_present (holds : IndexHolds db card items)
    (probed : contact.WellFormed) {item : Nat × Contact} (member : item ∈ items)
    (same : contactKey item.2 = contactKey contact) :
    ∃ before after, items = before ++ item :: after ∧
      out (sortedArrayRemove contact) db card =
        ((.strgOk, { db with nameIndex := ⟨(before ++ after).map indexEntry⟩ }), []) := by
  obtain ⟨before, after, found, run, rfl, low, high, matched⟩ := out_sortedArrayFind holds probed
  have hit : found = true :=
    matched.mpr ((head_matches_iff holds low high).mpr ⟨item, member, same⟩)
  obtain ⟨head, first, firstSame⟩ := matched.mp hit
  obtain ⟨rest, cons⟩ := List.head?_eq_some_iff.mp first
  have isHead : head = item :=
    holds.unique (by rw [cons]; simp) member (firstSame.trans same.symm)
  subst isHead
  have some_ : ¬db.nameIndex.mem.length = 0 := by
    rw [holds.index, List.length_map, cons]
    simp
  have erased : db.nameIndex.mem.eraseIdx before.length = (before ++ rest).map indexEntry := by
    rw [holds.index, cons, List.map_append, List.map_cons,
      List.eraseIdx_append_of_length_le (by rw [List.length_map]), List.length_map, Nat.sub_self,
      List.eraseIdx_cons_zero, List.map_append]
  refine ⟨before, rest, by rw [cons], ?_⟩
  rw [sortedArrayRemove, out_bind_of (out_get _ _)]
  simp only [some_, if_false, apply_writes_nil, List.nil_append]
  rw [out_bind_of run]
  simp only [hit, Bool.not_true, Bool.false_eq_true, if_false]
  rw [← erased]
  rfl

theorem out_sortedArrayRemove_absent (holds : IndexHolds db card items)
    (probed : contact.WellFormed)
    (absent : ∀ item ∈ items, contactKey item.2 ≠ contactKey contact) :
    out (sortedArrayRemove contact) db card =
      ((if items.length = 0 then .strgFull else .strgFail, db), []) := by
  have length : db.nameIndex.mem.length = items.length := by
    rw [holds.index, List.length_map]
  rw [sortedArrayRemove, out_bind_of (out_get _ _), length]
  by_cases empty : items.length = 0
  · simp only [empty, if_true]
    rfl
  · obtain ⟨before, after, found, run, rfl, low, high, matched⟩ :=
      out_sortedArrayFind holds probed
    have missing : found = false := by
      rw [Bool.eq_false_iff, ne_eq, matched, head_matches_iff holds low high]
      rintro ⟨item, member, same⟩
      exact absent item member same
    simp only [empty, if_false, apply_writes_nil, List.nil_append]
    rw [out_bind_of run]
    simp only [missing, Bool.not_false, if_true]
    rfl

theorem IndexHolds.folded (holds : IndexHolds db card items) :
    items.Pairwise fun left right =>
      comparedBytes true left.2.nameBytes ≤ comparedBytes true right.2.nameBytes := by
  refine holds.sorted.imp fun less => ?_
  rcases Prod.Lex.toLex_lt_toLex.mp less with lower | ⟨same, _⟩
  · exact le_of_lt lower
  · exact le_of_eq same

theorem out_sortedArraySeek_rank (holds : IndexHolds db card items) {text : List Byte}
    (textNoNul : ∀ character ∈ text, character ≠ 0#8) (short : text.length ≤ maxNameLen) :
    out (sortedArraySeek text) db card =
      ((.ok (items.countP fun item =>
        decide (comparedBytes true item.2.nameBytes < comparedBytes true text)), db), []) := by
  obtain ⟨before, after, found, run, rfl, low, high, _⟩ :=
    lower_bound_spec (congrArg SortedArray.mem holds.index) holds.folded fun item member =>
      out_probeCmp_string textNoNul (holds.reads item member) (holds.formed item member)
  have count : (before ++ after).countP (fun item =>
      decide (comparedBytes true item.2.nameBytes < comparedBytes true text)) =
        before.length := by
    rw [List.countP_append,
      List.countP_eq_length.mpr fun item member => decide_eq_true (low item member),
      List.countP_eq_zero.mpr fun item member => by simpa using high item member, Nat.add_zero]
  rw [sortedArraySeek, if_neg (not_lt.mpr short), count, out_bind_of (out_get _ _)]
  simp only [apply_writes_nil, List.nil_append]
  rw [out_bind_of run]
  rfl

end Operations

/-- The entry of a slot whose contact is `record slot`. -/
def slotEntry (record : Nat → Contact) (slot : Nat) : SortedArrayEntry :=
  indexEntry (slot, record slot)

def occupiedBetween (htable : HashTable) (start count : Nat) : List Nat :=
  (List.range' start count).filter fun slot => decide ((htable.htable slot).state = .occupied)

section Building

variable {db : Database} {card : Card Sector} {record : Nat → Contact}

theorem append_contacts_run (count slot : Nat) (listed : List SortedArrayEntry)
    (reads : ∀ other ∈ occupiedBetween db.htable slot count, ReadsBack db card (other, record other))
    (room : listed.length + (occupiedBetween db.htable slot count).length ≤ sortedArrayEntries) :
    out (appendContacts count slot) { db with nameIndex := ⟨listed⟩ } card =
      ((.strgOk, { db with
        nameIndex := ⟨listed ++ (occupiedBetween db.htable slot count).map
          (slotEntry record)⟩ }), []) := by
  induction count generalizing slot listed with
  | zero => simp [appendContacts, occupiedBetween]
  | succ count ih =>
      unfold occupiedBetween at reads room ih ⊢
      unfold appendContacts
      rw [List.range'_succ, List.filter_cons] at reads room ⊢
      rw [out_bind_of (out_get _ _), List.nil_append]
      simp only [apply_writes_nil]
      by_cases occupied : (db.htable.htable slot).state = .occupied
      · rw [if_pos (decide_eq_true occupied)] at reads room ⊢
        have short : ¬sortedArrayEntries ≤ listed.length := by
          rw [List.length_cons] at room
          omega
        have read := @out_readContact_stored { db with nameIndex := ⟨listed⟩ } card _ _
          (reads slot (by simp))
        rw [if_neg (not_not.mpr occupied), out_bind_of read]
        simp only [apply_writes_nil, List.nil_append]
        rw [out_bind_of (out_get _ _)]
        simp only [apply_writes_nil, List.nil_append, short, if_false]
        rw [out_bind_of (out_modify _ _ _)]
        simp only [apply_writes_nil, List.nil_append]
        rw [ih _ _ (fun other member => reads other (List.mem_cons_of_mem _ member)) (by
          rw [List.length_cons] at room
          rw [List.length_append, List.length_singleton]
          omega)]
        simp [slotEntry, indexEntry]
      · have skipped : ¬decide ((db.htable.htable slot).state = .occupied) = true := by
          simpa using occupied
        rw [if_neg skipped] at reads room ⊢
        rw [if_pos occupied]
        exact ih _ _ reads room

theorem out_sortedArraySort {slots : List Nat}
    (reads : ∀ slot ∈ slots, ReadsBack db card (slot, record slot))
    (formed : ∀ slot ∈ slots, (record slot).WellFormed) :
    ∃ order : List Nat, order.Perm slots ∧
      (order.Pairwise fun left right => contactKey (record left) ≤ contactKey (record right)) ∧
      out sortedArraySort { db with nameIndex := ⟨slots.map (slotEntry record)⟩ } card =
        ((.strgOk, { db with nameIndex := ⟨order.map (slotEntry record)⟩ }), []) := by
  obtain ⟨sorted, run, perm, ordered⟩ := @heapsort_spec _ _ _ _ _ _
    (fun entry : SortedArrayEntry => contactKey (record entry.hashSlot)) entryCmp
    { db with nameIndex := ⟨slots.map (slotEntry record)⟩ } card (slots.map (slotEntry record)) (by
      intro left leftIn right rightIn
      obtain ⟨first, firstIn, rfl⟩ := List.mem_map.mp leftIn
      obtain ⟨second, secondIn, rfl⟩ := List.mem_map.mp rightIn
      exact @out_entryCmp { db with nameIndex := ⟨slots.map (slotEntry record)⟩ } card _ _
        (reads first firstIn) (formed first firstIn) (reads second secondIn)
        (formed second secondIn))
  have back : (sorted.map (·.hashSlot)).map (slotEntry record) = sorted := by
    rw [List.map_map]
    refine (List.map_congr_left fun entry member => ?_).trans (List.map_id sorted)
    obtain ⟨slot, _, rfl⟩ := List.mem_map.mp (perm.mem_iff.mp member)
    rfl
  refine ⟨sorted.map (·.hashSlot), ?_, ?_, ?_⟩
  · have mapped := perm.map (·.hashSlot)
    rw [List.map_map] at mapped
    have same : (·.hashSlot) ∘ slotEntry record = id := rfl
    rwa [same, List.map_id] at mapped
  · rw [List.pairwise_map]
    exact ordered
  · rw [back]
    have logEq : ([] : WriteLog Sector) = [] ++ ([] ++ []) := rfl
    unfold sortedArraySort
    rw [logEq]
    exact out_bind_both (out_get _ _) (out_bind_both run rfl)

theorem out_sortedArrayBuild
    (reads : ∀ slot ∈ occupiedBetween db.htable 0 hashTableSize,
      ReadsBack db card (slot, record slot))
    (formed : ∀ slot ∈ occupiedBetween db.htable 0 hashTableSize, (record slot).WellFormed)
    (room : (occupiedBetween db.htable 0 hashTableSize).length ≤ hashTableEntries) :
    ∃ order : List Nat, order.Perm (occupiedBetween db.htable 0 hashTableSize) ∧
      (order.Pairwise fun left right => contactKey (record left) ≤ contactKey (record right)) ∧
      out sortedArrayBuild db card =
        ((.strgOk, { db with nameIndex := ⟨order.map (slotEntry record)⟩ }), []) := by
  obtain ⟨order, perm, sorted, sort⟩ := out_sortedArraySort reads formed
  have append := append_contacts_run hashTableSize 0 [] reads (by simpa using room)
  rw [List.nil_append] at append
  have logEq : ([] : WriteLog Sector) = [] ++ ([] ++ []) := rfl
  have notOk : ¬StrgRet.strgOk ≠ .strgOk := not_not.mpr rfl
  refine ⟨order, perm, sorted, ?_⟩
  unfold sortedArrayBuild
  rw [logEq]
  refine out_bind_both (out_modify _ _ _) (out_bind_both append ?_)
  simp only [if_neg notOk]
  exact sort

end Building

end SdDatabase
