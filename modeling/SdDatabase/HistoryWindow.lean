import SdDatabase.HistoryRuns

/-!
# Windows of a history

A range of a history is the window of its retained entries that begins at
`start`. The sector it begins in is found by a distance that is kept in an
`int`, so a start far behind the oldest entry can land in the ring again.
-/

namespace SdDatabase

open Bytes Device

set_option autoImplicit false

theorem c_int_small {value : Int} (low : -2147483648 ≤ value) (high : value < 2147483648) :
    cInt value = value := by
  unfold cInt
  exact Int.bmod_eq_of_le (by omega) (by omega)

theorem start_rb_index {rb : RingBuffer} {age : Nat} (index : rb.currentIndex < 65536)
    (occupied : rb.occupancy < 65536) (inside : age ≤ rb.occupancy) :
    (age ≤ rb.currentIndex → startRbIndex rb age = rb.currentIndex - age) ∧
      (rb.currentIndex < age → startRbIndex rb age = rb.occupancy + rb.currentIndex - age) := by
  unfold startRbIndex
  dsimp only
  rw [@c_int_small ((rb.currentIndex : Int) - age) (by omega) (by omega)]
  constructor
  · intro within
    rw [if_neg (by omega)]
    omega
  · intro beyond
    rw [if_pos (by omega), c_int_small (by omega) (by omega)]
    omega

theorem mod_back_within {size number age : Nat} (room : 0 < size) (within : age ≤ number % size) :
    (number - age) % size = number % size - age := by
  have small := Nat.mod_lt number room
  have back : number - age = (number % size - age) + size * (number / size) := by
    conv_lhs => rw [← Nat.mod_add_div number size]
    exact Nat.sub_add_comm within
  rw [back, Nat.add_mul_mod_self_left, Nat.mod_eq_of_lt (lt_of_le_of_lt (Nat.sub_le _ _) small)]

theorem mod_back_beyond {size number age : Nat} (beyond : number % size < age) (close_ : age ≤ size)
    (wide : size ≤ number) : (number - age) % size = size + number % size - age := by
  obtain ⟨rounds, wrapped⟩ : ∃ rounds, number / size = rounds + 1 :=
    Nat.exists_eq_succ_of_ne_zero (Nat.div_pos wide (by omega)).ne'
  have split := Nat.mod_add_div number size
  rw [wrapped, Nat.mul_add, Nat.mul_one] at split
  generalize number % size = place at split beyond ⊢
  have back : number - age = (size + place - age) + size * rounds := by omega
  rw [back, Nat.add_mul_mod_self_left, Nat.mod_eq_of_lt (by omega)]

section Window

variable {E : Type} {layout : HistoryLayout E}

theorem entries_below_drop (content : Sector) (count offset : Nat) :
    (entriesBelow layout content count).drop offset =
      entriesBelow layout content (count - offset) := by
  induction offset generalizing count with
  | zero => rfl
  | succ offset ih =>
      cases count with
      | zero => rw [Nat.zero_sub, entriesBelow, List.range_zero]; rfl
      | succ count =>
          rw [entries_below_succ, List.drop_succ_cons, ih, Nat.succ_sub_succ_eq_sub]

variable (frame : layout.Frame) {size started : Nat} (room : 0 < size)
  (region : layout.dataStart + 12 + size ≤ 65536) {ring : List (List E)} {db : Database}
  {card : Card Sector} (shown : RingShown layout size started ring (historySectors layout card))

include shown

theorem RingShown.readable (room : 0 < size) (region : layout.dataStart + 12 + size ≤ 65536)
    {age : Nat} (inside : age < ring.length) :
    SectorReadable layout card (ringPlace size started age) :=
  ⟨ring_place_region room region age, shown.valid age inside, shown.begun age inside⟩

theorem RingShown.begins {age offset : Nat} {sector newest : List E}
    (found : ring[age]? = some sector) (within : offset < sector.length)
    (known : ring.head? = some newest) (narrow : size < 65536) :
    historyStart layout.capacity (ringHeader (card (ringRaw layout (ringPlace size started 0))))
        ((ring.take age).flatten.length + offset) =
      ((age : Int), sector.length - 1 - offset) := by
  have inside := (List.getElem?_eq_some_iff.mp found).1
  have count := shown.count
  have stored : historyEntries layout (card (ringRaw layout (ringPlace size started 0))) =
      newest := shown.stored 0 newest (by rwa [← List.head?_eq_getElem?])
  have length : (ringHeader (card (ringRaw layout (ringPlace size started 0)))).head.toNat + 1 =
      newest.length := by
    rw [← stored, history_entries_length]
  unfold historyStart
  dsimp only
  rw [length]
  rcases Nat.eq_zero_or_pos age with rfl | some_
  · rw [List.head?_eq_getElem?, found] at known
    rw [Option.some.inj known] at within ⊢
    rw [List.take_zero, List.flatten_nil, List.length_nil, Nat.zero_add, if_pos within, ← length]
    rfl
  · obtain ⟨before, rfl⟩ : ∃ before, age = before + 1 := ⟨age - 1, by omega⟩
    have full : sector.length = layout.capacity := by
      refine shown.fits.older sector ?_
      rw [List.mem_iff_getElem?]
      exact ⟨before, by rw [List.getElem?_tail]; exact found⟩
    have place := shown.fits.take_length known (show before < ring.length by omega)
    have split : newest.length + before * layout.capacity + offset - newest.length =
        offset + layout.capacity * before := by
      rw [Nat.mul_comm]
      omega
    rw [place, if_neg (by omega), split, Nat.add_mul_div_left _ _ (by omega),
      Nat.div_eq_of_lt (by omega), Nat.add_mul_mod_self_left, Nat.mod_eq_of_lt (by omega), full,
      c_int_small (by omega) (by omega)]
    congr 1
    omega

theorem RingShown.start_index (room : 0 < size) (narrow : size < 65536) {age : Nat}
    (inside : age < ring.length) :
    startRbIndex (ringAt size started) age = ringPlace size started age := by
  have count := shown.count
  have small := Nat.mod_lt (started - 1) room
  obtain ⟨near_, far⟩ := @start_rb_index (ringAt size started) age
    (show (started - 1) % size < 65536 by omega) (show min started size < 65536 by omega)
    (show age ≤ min started size by omega)
  by_cases within : age ≤ (started - 1) % size
  · rw [near_ within, ringPlace, mod_back_within room within]
    rfl
  · have wide : size ≤ started - 1 := by
      by_contra short
      rw [Nat.mod_eq_of_lt (by omega)] at within
      omega
    have full : min started size = size := Nat.min_eq_right (by omega)
    rw [far (not_le.mp within), ringPlace, mod_back_beyond (by omega) (by omega) wide]
    change min started size + (started - 1) % size - age = _
    rw [full]

theorem RingShown.older_entries (room : 0 < size) {age left : Nat}
    (inside : age + (left + 1) = ring.length) :
    ((ringVisits (min started size) left
        (ringIteratorPrev (min started size) (ringPlace size started age))).flatMap fun visited =>
      entriesBelow layout (card (ringRaw layout visited)) layout.capacity) =
    (ring.drop (age + 1)).flatten := by
  have count := shown.count
  have visits := @ring_visits_eq size room (min started size) (left + 1) (started - 1 - age)
    (by omega) (by omega)
  rw [ringVisits, List.range_succ_eq_map, List.map_cons, List.map_map] at visits
  rw [List.flatMap_def, show ringPlace size started age = (started - 1 - age) % size from rfl,
    (List.cons.inj visits).2, List.map_map]
  congr 1
  refine List.ext_getElem ?_ fun later first second => ?_
  · rw [List.length_map, List.length_range, List.length_drop]
    omega
  · rw [List.length_map, List.length_range] at first
    have bound : age + 1 + later < ring.length := by omega
    have place : (started - 1 - age - (later + 1)) % size =
        ringPlace size started (age + 1 + later) := by
      unfold ringPlace
      congr 1
      omega
    have stored : historyEntries layout
        (card (ringRaw layout (ringPlace size started (age + 1 + later)))) =
        ring[age + 1 + later] := shown.stored _ _ (List.getElem?_eq_getElem bound)
    have head : (ringHeader (card (ringRaw layout
        (ringPlace size started (age + 1 + later))))).head.toNat + 1 = layout.capacity :=
      shown.older_head (by omega) bound
    rw [List.getElem_map, List.getElem_range, List.getElem_drop, Function.comp_apply,
      Function.comp_apply, Nat.succ_eq_add_one, place, ← head, ← stored, historyEntries]

theorem RingShown.sector_short {age : Nat} {sector : List E} (found : ring[age]? = some sector) :
    0 < sector.length ∧ sector.length ≤ layout.capacity := by
  rcases Nat.eq_zero_or_pos age with rfl | some_
  · exact shown.fits.newest sector (by rw [List.head?_eq_getElem?, found]; rfl)
  · obtain ⟨before, rfl⟩ : ∃ before, age = before + 1 := ⟨age - 1, by omega⟩
    have full : sector.length = layout.capacity := by
      refine shown.fits.older sector ?_
      rw [List.mem_iff_getElem?]
      exact ⟨before, by rw [List.getElem?_tail]; exact found⟩
    have first := (shown.fits.newest (ring.head (by
      intro none_
      rw [none_] at found
      cases found)) (List.head?_eq_some_head _)).2
    have some_ := (shown.fits.newest _ (List.head?_eq_some_head (by
      intro none_
      rw [none_] at found
      cases found))).1
    omega

include frame room region

theorem RingShown.out_range (position : layout.ring db = ringAt size started) {start : Nat}
    (inside : start < ring.flatten.length) (n : Nat) :
    out (historyGetRange layout start n) db card =
      (((.strgOk, (ring.flatten.drop start).take n), db), []) := by
  obtain ⟨age, offset, sector, found, within, rfl⟩ := SectorRing.entry_place inside
  have aged := (List.getElem?_eq_some_iff.mp found).1
  have count := shown.count
  have capacity := frame.capacity
  have narrow : size < 65536 := by
    have start := frame.start
    omega
  obtain ⟨newest, known⟩ : ∃ newest, ring.head? = some newest := by
    cases ring with
    | nil => exact absurd aged (Nat.not_lt_zero _)
    | cons newest older => exact ⟨newest, rfl⟩
  have short := shown.sector_short found
  have first : (ringPlace size started age) < min started size := by
    have placed : ringPlace size started age < size := ring_place_lt room age
    have below := Nat.mod_le (started - 1 - age) size
    unfold ringPlace at placed ⊢
    omega
  have visits := @ring_visits_eq size room (min started size)
    (min started size - age - 1 + 1) (started - 1 - age) (by omega) (by omega)
  have current : SectorReadable layout card (ringPlace size started 0) :=
    shown.readable room region (by omega)
  rw [@out_historyGetRange _ _ db card frame (ringAt size started) position current _ _ _
    (shown.begins found within known narrow) (by omega) (show (age : Int) < (min started size : Nat) by omega)
    _ (min started size - age - 1) (shown.start_index room narrow aged) first ?_ ?_ n]
  · have stored : historyEntries layout (card (ringRaw layout (ringPlace size started age))) =
        sector := shown.stored age sector found
    have length : (ringHeader (card (ringRaw layout (ringPlace size started age)))).head.toNat + 1 =
        sector.length := by
      rw [← stored, history_entries_length]
    have begin_ : entriesBelow layout (card (ringRaw layout (ringPlace size started age)))
        (sector.length - 1 - offset + 1) = sector.drop offset := by
      nth_rewrite 2 [← stored]
      rw [historyEntries, entries_below_drop, length]
      congr 1
      omega
    have rest := shown.older_entries room (show age + (min started size - age - 1 + 1) =
      ring.length by omega)
    have whole : ring.drop age = sector :: ring.drop (age + 1) := by
      rw [List.drop_eq_getElem_cons aged]
      congr 1
      exact (List.getElem?_eq_some_iff.mp found).2
    rw [begin_, SectorRing.flatten_drop, whole, List.flatten_cons,
      List.drop_append_of_le_length (by omega)]
    change (((_, List.take n (_ ++ (ringVisits (min started size) _
      (ringIteratorPrev (min started size) _)).flatMap _)), db), _) = _
    rw [rest]
  · change (cInt (((min started size : Nat) : Int) - age)).toNat - 1 = _
    rw [c_int_small (by omega) (by omega)]
    omega
  · intro visited member
    change visited ∈ ringVisits (min started size) _ ((started - 1 - age) % size) at member
    rw [visits, List.mem_map] at member
    obtain ⟨later, below, rfl⟩ := member
    rw [List.mem_range] at below
    have place : (started - 1 - age - later) % size = ringPlace size started (age + later) := by
      unfold ringPlace
      congr 1
      omega
    rw [place]
    exact shown.readable room region (by omega)

omit frame shown room region in
theorem ring_visits_inside {occupancy left index visited : Nat} (inside : index < occupancy)
    (member : visited ∈ ringVisits occupancy left index) : visited < occupancy := by
  induction left generalizing index with
  | zero => cases member
  | succ left ih =>
      rcases List.mem_cons.mp member with rfl | older
      · exact inside
      · refine ih ?_ older
        unfold ringIteratorPrev
        split <;> omega

omit frame in
theorem RingShown.readable_index {index : Nat} (inside : index < min started size) :
    SectorReadable layout card index := by
  obtain ⟨age, aged, place, _⟩ := @ring_place_covers size started room index (by omega) (by omega)
  rw [← shown.count] at aged
  rw [← place]
  exact shown.readable room region aged

end Window

section Law

variable {E : Type}

def currentCount (layout : HistoryLayout E) (machine : Machine) : Nat :=
  (ringHeader (machine.card (ringRaw layout (layout.ring machine.db).currentIndex))).head.toNat + 1

/-- The entries added since the history was cleared that it still holds, newest first. -/
def retained (layout : HistoryLayout E) (machine : Machine) (entries : List E) : List E :=
  entries.reverse.take (min entries.length (currentCount layout machine +
    ((layout.ring machine.db).occupancy - 1) * layout.capacity))

/-- A range is a window of the retained entries, refused behind the last of them. -/
def WindowLaw (layout : HistoryLayout E) (machine : Machine) (entries : List E) (start n : Nat) :
    Prop :=
  let list := retained layout machine entries
  let answer := (machine.run (historyGetRange layout start n)).1
  (start < list.length → answer = (.strgOk, (list.drop start).take n)) ∧
    (list ≠ [] → list.length ≤ start → answer = (.strgFail, [])) ∧
    (entries = [] → answer = (.strgOk, []))

/-- The sector distance of `start` is behind the ring, but as an `int` it leads to an
occupied sector. -/
def StartAstray (layout : HistoryLayout E) (machine : Machine) (start : Nat) : Prop :=
  let rb := layout.ring machine.db
  let distance := 1 + (start - currentCount layout machine) / layout.capacity
  currentCount layout machine ≤ start ∧ rb.occupancy ≤ distance ∧
    cInt (distance : Nat) < rb.occupancy ∧ startRbIndex rb (cInt (distance : Nat)) < rb.occupancy

variable {layout : HistoryLayout E} {size started : Nat}

theorem entries_ring_prefix (some_ : 0 < size) (room : 0 < layout.capacity) (entries : List E) :
    SectorRing.Fits size layout.capacity (entriesRing layout size entries) ∧
      (entriesRing layout size entries).flatten <+: entries.reverse := by
  induction entries using List.reverseRecOn with
  | nil => exact ⟨SectorRing.fits_nil, List.prefix_rfl⟩
  | append_singleton entries entry ih =>
      obtain ⟨fits, ahead⟩ := ih
      rw [entriesRing, List.foldl_concat, ← entriesRing, List.reverse_concat]
      refine ⟨fits.add some_ room entry, ?_⟩
      rcases fits.add_entries entry with whole | ⟨_, _, shorter⟩
      · rw [whole]
        exact (List.cons_prefix_cons).mpr ⟨rfl, ahead⟩
      · rw [shorter]
        refine (List.cons_prefix_cons).mpr ⟨rfl, List.IsPrefix.trans ?_ ahead⟩
        exact (List.dropLast_prefix _).flatten

theorem entries_ring_nil_iff (entries : List E) :
    entriesRing layout size entries = [] ↔ entries = [] := by
  constructor
  · intro none_
    induction entries using List.reverseRecOn with
    | nil => rfl
    | append_singleton entries entry _ =>
        rw [entriesRing, List.foldl_concat] at none_
        unfold SectorRing.add at none_
        split at none_
        · cases none_
        · split at none_ <;> cases none_
  · rintro rfl
    rfl

theorem HistoryAt.current_count {ring : List (List E)} {machine : Machine}
    (at_ : HistoryAt layout size started ring machine) {newest : List E}
    (known : ring.head? = some newest) : currentCount layout machine = newest.length := by
  have stored : historyEntries layout (machine.card (ringRaw layout (ringPlace size started 0))) =
      newest := at_.keeps.stored 0 newest (by rwa [← List.head?_eq_getElem?])
  rw [currentCount, at_.position, ← stored, history_entries_length]
  rfl

variable (some_ : 0 < size) {entries : List E} {machine : Machine}
  (at_ : HistoryAt layout size started (entriesRing layout size entries) machine)

include some_ at_

theorem retained_eq (room : 0 < layout.capacity) :
    retained layout machine entries = (entriesRing layout size entries).flatten := by
  obtain ⟨fits, ahead⟩ := entries_ring_prefix some_ room entries
  have whole := List.prefix_iff_eq_take.mp ahead
  cases known : (entriesRing layout size entries).head? with
  | none =>
      have none_ := List.head?_eq_none_iff.mp known
      have empty := (entries_ring_nil_iff entries).mp none_
      rw [retained, none_, empty]
      rfl
  | some newest =>
      have length := fits.entries_length known
      have shorter := ahead.length_le
      rw [List.length_reverse] at shorter
      have occupied : (layout.ring machine.db).occupancy =
          (entriesRing layout size entries).length := by
        rw [at_.position, at_.keeps.count]
        rfl
      rw [retained, at_.current_count known, occupied, ← length, Nat.min_eq_right shorter]
      exact whole.symm

variable (frame : layout.Frame) (region : layout.dataStart + 12 + size ≤ 65536)

include frame region

/-- A range of a history with entries, whatever its start. -/
theorem window_some {newest : List E}
    (known : (entriesRing layout size entries).head? = some newest) (start n : Nat) :
    WindowLaw layout machine entries start n ↔ ¬StartAstray layout machine start := by
  obtain ⟨fits, _⟩ := entries_ring_prefix some_ frame.capacity.1 entries
  have capacity := frame.capacity
  have count := at_.keeps.count
  have counted := at_.current_count known
  have length := fits.entries_length known
  have given : entriesRing layout size entries ≠ [] := by
    intro none_
    rw [none_] at known
    cases known
  have sectors := List.length_pos_iff.mpr given
  have list := retained_eq some_ at_ frame.capacity.1
  have narrow : size < 65536 := by
    have begin_ := frame.start
    omega
  have current : SectorReadable layout machine.card (ringPlace size started 0) :=
    (at_.keeps.shown some_).readable some_ region (by omega)
  have occupied : (layout.ring machine.db).occupancy = min started size := by
    rw [at_.position]
    rfl
  have newestSome := fits.newest newest known
  unfold WindowLaw StartAstray
  dsimp only
  rw [list, counted, occupied]
  by_cases inside : start < (entriesRing layout size entries).flatten.length
  · have answer := (at_.keeps.shown some_).out_range frame some_ region at_.position inside n
    rw [Machine.run_of answer]
    refine iff_of_true ⟨fun _ => rfl, fun _ past => absurd inside (by omega), fun none_ => ?_⟩ ?_
    · exact absurd ((entries_ring_nil_iff entries).mpr none_) given
    · rintro ⟨behind, far, _⟩
      have near_ : (start - newest.length) / layout.capacity < min started size - 1 := by
        rw [Nat.div_lt_iff_lt_mul capacity.1]
        rw [count] at length
        omega
      omega
  · have behind : newest.length ≤ start := by omega
    have far : min started size ≤ 1 + (start - newest.length) / layout.capacity := by
      have enough : min started size - 1 ≤ (start - newest.length) / layout.capacity := by
        rw [Nat.le_div_iff_mul_le capacity.1]
        rw [count] at length
        omega
      omega
    have begins : historyStart layout.capacity
        (ringHeader (machine.card (ringRaw layout (ringPlace size started 0)))) start =
        (cInt ((1 + (start - newest.length) / layout.capacity : Nat) : Int),
          layout.capacity - 1 - (start - newest.length) % layout.capacity) := by
      have head : (ringHeader (machine.card (ringRaw layout
          (ringPlace size started 0)))).head.toNat + 1 = newest.length := by
        rw [← counted, currentCount, at_.position]
        rfl
      rw [historyStart, head, if_neg (by omega)]
    rw [at_.position]
    by_cases astray : cInt ((1 + (start - newest.length) / layout.capacity : Nat) : Int) <
        (min started size : Nat) ∧ startRbIndex (ringAt size started)
          (cInt ((1 + (start - newest.length) / layout.capacity : Nat) : Int)) < min started size
    · have answer := @out_historyGetRange _ _ machine.db machine.card frame (ringAt size started)
        at_.position current _ _ _ begins (by omega) astray.1 _ _ rfl astray.2 rfl
        (fun visited member => (at_.keeps.shown some_).readable_index some_ region
          (ring_visits_inside astray.2 member)) n
      rw [Machine.run_of answer]
      refine iff_of_false (fun law => ?_) (not_not_intro ⟨behind, far, astray⟩)
      have refused := law.2.1 (by
        intro none_
        have empty := congrArg List.length none_
        rw [length, List.length_nil] at empty
        omega) (by omega)
      cases refused
    · have past : ((min started size : Nat) : Int) ≤
          cInt ((1 + (start - newest.length) / layout.capacity : Nat) : Int) ∨
          min started size - 1 < startRbIndex (ringAt size started)
            (cInt ((1 + (start - newest.length) / layout.capacity : Nat) : Int)) := by
        by_cases close_ : cInt ((1 + (start - newest.length) / layout.capacity : Nat) : Int) <
            (min started size : Nat)
        · have beyond := not_lt.mp fun lands => astray ⟨close_, lands⟩
          exact Or.inr (lt_of_lt_of_le (by omega) beyond)
        · exact Or.inl (not_lt.mp close_)
      have answer := @out_historyGetRange_past _ _ machine.db machine.card frame
        (ringAt size started) at_.position current _ _ _ begins past n
      rw [Machine.run_of answer]
      refine iff_of_true ⟨fun before => absurd before inside, fun _ _ => rfl, fun none_ => ?_⟩ ?_
      · exact absurd ((entries_ring_nil_iff entries).mpr none_) given
      · rintro ⟨_, _, lands⟩
        exact astray lands

omit some_ at_ region in
theorem window_none (at_ : HistoryAt layout size 0 [] machine) (some_ : 0 < size)
    (region : layout.dataStart + 12 + size ≤ 65536) (start n : Nat) :
    WindowLaw layout machine [] start n ∧ ¬StartAstray layout machine start := by
  have place : (layout.ring machine.db).currentIndex = 0 := by
    rw [at_.position, ringAt, Nat.zero_sub, Nat.zero_mod]
  have blank : (ofSector (machine.card (ringRaw layout (layout.ring machine.db).currentIndex)) :
      RingSector E layout.capacity layout.spare).header.state = rbEmpty := by
    rw [frame.header, place]
    exact at_.keeps.blank 0 some_ (Nat.le_refl 0)
  have valid : sectorCrcValid
      (machine.card (ringRaw layout (layout.ring machine.db).currentIndex)) = true := by
    rw [place]
    exact at_.keeps.valid 0 some_
  have answer := out_historyGetRange_empty rfl (by rw [place]; unfold ringRaw; omega) valid blank
    start n
  constructor
  · have nothing : retained layout machine [] = [] := by
      rw [retained, List.reverse_nil, List.take_nil]
    unfold WindowLaw
    dsimp only
    rw [Machine.run_of answer, nothing]
    exact ⟨fun inside => absurd inside (Nat.not_lt_zero _), fun some_ => absurd rfl some_,
      fun _ => rfl⟩
  · rintro ⟨_, _, _, lands⟩
    rw [at_.position, ringAt, Nat.zero_min] at lands
    exact absurd lands (Nat.not_lt_zero _)

omit some_ at_ in
theorem window_iff (some_ : 0 < size) (machine : Machine) (entries : List E) (start n : Nat) :
    WindowLaw layout (machine.withHistory layout size entries) entries start n ↔
      ¬StartAstray layout (machine.withHistory layout size entries) start := by
  obtain ⟨started, at_⟩ := with_history_at frame some_ region machine entries
  cases known : (entriesRing layout size entries).head? with
  | none =>
      have none_ := List.head?_eq_none_iff.mp known
      obtain rfl := (entries_ring_nil_iff entries).mp none_
      obtain ⟨law, lands⟩ := window_none frame (reset_history_at frame some_ region machine).2
        some_ region start n
      exact iff_of_true law lands
  | some newest => exact window_some some_ at_ frame region known start n

end Law

/-- Ranges of the message history and of the call history obey the law of windows exactly
when the distance of their start, kept in an `int`, does not lead back into the ring. -/
theorem history_window_iff (size : Nat) (room : 0 < size) (machine : Machine) (start n : Nat) :
    (historyStartSector messageHistoryLayout + size ≤ 65536 → ∀ entries,
      (WindowLaw messageHistoryLayout (machine.withHistory messageHistoryLayout size entries)
        entries start n ↔
      ¬StartAstray messageHistoryLayout (machine.withHistory messageHistoryLayout size entries)
        start)) ∧
    (historyStartSector callHistoryLayout + size ≤ 65536 → ∀ entries,
      (WindowLaw callHistoryLayout (machine.withHistory callHistoryLayout size entries)
        entries start n ↔
      ¬StartAstray callHistoryLayout (machine.withHistory callHistoryLayout size entries)
        start)) :=
  ⟨fun region entries => window_iff messageHistoryFrame region room machine entries start n,
    fun region entries => window_iff callHistoryFrame region room machine entries start n⟩

def exampleEntries : List MessageHistoryEntry := [⟨1#16, .zero⟩, ⟨2#16, .zero⟩, ⟨3#16, .zero⟩]

theorem history_window_iff_example :
    WindowLaw messageHistoryLayout
      (exampleMachine.withHistory messageHistoryLayout 5000 exampleEntries) exampleEntries 1 2 := by
  apply ((history_window_iff 5000 (by decide) exampleMachine 1 2).1 (by decide) _).mpr
  have region : messageHistoryLayout.dataStart + 12 + 5000 ≤ 65536 := by decide
  obtain ⟨started, at_⟩ := with_history_at messageHistoryFrame (by decide) region exampleMachine
    exampleEntries
  have count := at_.keeps.count
  have two : started = 2 := by
    change 2 = min started 5000 at count
    omega
  subst two
  have counted : currentCount messageHistoryLayout (exampleMachine.withHistory messageHistoryLayout
      5000 exampleEntries) = 1 := at_.current_count rfl
  rintro ⟨_, behind, _⟩
  rw [counted, at_.position] at behind
  exact absurd behind (by decide)

/-- With one message in the history, a start of `2 ^ 33 - 1` leads to it again. -/
theorem history_window_astray :
    ¬WindowLaw messageHistoryLayout
      (exampleMachine.withHistory messageHistoryLayout 5000 [messageHistoryLayout.blank])
      [messageHistoryLayout.blank] (2 ^ 33 - 1) 1 := by
  have region : messageHistoryLayout.dataStart + 12 + 5000 ≤ 65536 := by decide
  obtain ⟨started, at_⟩ := with_history_at messageHistoryFrame (by decide) region exampleMachine
    [messageHistoryLayout.blank]
  have count := at_.keeps.count
  have single : started = 1 := by
    change 1 = min started 5000 at count
    omega
  subst single
  have counted : currentCount messageHistoryLayout (exampleMachine.withHistory messageHistoryLayout
      5000 [messageHistoryLayout.blank]) = 1 := at_.current_count rfl
  rw [window_iff messageHistoryFrame region (by decide)]
  refine not_not_intro ⟨?_, ?_, ?_, ?_⟩
  · rw [counted]
    decide
  · rw [counted, at_.position]
    decide
  · rw [counted, at_.position]
    decide
  · rw [counted, at_.position]
    decide

end SdDatabase
