import SdDatabase.RingContents

/-!
# Adding to a history

An add writes its entry into the current sector, or marks that sector full and
starts the next one with it. Wherever the power is cut, the sectors hold the
ring as it was or the ring with the new entry.
-/

namespace SdDatabase

open Bytes Device

set_option autoImplicit false

section Sectors

variable {E : Type} {layout : HistoryLayout E} (frame : layout.Frame) (content : Sector)

include frame

omit frame in
theorem entries_below_entries {first second : Sector} {count : Nat}
    (same : ∀ slot < count,
      arrayGet (ofSector first : RingSector E layout.capacity layout.spare).entries slot
        layout.blank =
      arrayGet (ofSector second : RingSector E layout.capacity layout.spare).entries slot
        layout.blank) :
    entriesBelow layout first count = entriesBelow layout second count := by
  unfold entriesBelow
  refine congrArg List.reverse (List.map_congr_left fun slot member => ?_)
  exact same slot (List.mem_range.mp member)

theorem stored_entries {header : RingBufferHeader} (entry : E)
    (inside : header.head.toNat < layout.capacity) :
    historyEntries layout (storedSector layout content header entry) =
      entry :: entriesBelow layout content header.head.toNat := by
  have entries : (ofSector (storedSector layout content header entry) :
      RingSector E layout.capacity layout.spare).entries =
      arraySet (ofSector content : RingSector E layout.capacity layout.spare).entries
        header.head.toNat entry := by
    rw [storedSector, of_sector_stamp, of_to_sector]
  rw [historyEntries, stored_header frame, entries_below_succ]
  congr 1
  · rw [entries]
    simp only [arrayGet, dif_pos inside, arraySet, if_pos]
  · apply entries_below_entries
    intro slot below
    have within : slot < layout.capacity := by omega
    rw [entries]
    simp only [arrayGet, dif_pos within, arraySet]
    rw [if_neg (by omega)]

theorem full_entries : historyEntries layout (fullSector layout content) =
    historyEntries layout content := by
  rw [historyEntries, full_header frame]
  apply entries_below_entries
  intro slot _
  rw [fullSector, of_sector_stamp, of_to_sector]

end Sectors

section Leads

variable {E : Type} {layout : HistoryLayout E}

def historySectors (layout : HistoryLayout E) (card : Card Sector) : Nat → Sector :=
  fun index => card (ringRaw layout index)

/-- After the log the card keeps `ring` with an idle journal, and if the journal was idle
before, every cut on the way recovers to a card that keeps a ring that `seen` allows. -/
structure RingLeads (layout : HistoryLayout E) (size : Nat) (card : Card Sector)
    (log : WriteLog Sector) (started : Nat) (ring : List (List E))
    (seen : List (List E) → Prop) : Prop where
  idle : JournalIdle (applyWrites log card)
  keeps : RingKeeps layout size started ring (historySectors layout (applyWrites log card))
  cut : JournalIdle card → ∀ count, ∃ final found left,
    Recovers (applyWrites (log.take count) card) final ∧ seen left ∧
      RingKeeps layout size found left (historySectors layout final)

theorem RingLeads.mono {size started : Nat} {card : Card Sector} {log : WriteLog Sector}
    {ring : List (List E)} {seen wider : List (List E) → Prop}
    (leads : RingLeads layout size card log started ring seen)
    (widen : ∀ left, seen left → wider left) : RingLeads layout size card log started ring wider where
  idle := leads.idle
  keeps := leads.keeps
  cut idle count := by
    obtain ⟨final, found, left, recovers, known, keeps⟩ := leads.cut idle count
    exact ⟨final, found, left, recovers, widen left known, keeps⟩

theorem RingLeads.append {size started later : Nat} {card : Card Sector}
    {first second : WriteLog Sector} {ring next : List (List E)} {seen : List (List E) → Prop}
    (leadsFirst : RingLeads layout size card first started ring seen)
    (leadsSecond : RingLeads layout size (applyWrites first card) second later next seen) :
    RingLeads layout size card (first ++ second) later next seen where
  idle := by
    rw [apply_writes_append]
    exact leadsSecond.idle
  keeps := by
    rw [apply_writes_append]
    exact leadsSecond.keeps
  cut idle count := by
    by_cases inFirst : count < first.length
    · rw [List.take_append_of_le_length (by omega)]
      exact leadsFirst.cut idle count
    · rw [List.take_append, List.take_of_length_le (by omega), apply_writes_append]
      exact leadsSecond.cut leadsFirst.idle (count - first.length)

variable (frame : layout.Frame) {size started later : Nat} {ring next : List (List E)}
  {card : Card Sector} (room : 0 < size) (region : layout.dataStart + 12 + size ≤ 65536)

omit frame in
theorem history_sectors_congr {first second : Card Sector} (same : SameData first second) :
    historySectors layout first = historySectors layout second := by
  funext index
  exact same _ (Or.inr (by unfold ringRaw; omega))

omit frame in
theorem history_sectors_update (index : Nat) (content : Sector) :
    historySectors layout (Function.update card (ringRaw layout index) content) =
      Function.update (historySectors layout card) index content := by
  funext other
  by_cases same : other = index
  · rw [same, Function.update_self]
    exact Function.update_self _ _ _
  · rw [Function.update_of_ne same]
    exact Function.update_of_ne (by unfold ringRaw; omega) _ _

def CurrentOpen (layout : HistoryLayout E) (size started : Nat) (card : Card Sector) : Prop :=
  (ringHeader (card (ringRaw layout (ringPlace size started 0)))).state = rbOccupied

omit frame in
theorem replaced_sectors (bitmap : UsageBitmap) (index : Nat) (content : Sector) :
    historySectors layout (applyWrites (replaceLog layout bitmap card index content) card) =
      Function.update (historySectors layout card) index content := by
  obtain ⟨_, same⟩ := transaction_final layout.type (layout.dataStart + index)
    (card (ringRaw layout index)) bitmap [(ringRaw layout index, content)] card Nat.zero_lt_one
  rw [replaceLog, history_sectors_congr same, apply_writes_cons, apply_writes_nil,
    history_sectors_update]

omit frame in
theorem replaced_open (bitmap : UsageBitmap) (content : Sector)
    (occupied : (ringHeader content).state = rbOccupied) :
    CurrentOpen layout size started (applyWrites
      (replaceLog layout bitmap card (ringPlace size started 0) content) card) := by
  have sectors := @replaced_sectors _ layout card bitmap (ringPlace size started 0) content
  have here := congrFun sectors (ringPlace size started 0)
  rw [Function.update_self] at here
  unfold CurrentOpen
  rw [show applyWrites (replaceLog layout bitmap card (ringPlace size started 0) content) card
    (ringRaw layout (ringPlace size started 0)) = content from here]
  exact occupied

include frame region

theorem replace_leads {index : Nat} (bound : index < size)
    (keeps : RingKeeps layout size started ring (historySectors layout card))
    (bitmap : UsageBitmap) {content : Sector}
    (changed : RingKeeps layout size later next
      (Function.update (historySectors layout card) index content)) :
    RingLeads layout size card (replaceLog layout bitmap card index content) later next
      fun seen => seen = ring ∨ seen = next := by
  have kept : layout.type ≠ .remove := by
    intro remove
    have saves := frame.type
    rw [remove] at saves
    cases saves
  have raw : layout.dataStart + index + dataRegionStartSector = ringRaw layout index := by
    simp [ringRaw]
    omega
  have valid : sectorCrcValid (card (ringRaw layout index)) = true := keeps.valid index bound
  have covered : ∀ entry ∈ [(ringRaw layout index, content)],
      (layout.type ≠ .remove ∧ entry.1 = layout.dataStart + index + dataRegionStartSector) ∨
      (layout.type.savesBitmap = true ∧ entry.1 =
        usageBitmapStartSector + usageBitmapFindSector (layout.dataStart + index)) := by
    intro entry member
    rw [List.eq_of_mem_singleton member]
    exact Or.inl ⟨kept, raw.symm⟩
  have updated : RingKeeps layout size later next
      (historySectors layout (applyWrites [(ringRaw layout index, content)] card)) := by
    rw [apply_writes_cons, apply_writes_nil, history_sectors_update]
    exact changed
  have undone : rolledBack layout.type (layout.dataStart + index) (card (ringRaw layout index))
      bitmap card = card := by
    rw [rolledBack, if_neg kept, frame.type, raw, stamp_of_valid valid]
    exact Function.update_eq_self _ _
  obtain ⟨finalIdle, _⟩ := transaction_final layout.type (layout.dataStart + index)
    (card (ringRaw layout index)) bitmap [(ringRaw layout index, content)] card Nat.zero_lt_one
  refine ⟨finalIdle, ?_, fun idle count => ?_⟩
  · rw [replaced_sectors]
    exact changed
  · obtain ⟨final, recovers, outcome⟩ := @transaction_cut _ _ (card (ringRaw layout index))
      bitmap _ _ _ idle (by rw [raw]; unfold ringRaw; omega) covered Nat.zero_lt_one count
    cases outcome with
    | untouched _ _ same =>
        refine ⟨final, started, ring, recovers, Or.inl rfl, ?_⟩
        rw [history_sectors_congr same]
        exact keeps
    | undone _ _ same =>
        rw [undone] at same
        refine ⟨final, started, ring, recovers, Or.inl rfl, ?_⟩
        rw [history_sectors_congr same]
        exact keeps
    | complete _ same =>
        refine ⟨final, later, next, recovers, Or.inr rfl, ?_⟩
        rw [history_sectors_congr same]
        exact updated

/-- The position of a ring, where a failed first add may have opened it already. -/
def RingPositioned (layout : HistoryLayout E) (size started : Nat) (db : Database) : Prop :=
  layout.ring db = ringAt size started ∨ (started = 0 ∧ layout.ring db = ringAt size 1)

include room

omit frame region in
theorem RingPositioned.opened {db : Database} (position : RingPositioned layout size started db) :
    openedRing (layout.ring db) = ringAt size (max started 1) := by
  rcases position with known | ⟨none_, known⟩
  · rw [known, opened_at room]
  · rw [known, opened_at room, none_]
    rfl

omit frame in
theorem ring_place_region (age : Nat) : ringRaw layout (ringPlace size started age) < 65536 := by
  have bound : ringPlace size started age < size := ring_place_lt room age
  unfold ringRaw
  omega

/-- The header that the first entry of a sector gets. -/
def firstHeader (header : RingBufferHeader) (started : Nat) : RingBufferHeader :=
  { header with state := rbOccupied, head := 0#8, seq := BitVec.ofNat 32 (started - 1) }

omit room region frame in
theorem step_first {header : RingBufferHeader}
    (reusable : header.state = rbEmpty ∨ header.state = rbFull) :
    historyStep layout.capacity (ringAt size started) header =
      .store (firstHeader header started) := by
  rw [historyStep, if_pos reusable]
  rfl

omit room region in
theorem stored_first (started : Nat) (content : Sector) (entry : E) :
    historyEntries layout (storedSector layout content (firstHeader (ringHeader content) started)
      entry) = [entry] :=
  stored_entries frame content entry frame.capacity.1

omit frame region in
theorem RingKeeps.next_reusable {sector : Nat → Sector}
    (keeps : RingKeeps layout size started ring sector)
    (full : ∀ newest ∈ ring.head?,
      (ringHeader (sector (ringPlace size started 0))).state = rbFull) :
    (ringHeader (sector (ringPlace size (started + 1) 0))).state = rbEmpty ∨
      (ringHeader (sector (ringPlace size (started + 1) 0))).state = rbFull := by
  have bound : ringPlace size (started + 1) 0 < size := ring_place_lt room 0
  by_cases fresh : started ≤ ringPlace size (started + 1) 0
  · exact Or.inl (keeps.blank _ bound fresh)
  · right
    obtain ⟨age, inside, place, _⟩ := @ring_place_covers size started room _ bound (by omega)
    rw [← keeps.count] at inside
    rw [← place]
    rcases Nat.eq_zero_or_pos age with rfl | some_
    · cases ring with
      | nil => exact absurd inside (Nat.not_lt_zero _)
      | cons newest older => exact full newest rfl
    · exact keeps.past age some_ inside

/-- The first entry of the ring, or of the next sector when the current one is full. -/
theorem start_out {db : Database}
    (keeps : RingKeeps layout size started ring (historySectors layout card))
    (full : ∀ newest ∈ ring.head?, newest.length = layout.capacity ∧
      (ringHeader (card (ringRaw layout (ringPlace size started 0)))).state = rbFull)
    (opened : openedRing (layout.ring db) = ringAt size (started + 1)) (entry : E) (fuel : Nat) :
    ∃ journal log,
      out (historyAddLoop layout entry (fuel + 1)) db card =
        ((.strgOk, { layout.setRing (ringAt size (started + 1)) db with journal := journal }),
          log) ∧
      RingLeads layout size card log (started + 1) ([entry] :: ring.take (size - 1))
        (fun seen => seen = ring ∨ seen = [entry] :: ring.take (size - 1)) ∧
      CurrentOpen layout size (started + 1) (applyWrites log card) := by
  have bound : ringPlace size (started + 1) 0 < size := ring_place_lt room 0
  have valid := keeps.valid _ bound
  have reusable : (ringHeader (card (ringRaw layout (ringPlace size (started + 1) 0)))).state =
      rbEmpty ∨
      (ringHeader (card (ringRaw layout (ringPlace size (started + 1) 0)))).state = rbFull :=
    keeps.next_reusable room fun newest member => (full newest member).2
  generalize found : card (ringRaw layout (ringPlace size (started + 1) 0)) = content at reusable
  have single := stored_first frame (started + 1) content entry
  have started_ := @RingKeeps.start _ _ _ _ _ _ keeps room full
    (storedSector layout content (firstHeader (ringHeader content) (started + 1)) entry)
    (stamp_valid _) (by rw [stored_header frame]; rfl)
    (by rw [single]; exact frame.capacity.1) (by rw [stored_header frame]; rfl)
  rw [single] at started_
  have inside : ringRaw layout (ringPlace size (started + 1) 0) < 65536 :=
    ring_place_region room region 0
  have run := out_history_store frame opened inside valid
    (step_first (by rw [← found] at reusable; exact reusable)) entry fuel
  rw [show (ringAt size (started + 1)).currentIndex = ringPlace size (started + 1) 0 from rfl,
    found] at run
  exact ⟨_, _, run, replace_leads frame region bound keeps db.usageBitmap started_,
    replaced_open _ _ (by rw [stored_header frame]; rfl)⟩

theorem rewrite_out {db : Database}
    (keeps : RingKeeps layout size started ring (historySectors layout card)) {newest : List E}
    {older : List (List E)} (known : ring = newest :: older) (some_ : 0 < started)
    (opened : openedRing (layout.ring db) = ringAt size started) {header : RingBufferHeader}
    (step : historyStep layout.capacity (ringAt size started)
      (ringHeader (card (ringRaw layout (ringPlace size started 0)))) = .store header)
    (within : header.head.toNat < layout.capacity)
    (numbered : header.seq = BitVec.ofNat 32 (started - 1)) (occupied : header.state = rbOccupied)
    (entry : E) (fuel : Nat) :
    let changed := (entry :: entriesBelow layout (card (ringRaw layout (ringPlace size started 0)))
      header.head.toNat) :: older
    ∃ journal log,
      out (historyAddLoop layout entry (fuel + 1)) db card =
        ((.strgOk, { layout.setRing (ringAt size started) db with journal := journal }), log) ∧
      RingLeads layout size card log started changed
        (fun seen => seen = ring ∨ seen = changed) ∧
      CurrentOpen layout size started (applyWrites log card) := by
  have bound : ringPlace size started 0 < size := ring_place_lt room 0
  have inside : ringRaw layout (ringPlace size started 0) < 65536 :=
    ring_place_region room region 0
  have valid : sectorCrcValid (card (ringRaw layout (ringPlace size started 0))) = true :=
    keeps.valid _ bound
  have run := out_history_store frame opened inside valid step entry fuel
  rw [show (ringAt size started).currentIndex = ringPlace size started 0 from rfl] at run
  generalize card (ringRaw layout (ringPlace size started 0)) = content at run step
  have entries := stored_entries frame content entry within
  have changed := keeps.rewrite some_ known
    (show sectorCrcValid (storedSector layout content header entry) = true from stamp_valid _)
    (by rw [stored_header frame]; exact numbered)
    (by rw [entries, List.length_cons, entries_below_length]; exact within)
    (Or.inl (by rw [stored_header frame]; exact occupied))
  rw [entries] at changed
  exact ⟨_, _, run, replace_leads frame region bound keeps db.usageBitmap changed,
    replaced_open _ _ (by rw [stored_header frame]; exact occupied)⟩

omit frame region in
theorem current_number (keeps : RingKeeps layout size started ring (historySectors layout card))
    (some_ : 0 < started) :
    (ringHeader (card (ringRaw layout (ringPlace size started 0)))).seq =
      BitVec.ofNat 32 (started - 1) :=
  keeps.numbered 0 (by rw [keeps.count]; omega)

omit frame region room in
theorem current_length (keeps : RingKeeps layout size started ring (historySectors layout card))
    {newest : List E} {older : List (List E)} (known : ring = newest :: older) :
    newest.length =
      (ringHeader (card (ringRaw layout (ringPlace size started 0)))).head.toNat + 1 := by
  rw [← keeps.stored 0 newest (by rw [known]; rfl), history_entries_length]
  rfl

theorem full_out {db : Database}
    (keeps : RingKeeps layout size started ring (historySectors layout card)) (some_ : 0 < started)
    (opened : openedRing (layout.ring db) = ringAt size started)
    (full : (ringHeader (card (ringRaw layout (ringPlace size started 0)))).state = rbFull)
    (entry : E) (fuel : Nat) :
    ∃ journal log,
      out (historyAddLoop layout entry (fuel + 1)) db card =
        ((.strgOk, { layout.setRing (ringAt size started) db with journal := journal }), log) ∧
      RingLeads layout size card log started ([entry] :: ring.tail)
        (fun seen => seen = ring ∨ seen = [entry] :: ring.tail) ∧
      CurrentOpen layout size started (applyWrites log card) := by
  obtain ⟨newest, older, known⟩ : ∃ newest older, ring = newest :: older := by
    have count := keeps.count
    cases ring with
    | nil =>
        rw [List.length_nil] at count
        omega
    | cons newest older => exact ⟨newest, older, rfl⟩
  obtain ⟨journal, log, run, leads⟩ := rewrite_out frame room region keeps known some_ opened
    (step_first (Or.inr full)) frame.capacity.1 rfl rfl entry fuel
  refine ⟨journal, log, run, ?_⟩
  rw [known] at leads ⊢
  exact leads

omit room region frame in
theorem step_open (keeps : RingKeeps layout size started ring (historySectors layout card))
    {newest : List E} {older : List (List E)} (known : ring = newest :: older)
    (occupied : (ringHeader (card (ringRaw layout (ringPlace size started 0)))).state =
      rbOccupied) (capacity : 0 < layout.capacity) :
    historyStep layout.capacity (ringAt size started)
      (ringHeader (card (ringRaw layout (ringPlace size started 0)))) =
      if newest.length = layout.capacity then .moveNext
      else .store { ringHeader (card (ringRaw layout (ringPlace size started 0))) with
        head := (ringHeader (card (ringRaw layout (ringPlace size started 0)))).head + 1#8 } := by
  have length := current_length keeps known
  have other : ¬((ringHeader (card (ringRaw layout (ringPlace size started 0)))).state = rbEmpty ∨
      (ringHeader (card (ringRaw layout (ringPlace size started 0)))).state = rbFull) := by
    rw [occupied]
    decide
  rw [historyStep, if_neg other, if_pos occupied]
  by_cases last : newest.length = layout.capacity
  · rw [if_pos last, if_pos (by omega)]
  · rw [if_neg last, if_neg (by omega)]

theorem marking_leads (keeps : RingKeeps layout size started ring (historySectors layout card))
    {newest : List E} {older : List (List E)} (known : ring = newest :: older) (some_ : 0 < started)
    (full : newest.length = layout.capacity) (bitmap : UsageBitmap) :
    let marking := replaceLog layout bitmap card (ringPlace size started 0)
      (fullSector layout (card (ringRaw layout (ringPlace size started 0))))
    RingLeads layout size card marking started ring (fun seen => seen = ring) ∧
      (ringHeader (applyWrites marking card (ringRaw layout (ringPlace size started 0)))).state =
        rbFull := by
  intro marking
  have bound : ringPlace size started 0 < size := ring_place_lt room 0
  have entries := full_entries frame (card (ringRaw layout (ringPlace size started 0)))
  have header := full_header frame (card (ringRaw layout (ringPlace size started 0)))
  have stored : historyEntries layout (card (ringRaw layout (ringPlace size started 0))) =
      newest := keeps.stored 0 newest (by rw [known]; rfl)
  have marked := keeps.rewrite some_ known
    (show sectorCrcValid (fullSector layout
      (card (ringRaw layout (ringPlace size started 0)))) = true from stamp_valid _)
    (by rw [header]; exact current_number room keeps some_) (by rw [entries, stored]; exact full.le)
    (Or.inr ⟨by rw [header], by rw [entries, stored]; exact full⟩)
  rw [entries, stored, ← known] at marked
  have leads := replace_leads frame region bound keeps bitmap marked
  refine ⟨leads.mono fun seen same => same.elim id id, ?_⟩
  have sectors := @replaced_sectors _ layout card bitmap (ringPlace size started 0)
    (fullSector layout (card (ringRaw layout (ringPlace size started 0))))
  have here := congrFun sectors (ringPlace size started 0)
  rw [Function.update_self] at here
  rw [show applyWrites marking card (ringRaw layout (ringPlace size started 0)) =
    fullSector layout (card (ringRaw layout (ringPlace size started 0))) from here, header]

theorem loop_out {db : Database}
    (keeps : RingKeeps layout size started ring (historySectors layout card))
    (position : RingPositioned layout size started db)
    (unmarked : 0 < started →
      (ringHeader (card (ringRaw layout (ringPlace size started 0)))).state ≠ rbFull)
    (entry : E) (fuel : Nat) :
    let changed := SectorRing.add size layout.capacity entry ring
    ∃ later journal log,
      out (historyAddLoop layout entry (fuel + 2)) db card =
        ((.strgOk, { layout.setRing (ringAt size later) db with journal := journal }), log) ∧
      RingLeads layout size card log later changed
        (fun seen => seen = ring ∨ seen = changed) ∧
      CurrentOpen layout size later (applyWrites log card) := by
  intro changed
  have opened := position.opened room
  have count := keeps.count
  have capacity := frame.capacity
  rcases ring with _ | ⟨newest, older⟩
  · have none_ : started = 0 := by
      rw [List.length_nil] at count
      omega
    subst none_
    obtain ⟨journal, log, run, leads⟩ := start_out frame room region keeps
      (fun newest member => absurd member (Option.not_mem_none _)) opened entry (fuel + 1)
    rw [List.take_nil] at leads
    exact ⟨_, journal, log, run, leads⟩
  · have some_ : 0 < started := by
      rw [List.length_cons] at count
      omega
    have length := current_length keeps rfl
    have occupied : (ringHeader (card (ringRaw layout (ringPlace size started 0)))).state =
        rbOccupied := (keeps.current newest rfl).resolve_right fun full => unmarked some_ full.1
    have step := step_open keeps rfl occupied capacity.1
    rw [Nat.max_eq_left (by omega)] at opened
    have short := (keeps.fits.newest newest rfl).2
    by_cases last : newest.length = layout.capacity
    · -- the sector is at its end: it is marked full and the next one is started
      have bound : ringPlace size started 0 < size := ring_place_lt room 0
      have inside : ringRaw layout (ringPlace size started 0) < 65536 :=
        ring_place_region room region 0
      have valid : sectorCrcValid (card (ringRaw layout (ringPlace size started 0))) = true :=
        keeps.valid _ bound
      rw [if_pos last] at step
      have run := out_history_next frame opened inside valid step entry (fuel + 1)
      dsimp only at run
      rw [show (ringAt size started).currentIndex = ringPlace size started 0 from rfl] at run
      obtain ⟨first, markedState⟩ := marking_leads frame room region keeps rfl some_ last
        db.usageBitmap
      obtain ⟨before, rfl⟩ : ∃ before, started = before + 1 := ⟨started - 1, by omega⟩
      rw [next_at room] at run
      obtain ⟨journal, log, lastRun, second⟩ := @start_out _ _ frame _ _ _ _ room region
        { layout.setRing (ringAt size (before + 2)) db with
          journal := (journalDataInit layout.type
            (layout.dataStart + ringPlace size (before + 1) 0)).committed }
        first.keeps
        (fun entries member => by
          rw [List.head?_cons, Option.mem_some_iff] at member
          rw [← member]
          exact ⟨last, markedState⟩)
        (by rw [frame.ring_journal, frame.ring_set, opened_at room, Nat.max_eq_left (by omega)])
        entry fuel
      rw [frame.set_journal _ (journalDataInit layout.type
        (layout.dataStart + ringPlace size (before + 1) 0)).committed
        (layout.setRing (ringAt size (before + 2)) db), frame.set_set] at lastRun
      rw [lastRun] at run
      have turned : changed = [entry] :: (newest :: older).take (size - 1) :=
        SectorRing.add_turns ⟨newest, older, rfl, last.ge⟩
      rw [turned]
      refine ⟨_, journal, _, run,
        RingLeads.append (first.mono fun seen same => Or.inl same) second.1, ?_⟩
      rw [apply_writes_append]
      exact second.2
    · have below : newest.length < layout.capacity := by omega
      have added : ((ringHeader (card (ringRaw layout (ringPlace size started 0)))).head +
          1#8).toNat = newest.length := by
        rw [BitVec.toNat_add, BitVec.toNat_ofNat, length]
        omega
      rw [if_neg last] at step
      obtain ⟨journal, log, run, leads⟩ := @rewrite_out _ _ frame _ _ _ _ room region db keeps
        _ _ rfl some_ opened _ step (by dsimp only; rw [added]; exact below)
        (current_number room keeps some_) occupied entry (fuel + 1)
      refine ⟨_, journal, log, run, ?_⟩
      dsimp only at leads
      have stored : historyEntries layout (card (ringRaw layout (ringPlace size started 0))) =
          newest := keeps.stored 0 newest rfl
      rw [historyEntries, ← length] at stored
      rw [added, stored] at leads
      have grown : changed = (entry :: newest) :: older := by
        simp only [changed, SectorRing.add, if_pos below]
      rw [grown]
      exact leads

/-- An add, unless a power cut has left the current sector marked full. -/
theorem history_add_leads {db : Database}
    (keeps : RingKeeps layout size started ring (historySectors layout card))
    (position : RingPositioned layout size started db)
    (unmarked : 0 < started →
      (ringHeader (card (ringRaw layout (ringPlace size started 0)))).state ≠ rbFull)
    (entry : E) :
    let changed := SectorRing.add size layout.capacity entry ring
    ∃ later journal log,
      out (historyAdd layout entry) db card =
        ((.strgOk, { layout.setRing (ringAt size later) db with journal := journal }), log) ∧
      RingLeads layout size card log later changed
        (fun seen => seen = ring ∨ seen = changed) ∧
      CurrentOpen layout size later (applyWrites log card) := by
  obtain ⟨later, journal, log, run, leads⟩ := loop_out frame room region keeps position
    unmarked entry (layout.ring db).size
  exact ⟨later, journal, log, (out_historyAdd entry).trans run, leads⟩

end Leads

end SdDatabase
