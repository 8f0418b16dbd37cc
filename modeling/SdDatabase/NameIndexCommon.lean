import SdDatabase.NameOrder

/-!
# The ordered name index candidates

`name_index_common.h` and the tie-break of `bench_names.c`: the entry, the key
and the order that the two candidates share. Entries are ordered by an
eight-byte key; between equal keys a callback decides, which compares the full
names of two sectors and then the sector numbers. One sector number stands for
the name that is searched for.
-/

namespace SdDatabase

open Bytes

set_option autoImplicit false

def noMessage : Nat := 65535

def niNotFound : Nat := 65535

def niProbeSector : Nat := 65534

structure SortedEntry where
  key : Fin 8 → Byte
  contactIndex : Nat
  messageIndex : Nat
  deriving DecidableEq

/-- `ni_make_key`: the first bytes of a name in lower case, zero padded. -/
def niMakeKey (name : List Byte) : Fin 8 → Byte :=
  fun index => ((name[index.val]?).map removeCase).getD 0#8

def niCmp (keyA : Fin 8 → Byte) (sectorA : Nat) (keyB : Fin 8 → Byte) (sectorB : Nat)
    (tiebreak : Nat → Nat → Int) : Int :=
  let c := keyCmp keyA keyB
  if c ≠ 0 then c else tiebreak sectorA sectorB

structure NiName where
  first : Nat
  last : Nat

/-- The two word lists, the names of the sectors and the name that is searched for. -/
structure NameTable where
  firstWords : Nat → List Byte
  lastWords : Nat → List Byte
  names : Nat → NiName
  probe : NiName

/-- The words of a name that are still to be read. -/
structure NameCursor where
  p : List Byte
  last : Option (List Byte)

def cursorNext (cursor : NameCursor) : Byte × NameCursor :=
  match cursor.p, cursor.last with
  | character :: rest, last => (character, ⟨rest, last⟩)
  | [], some last => (32#8, ⟨last, none⟩)
  | [], none => (0#8, cursor)

/-- The loop of `full_name_cmp`; every round reads a character of both names. -/
def fullNameCmpFrom (folded : Bool) : Nat → NameCursor → NameCursor → Int
  | 0, _, _ => 0
  | fuel + 1, ca, cb =>
      let (x, ca) := cursorNext ca
      let (y, cb) := cursorNext cb
      let x := if folded then removeCase x else x
      let y := if folded then removeCase y else y
      if x ≠ y then (x.toNat : Int) - y.toNat
      else if x = 0#8 then 0
      else fullNameCmpFrom folded fuel ca cb

namespace NameTable

variable (table : NameTable)

def cursor (name : NiName) : NameCursor :=
  ⟨table.firstWords name.first, some (table.lastWords name.last)⟩

/-- The characters of a name, as `nb_compose` joins them. -/
def fullName (name : NiName) : List Byte :=
  table.firstWords name.first ++ 32#8 :: table.lastWords name.last

def fullNameCmp (a b : NiName) (folded : Bool) : Int :=
  fullNameCmpFrom folded ((table.fullName a).length + 1) (table.cursor a) (table.cursor b)

def nbTiebreak (sectorA sectorB : Nat) : Int :=
  let a := if sectorA = niProbeSector then table.probe else table.names sectorA
  let b := if sectorB = niProbeSector then table.probe else table.names sectorB
  let c := table.fullNameCmp a b true
  let c := if c = 0 then table.fullNameCmp a b false else c
  if c ≠ 0 then c
  else if sectorA = niProbeSector ∨ sectorB = niProbeSector then 0
  else (if sectorB < sectorA then 1 else 0) - (if sectorA < sectorB then 1 else 0)

end NameTable

section Order

variable {P K : Type} [LinearOrder K]

/-- What the comment on `ni_tiebreak_fn` asks of a callback: it compares the full
names of two sectors and then their numbers; the sector of the probe has the
searched name, and ties with it are not broken. -/
structure BreaksTies (tiebreak : P → Nat → Nat → Int) (nameRank : Nat → K) (probeRank : P → K) :
    Prop where
  below : ∀ probe first second, first ≠ niProbeSector → second ≠ niProbeSector →
    (tiebreak probe first second < 0 ↔
      nameRank first < nameRank second ∨ nameRank first = nameRank second ∧ first < second)
  equal : ∀ probe first second, first ≠ niProbeSector → second ≠ niProbeSector →
    (tiebreak probe first second = 0 ↔ first = second)
  probeBelow : ∀ probe sector, sector ≠ niProbeSector →
    (tiebreak probe sector niProbeSector < 0 ↔ nameRank sector < probeRank probe)
  probeEqual : ∀ probe sector, sector ≠ niProbeSector →
    (tiebreak probe sector niProbeSector = 0 ↔ nameRank sector = probeRank probe)

/-- The key as the bytes that `memcmp` compares. -/
def keyBytes (key : Fin 8 → Byte) : List Nat :=
  comparedBytes false (List.ofFn key)

abbrev EntryRank (K : Type) [LinearOrder K] := List Nat ×ₗ (K ×ₗ Nat)

/-- The place of a key and a sector in the order of the index. -/
def entryRank (nameRank : Nat → K) (key : Fin 8 → Byte) (sector : Nat) : EntryRank K :=
  toLex (keyBytes key, toLex (nameRank sector, sector))

theorem key_bytes_injective {first second : Fin 8 → Byte}
    (same : keyBytes first = keyBytes second) : first = second :=
  List.ofFn_injective (compared_bytes_exact same)

theorem entry_rank_injective {nameRank : Nat → K} {first second : Fin 8 → Byte} {a b : Nat}
    (same : entryRank nameRank first a = entryRank nameRank second b) : first = second ∧ a = b := by
  have keys := congrArg (fun rank => (ofLex rank).1) same
  have sectors := congrArg (fun rank => (ofLex (ofLex rank).2).2) same
  exact ⟨key_bytes_injective keys, sectors⟩

variable {tiebreak : P → Nat → Nat → Int} {nameRank : Nat → K} {probeRank : P → K}

theorem key_cmp_rank (first second : Fin 8 → Byte) :
    (keyCmp first second < 0 ↔ keyBytes first < keyBytes second) ∧
      (keyCmp first second = 0 ↔ keyBytes first = keyBytes second) :=
  bytes_cmp_sign false (List.ofFn first) (List.ofFn second)

/-- The sign of `ni_cmp` on two stored places is their order. -/
theorem ni_cmp_sign (breaks : BreaksTies tiebreak nameRank probeRank) (probe : P)
    (first second : Fin 8 → Byte) {a b : Nat} (aReal : a ≠ niProbeSector)
    (bReal : b ≠ niProbeSector) :
    (niCmp first a second b (tiebreak probe) < 0 ↔
      entryRank nameRank first a < entryRank nameRank second b) ∧
    (niCmp first a second b (tiebreak probe) = 0 ↔
      entryRank nameRank first a = entryRank nameRank second b) := by
  obtain ⟨negative, zero⟩ := key_cmp_rank first second
  unfold niCmp
  by_cases tie : keyCmp first second = 0
  · have keys := zero.mp tie
    simp only [tie, ne_eq, not_true_eq_false, if_false]
    constructor
    · rw [breaks.below probe a b aReal bReal, entryRank, entryRank, Prod.Lex.toLex_lt_toLex,
        Prod.Lex.toLex_lt_toLex]
      simp [keys]
    · rw [breaks.equal probe a b aReal bReal]
      constructor
      · rintro rfl
        rw [key_bytes_injective keys]
      · exact fun same => (entry_rank_injective same).2
  · have differ : keyBytes first ≠ keyBytes second := fun same => tie (zero.mpr same)
    simp only [ne_eq, tie, not_false_eq_true, if_true]
    constructor
    · rw [negative, entryRank, entryRank, Prod.Lex.toLex_lt_toLex]
      simp [differ]
    · exact ⟨False.elim,
        fun same => absurd (congrArg keyBytes (entry_rank_injective same).1) differ⟩

/-- Where the searched name stands in the order, in front of all its sectors. -/
def placeRank (key : Fin 8 → Byte) (rank : K) : List Nat ×ₗ K :=
  toLex (keyBytes key, rank)

theorem ni_cmp_probe (breaks : BreaksTies tiebreak nameRank probeRank) (probe : P)
    (first second : Fin 8 → Byte) {sector : Nat} (real : sector ≠ niProbeSector) :
    (niCmp first sector second niProbeSector (tiebreak probe) < 0 ↔
      placeRank first (nameRank sector) < placeRank second (probeRank probe)) ∧
    (niCmp first sector second niProbeSector (tiebreak probe) = 0 ↔
      placeRank first (nameRank sector) = placeRank second (probeRank probe)) := by
  obtain ⟨negative, zero⟩ := key_cmp_rank first second
  unfold niCmp
  by_cases tie : keyCmp first second = 0
  · have keys := zero.mp tie
    simp only [tie, ne_eq, not_true_eq_false, if_false]
    constructor
    · rw [breaks.probeBelow probe sector real, placeRank, placeRank, Prod.Lex.toLex_lt_toLex]
      simp [keys]
    · rw [breaks.probeEqual probe sector real, placeRank, placeRank, keys]
      exact ⟨fun same => by rw [same], fun same => congrArg (fun rank => (ofLex rank).2) same⟩
  · have differ : keyBytes first ≠ keyBytes second := fun same => tie (zero.mpr same)
    simp only [ne_eq, tie, not_false_eq_true, if_true]
    constructor
    · rw [negative, placeRank, placeRank, Prod.Lex.toLex_lt_toLex]
      simp [differ]
    · exact ⟨False.elim,
        fun same => absurd (congrArg (fun rank => (ofLex rank).1) same) differ⟩

theorem place_rank_mono {first second : Fin 8 → Byte} {a b : Nat}
    (less : entryRank nameRank first a < entryRank nameRank second b) :
    placeRank first (nameRank a) ≤ placeRank second (nameRank b) := by
  rw [entryRank, entryRank, Prod.Lex.toLex_lt_toLex, Prod.Lex.toLex_lt_toLex] at less
  rw [placeRank, placeRank, Prod.Lex.toLex_le_toLex]
  rcases less with smaller | ⟨keys, smaller | ⟨names, _⟩⟩
  · exact Or.inl smaller
  · exact Or.inr ⟨keys, smaller.le⟩
  · exact Or.inr ⟨keys, names.le⟩

end Order

namespace NameCursor

/-- The characters that a cursor still returns. -/
def rest (cursor : NameCursor) : List Byte :=
  cursor.p ++ (cursor.last.map fun last => 32#8 :: last).getD []

theorem next_nil {cursor : NameCursor} (ended : cursor.rest = []) :
    cursorNext cursor = (0#8, cursor) := by
  obtain ⟨p, last⟩ := cursor
  cases p with
  | cons character tail => cases ended
  | nil =>
      cases last with
      | some last => cases ended
      | none => rfl

theorem next_cons {cursor : NameCursor} {character : Byte} {tail : List Byte}
    (more : cursor.rest = character :: tail) :
    (cursorNext cursor).1 = character ∧ (cursorNext cursor).2.rest = tail := by
  obtain ⟨p, last⟩ := cursor
  cases p with
  | cons first others =>
      obtain ⟨rfl, rfl⟩ := List.cons.inj more
      exact ⟨rfl, rfl⟩
  | nil =>
      cases last with
      | none => cases more
      | some last =>
          obtain ⟨rfl, rfl⟩ := List.cons.inj more
          exact ⟨rfl, List.append_nil last⟩

end NameCursor

theorem full_name_cmp_from_sign (folded : Bool) (fuel : Nat) (ca cb : NameCursor)
    (enough : ca.rest.length < fuel) (aText : ∀ character ∈ ca.rest, character ≠ 0#8)
    (bText : ∀ character ∈ cb.rest, character ≠ 0#8) :
    (fullNameCmpFrom folded fuel ca cb < 0 ↔
      comparedBytes folded ca.rest < comparedBytes folded cb.rest) ∧
    (fullNameCmpFrom folded fuel ca cb = 0 ↔
      comparedBytes folded ca.rest = comparedBytes folded cb.rest) := by
  induction fuel generalizing ca cb with
  | zero => exact absurd enough (Nat.not_lt_zero _)
  | succ fuel ih =>
      have foldZero : (if folded then removeCase 0#8 else 0#8) = 0#8 := by cases folded <;> rfl
      have foldText : ∀ character : Byte, character ≠ 0#8 →
          (if folded then removeCase character else character) ≠ 0#8 := by
        intro character given
        cases folded with
        | false => exact given
        | true =>
            have nonzero := remove_case_nonzero given
            exact fun zero => nonzero (by rw [if_pos rfl] at zero; rw [zero]; rfl)
      have wide : ∀ x : Byte, x ≠ 0#8 → 0 < x.toNat := fun x given =>
        Nat.pos_of_ne_zero fun zero => given (BitVec.eq_of_toNat_eq zero)
      unfold fullNameCmpFrom
      cases aRest : ca.rest with
      | nil =>
          rw [NameCursor.next_nil aRest]
          cases bRest : cb.rest with
          | nil =>
              rw [NameCursor.next_nil bRest]
              simp [foldZero]
          | cons y bTail =>
              obtain ⟨next, _⟩ := NameCursor.next_cons bRest
              have given := foldText y (bText y (by simp [bRest]))
              have positive := wide _ given
              simp only [next, foldZero, ne_eq, Ne.symm given, not_false_eq_true, if_true,
                comparedBytes, List.map_nil, List.map_cons]
              constructor
              · exact iff_of_true (by simp only [BitVec.toNat_ofNat]; omega) (List.nil_lt_cons _ _)
              · refine iff_of_false ?_ (List.cons_ne_nil _ _).symm
                simp only [BitVec.toNat_ofNat]
                omega
      | cons x aTail =>
          obtain ⟨nextA, laterA⟩ := NameCursor.next_cons aRest
          have givenA := foldText x (aText x (by simp [aRest]))
          have positiveA := wide _ givenA
          cases bRest : cb.rest with
          | nil =>
              rw [NameCursor.next_nil bRest]
              simp only [nextA, foldZero, ne_eq, givenA, not_false_eq_true, if_true,
                comparedBytes, List.map_nil, List.map_cons]
              constructor
              · refine iff_of_false ?_ (List.not_lt_nil _)
                simp only [BitVec.toNat_ofNat]
                omega
              · refine iff_of_false ?_ (List.cons_ne_nil _ _)
                simp only [BitVec.toNat_ofNat]
                omega
          | cons y bTail =>
              obtain ⟨nextB, laterB⟩ := NameCursor.next_cons bRest
              simp only [nextA, nextB, comparedBytes, List.map_cons, List.cons_lt_cons_iff,
                List.cons.injEq]
              by_cases same : (if folded then removeCase x else x) =
                  if folded then removeCase y else y
              · have later := ih (cursorNext ca).2 (cursorNext cb).2
                  (by rw [laterA]; rw [aRest, List.length_cons] at enough; omega)
                  (by rw [laterA]; exact fun character member =>
                    aText character (by simp [aRest, member]))
                  (by rw [laterB]; exact fun character member =>
                    bText character (by simp [bRest, member]))
                rw [laterA, laterB] at later
                rw [same] at givenA
                simpa [same, givenA, comparedBytes] using later
              · have different : (if folded then removeCase x else x).toNat ≠
                    (if folded then removeCase y else y).toNat :=
                  fun equal => same (BitVec.eq_of_toNat_eq equal)
                simp only [ne_eq, same, not_false_eq_true, if_true, different, false_and, or_false,
                  iff_false]
                omega

namespace NameTable

/-- The words contain no zero bytes. -/
structure TextWords (table : NameTable) : Prop where
  first : ∀ word, ∀ character ∈ table.firstWords word, character ≠ 0#8
  last : ∀ word, ∀ character ∈ table.lastWords word, character ≠ 0#8

theorem TextWords.full {table : NameTable} (text : TextWords table) (name : NiName) :
    ∀ character ∈ table.fullName name, character ≠ 0#8 := by
  intro character member
  rcases List.mem_append.mp member with inFirst | inRest
  · exact text.first _ character inFirst
  · rcases List.mem_cons.mp inRest with rfl | inLast
    · decide
    · exact text.last _ character inLast

theorem full_name_cmp_sign {table : NameTable} (text : TextWords table) (a b : NiName)
    (folded : Bool) :
    (table.fullNameCmp a b folded < 0 ↔
      comparedBytes folded (table.fullName a) < comparedBytes folded (table.fullName b)) ∧
    (table.fullNameCmp a b folded = 0 ↔
      comparedBytes folded (table.fullName a) = comparedBytes folded (table.fullName b)) :=
  full_name_cmp_from_sign folded _ (table.cursor a) (table.cursor b) (Nat.lt_succ_self _)
    (text.full a) (text.full b)

/-- Lower case first, then the bytes as they are. -/
def fullRank (table : NameTable) (name : NiName) : List Nat ×ₗ List Nat :=
  toLex (comparedBytes true (table.fullName name), comparedBytes false (table.fullName name))

def sectorRank (table : NameTable) (sector : Nat) : List Nat ×ₗ List Nat :=
  table.fullRank (table.names sector)

/-- The two comparisons of `nb_tiebreak` before the sectors. -/
def namesCmp (table : NameTable) (a b : NiName) : Int :=
  if table.fullNameCmp a b true = 0 then table.fullNameCmp a b false
  else table.fullNameCmp a b true

theorem names_cmp_sign {table : NameTable} (text : TextWords table) (a b : NiName) :
    (table.namesCmp a b < 0 ↔ table.fullRank a < table.fullRank b) ∧
      (table.namesCmp a b = 0 ↔ table.fullRank a = table.fullRank b) := by
  obtain ⟨foldedBelow, foldedEqual⟩ := full_name_cmp_sign text a b true
  obtain ⟨exactBelow, exactEqual⟩ := full_name_cmp_sign text a b false
  unfold namesCmp fullRank
  rw [Prod.Lex.toLex_lt_toLex]
  by_cases tie : table.fullNameCmp a b true = 0
  · rw [if_pos tie, exactBelow, exactEqual]
    have folded := foldedEqual.mp tie
    constructor
    · simp [folded]
    · exact ⟨fun same => by rw [folded, same],
        fun same => congrArg (fun rank => (ofLex rank).2) same⟩
  · have differ : comparedBytes true (table.fullName a) ≠ comparedBytes true (table.fullName b) :=
      fun same => tie (foldedEqual.mpr same)
    rw [if_neg tie, foldedBelow]
    constructor
    · simp [differ]
    · exact ⟨fun zero => absurd zero tie,
        fun same => absurd (congrArg (fun rank => (ofLex rank).1) same) differ⟩

theorem fullNameCmp_probe (table : NameTable) (probe a b : NiName) (folded : Bool) :
    fullNameCmp { table with probe } a b folded = table.fullNameCmp a b folded := rfl

theorem nb_tiebreak_breaks {table : NameTable} (text : TextWords table) :
    BreaksTies (fun probe => nbTiebreak { table with probe }) table.sectorRank table.fullRank where
  below probe first second firstReal secondReal := by
    obtain ⟨below, equal⟩ := names_cmp_sign text (table.names first) (table.names second)
    unfold nbTiebreak
    simp only [fullNameCmp_probe, firstReal, secondReal, or_self, if_false]
    rw [← sectorRank, ← sectorRank] at below equal
    rw [← below, ← equal]
    change (if table.namesCmp _ _ ≠ 0 then table.namesCmp _ _ else _) < 0 ↔ _
    by_cases tie : table.namesCmp (table.names first) (table.names second) = 0
    · simp only [tie, ne_eq, not_true_eq_false, if_false, lt_irrefl, false_or, true_and]
      split <;> split <;> omega
    · simp [tie]
  equal probe first second firstReal secondReal := by
    unfold nbTiebreak
    simp only [fullNameCmp_probe, firstReal, secondReal, or_self, if_false]
    change (if table.namesCmp _ _ ≠ 0 then table.namesCmp _ _ else _) = 0 ↔ _
    by_cases tie : table.namesCmp (table.names first) (table.names second) = 0
    · simp only [tie, ne_eq, not_true_eq_false, if_false]
      split <;> split <;> omega
    · simp only [ne_eq, tie, not_false_eq_true, if_true, false_iff]
      rintro rfl
      exact tie ((names_cmp_sign text _ _).2.mpr rfl)
  probeBelow probe sector real := by
    obtain ⟨below, _⟩ := names_cmp_sign text (table.names sector) probe
    unfold nbTiebreak
    simp only [fullNameCmp_probe, real, if_true, or_true, if_false]
    rw [sectorRank, ← below]
    change (if table.namesCmp _ _ ≠ 0 then table.namesCmp _ _ else _) < 0 ↔ _
    by_cases tie : table.namesCmp (table.names sector) probe = 0 <;> simp [tie]
  probeEqual probe sector real := by
    obtain ⟨_, equal⟩ := names_cmp_sign text (table.names sector) probe
    unfold nbTiebreak
    simp only [fullNameCmp_probe, real, if_true, or_true, if_false]
    rw [sectorRank, ← equal]
    change (if table.namesCmp _ _ ≠ 0 then table.namesCmp _ _ else _) = 0 ↔ _
    by_cases tie : table.namesCmp (table.names sector) probe = 0 <;> simp [tie]

end NameTable

end SdDatabase
