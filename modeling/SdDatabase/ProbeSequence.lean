import SdDatabase.DamagedLookups
import Mathlib.Tactic.NormNum.Prime

/-!
# The probe sequence

The slots that a lookup examines: the arithmetic of a probe in the types of the
source, the order of the slots in a table of prime size, and what a lookup has
examined when it ends.
-/

namespace SdDatabase

open Bytes Device OpenAddressing

set_option autoImplicit false

/-- A value that a `uint16_t` holds. -/
def inUint16 (value : Nat) : Option Nat := if value < 2 ^ 16 then some value else none

/-- A value that is not negative and that an `int` of 32 bits holds. -/
def inInt (value : Nat) : Option Nat := if value < 2 ^ 31 then some value else none

def remainder (value divisor : Nat) : Option Nat :=
  if divisor = 0 then none else some (value % divisor)

def hashDouble (key attemptNum capacity : Nat) : Nat :=
  (hashPrimary key capacity + attemptNum * hashSecondary key capacity) % capacity

def hashPrimaryTyped (key capacity : Nat) : Option Nat := do
  inUint16 (← remainder key capacity)

def hashSecondaryTyped (key capacity : Nat) : Option Nat := do
  inUint16 (← inInt (1 + (← remainder key (capacity - 1))))

def hashDoubleTyped (key attemptNum capacity : Nat) : Option Nat := do
  let h1 ← hashPrimaryTyped key capacity
  let h2 ← hashSecondaryTyped key capacity
  let product ← inInt (attemptNum * h2)
  inUint16 (← remainder (← inInt (h1 + product)) capacity)

/-- One round of the loop of `hash_find_entry`: the slot and the counter of the next round. The
size is a `size_t` that the hash functions take as a `uint16_t`. -/
def probeTyped (target attempt size : Nat) : Option (Nat × Nat) := do
  let capacity ← inUint16 size
  let h1 ← hashPrimaryTyped target capacity
  let h2 ← hashSecondaryTyped target capacity
  let product ← inInt (attempt * h2)
  let index ← inUint16 (← remainder (← inInt (h1 + product)) size)
  let next ← inUint16 (attempt + 1)
  return (index, next)

theorem in_uint16_of_lt {value : Nat} (bound : value < 2 ^ 16) : inUint16 value = some value :=
  if_pos bound

theorem in_int_of_lt {value : Nat} (bound : value < 2 ^ 31) : inInt value = some value :=
  if_pos bound

theorem remainder_of_pos {value divisor : Nat} (positive : 0 < divisor) :
    remainder value divisor = some (value % divisor) :=
  if_neg (Nat.ne_of_gt positive)

section Arithmetic

variable {size : Nat} (two : 2 ≤ size) (small : size ≤ 46337) (key : Nat)

include two

theorem hash_primary_lt : hashPrimary key size < size := Nat.mod_lt _ (by omega)

theorem hash_secondary_pos_lt : 0 < hashSecondary key size ∧ hashSecondary key size < size := by
  have below : key % (size - 1) < size - 1 := Nat.mod_lt _ (by omega)
  unfold hashSecondary
  omega

include small

theorem primary_typed : hashPrimaryTyped key size = some (hashPrimary key size) := by
  have below := hash_primary_lt two key
  unfold hashPrimaryTyped
  rw [remainder_of_pos (by omega)]
  exact in_uint16_of_lt (by unfold hashPrimary at below; omega)

theorem secondary_typed : hashSecondaryTyped key size = some (hashSecondary key size) := by
  have below := (hash_secondary_pos_lt two key).2
  unfold hashSecondary at below
  unfold hashSecondaryTyped
  rw [remainder_of_pos (by omega)]
  have sum : inInt (1 + key % (size - 1)) = some (1 + key % (size - 1)) :=
    in_int_of_lt (by omega)
  exact (congrArg (fun value : Option Nat => value.bind inUint16) sum).trans
    (in_uint16_of_lt (by omega))

theorem probe_bounds {attempt : Nat} (bound : attempt < size) :
    attempt * hashSecondary key size < 2 ^ 31 ∧
      hashPrimary key size + attempt * hashSecondary key size < 2 ^ 31 := by
  have first := hash_primary_lt two key
  have second := (hash_secondary_pos_lt two key).2
  have product : attempt * hashSecondary key size ≤ 46336 * 46336 :=
    Nat.mul_le_mul (by omega) (by omega)
  constructor
  · exact lt_of_le_of_lt product (by decide)
  · have total := Nat.add_le_add (show hashPrimary key size ≤ 46336 by omega) product
    exact lt_of_le_of_lt total (by decide)

theorem double_typed {attempt : Nat} (bound : attempt < size) :
    hashDoubleTyped key attempt size = some (hashDouble key attempt size) := by
  obtain ⟨product, sum⟩ := probe_bounds two small key bound
  have slot : hashDouble key attempt size < size := Nat.mod_lt _ (by omega)
  unfold hashDoubleTyped
  rw [primary_typed two small, secondary_typed two small]
  simp only [Option.bind_eq_bind, Option.bind_some, in_int_of_lt product, in_int_of_lt sum,
    remainder_of_pos (show 0 < size by omega)]
  exact in_uint16_of_lt (by unfold hashDouble at slot; omega)

theorem probe_typed {attempt : Nat} (bound : attempt < size) :
    probeTyped key attempt size = some (hashDouble key attempt size, attempt + 1) := by
  obtain ⟨product, sum⟩ := probe_bounds two small key bound
  have slot : hashDouble key attempt size < size := Nat.mod_lt _ (by omega)
  unfold hashDouble at slot
  unfold probeTyped
  rw [in_uint16_of_lt (show size < 2 ^ 16 by omega)]
  simp only [Option.bind_eq_bind, Option.bind_some, primary_typed two small,
    secondary_typed two small, in_int_of_lt product, in_int_of_lt sum,
    remainder_of_pos (show 0 < size by omega)]
  rw [in_uint16_of_lt (by omega), in_uint16_of_lt (show attempt + 1 < 2 ^ 16 by omega)]
  rfl

end Arithmetic

def probeSlots (hash size : Nat) : List Nat :=
  (List.range size).map fun attempt => hashDouble hash attempt size

theorem probe_slots_perm {size : Nat} (prime : size.Prime) (hash : Nat) :
    (probeSlots hash size).Perm (List.range size) := by
  obtain ⟨positive, below⟩ := hash_secondary_pos_lt prime.two_le hash
  have coprime : (hashSecondary hash size).Coprime size :=
    ((Nat.Prime.coprime_iff_not_dvd prime).mpr (Nat.not_dvd_of_pos_of_lt positive below)).symm
  exact double_hash_path_perm _ coprime

/-- The loop of `hash_find_entry` with the slots that it has examined. -/
def probeFromSeen (phone : List Byte) (target h1 h2 : Nat) :
    Nat → Nat → Contact → Option Nat → List Nat → DbM (Option Nat × List Nat)
  | 0, _, _, firstFree, seen => return (firstFree, seen)
  | count + 1, attempt, contact, firstFree, seen => do
      let table := (← get).htable
      let index := (h1 + attempt * h2) % table.size
      let cur := table.htable index
      let seen := seen ++ [index]
      match cur.state with
      | .empty => return (some (firstFree.getD index), seen)
      | .deleted =>
          probeFromSeen phone target h1 h2 count (attempt + 1) contact
            (some (firstFree.getD index)) seen
      | .occupied =>
          if cur.id = target then
            match ← readContact cur.sector with
            | .ok found =>
                if cstr found.phone = phone then return (some index, seen)
                probeFromSeen phone target h1 h2 count (attempt + 1) found firstFree seen
            | .error ret =>
                if ret = .strgFail ∨ ret = .strgCorrupt then
                  probeFromSeen phone target h1 h2 count (attempt + 1) contact firstFree seen
                else if cstr contact.phone = phone then return (some index, seen)
                else probeFromSeen phone target h1 h2 count (attempt + 1) contact firstFree seen
          else probeFromSeen phone target h1 h2 count (attempt + 1) contact firstFree seen

/-- `hash_find_entry` with the slots that it examines. -/
def hashFindEntrySeen (phone : List Byte) : DbM (Option Nat × List Nat) := do
  let size := (← get).htable.size
  let target := hashPhone phone
  let h1 := hashPrimary target (u16 size)
  let h2 := hashSecondary target (u16 size)
  probeFromSeen phone target h1 h2 size 0 .zero none []

/-- The search ends at this slot: it is empty, or it is what is found. -/
def EndsAt (table : HashTable) (found : Option Nat) (slot : Nat) : Prop :=
  ((table.htable slot).state = .empty ∧ found ≠ none) ∨
    ((table.htable slot).state = .occupied ∧ found = some slot)

/-- The slots examined are all of the path, or those up to the one that ends the search. -/
def Examines (table : HashTable) (path : List Nat) (found : Option Nat) (slots : List Nat) : Prop :=
  slots = path ∨ ∃ before slot after, path = before ++ slot :: after ∧ slots = before ++ [slot] ∧
    EndsAt table found slot

theorem Examines.cons {table : HashTable} {path slots : List Nat} {found : Option Nat}
    (examines : Examines table path found slots) (index : Nat) :
    Examines table (index :: path) found (index :: slots) := by
  rcases examines with rfl | ⟨before, slot, after, rfl, rfl, ends⟩
  · exact Or.inl rfl
  · exact Or.inr ⟨index :: before, slot, after, rfl, rfl, ends⟩

theorem examines_first {table : HashTable} {found : Option Nat} {index : Nat}
    (ends : EndsAt table found index) (path : List Nat) :
    Examines table (index :: path) found [index] :=
  Or.inr ⟨[], index, path, rfl, rfl, ends⟩

section Lookups

variable {db : Database} {card : Card Sector} (phone : List Byte) (target h1 h2 : Nat)

def roundSlots (h1 h2 size : Nat) (attempt count : Nat) : List Nat :=
  (List.range' attempt count).map fun round => (h1 + round * h2) % size

theorem probe_seen (count attempt : Nat) (contact : Contact) (firstFree : Option Nat)
    (seen : List Nat) (faults : Faults Sector) :
    ∃ found left slots,
      exec (probeFrom phone target h1 h2 count attempt contact firstFree) db faults card =
        ((found, db), left, card) ∧
      exec (probeFromSeen phone target h1 h2 count attempt contact firstFree seen) db faults card =
        (((found, seen ++ slots), db), left, card) ∧
      Examines db.htable (roundSlots h1 h2 db.htable.size attempt count) found slots := by
  induction count generalizing attempt contact firstFree seen faults with
  | zero =>
      refine ⟨firstFree, faults, [], rfl, ?_, Or.inl rfl⟩
      rw [List.append_nil]
      rfl
  | succ count ih =>
      unfold probeFrom probeFromSeen
      rw [exec_bind_of (exec_get _ _ _), exec_bind_of (exec_get _ _ _)]
      have rounds : roundSlots h1 h2 db.htable.size attempt (count + 1) =
          (h1 + attempt * h2) % db.htable.size ::
            roundSlots h1 h2 db.htable.size (attempt + 1) count := rfl
      rw [rounds]
      dsimp only
      generalize (h1 + attempt * h2) % db.htable.size = index
      -- a round that goes on is followed by the rounds of the induction hypothesis
      have goesOn : ∀ contact firstFree (faults : Faults Sector), ∃ found left slots,
          exec (probeFrom phone target h1 h2 count (attempt + 1) contact firstFree) db faults
            card = ((found, db), left, card) ∧
          exec (probeFromSeen phone target h1 h2 count (attempt + 1) contact firstFree
            (seen ++ [index])) db faults card = (((found, seen ++ slots), db), left, card) ∧
          Examines db.htable (index :: roundSlots h1 h2 db.htable.size (attempt + 1) count) found
            slots := by
        intro contact firstFree faults
        obtain ⟨found, left, slots, plain, recorded, examines⟩ :=
          ih (attempt + 1) contact firstFree (seen ++ [index]) faults
        refine ⟨found, left, index :: slots, plain, ?_, examines.cons index⟩
        rw [recorded, List.append_assoc]
        rfl
      cases state : (db.htable.htable index).state with
      | empty =>
          exact ⟨_, faults, [index], rfl, rfl,
            examines_first (Or.inl ⟨state, Option.some_ne_none _⟩) _⟩
      | deleted => exact goesOn _ _ _
      | occupied =>
          dsimp only
          by_cases tag : (db.htable.htable index).id = target
          · rw [if_pos tag, if_pos tag, exec_bind_of (exec_readContact _),
              exec_bind_of (exec_readContact _)]
            cases guardedAnswer _ _ _ (parseContact (db.htable.htable index).sector) with
            | ok found =>
                dsimp only
                by_cases match_ : cstr found.phone = phone
                · rw [if_pos match_, if_pos match_]
                  exact ⟨_, _, [index], rfl, rfl, examines_first (Or.inr ⟨state, rfl⟩) _⟩
                · rw [if_neg match_, if_neg match_]
                  exact goesOn _ _ _
            | error ret =>
                dsimp only
                by_cases missed : ret = .strgFail ∨ ret = .strgCorrupt
                · rw [if_pos missed, if_pos missed]
                  exact goesOn _ _ _
                · rw [if_neg missed, if_neg missed]
                  by_cases match_ : cstr contact.phone = phone
                  · rw [if_pos match_, if_pos match_]
                    exact ⟨_, _, [index], rfl, rfl, examines_first (Or.inr ⟨state, rfl⟩) _⟩
                  · rw [if_neg match_, if_neg match_]
                    exact goesOn _ _ _
          · rw [if_neg tag, if_neg tag]
            exact goesOn _ _ _

variable {size : Nat} (sized : db.htable.size = size)

include sized

theorem find_entry_seen (narrow : size < 65536) (faults : Faults Sector) :
    ∃ found left slots,
      exec (hashFindEntry phone) db faults card = ((found, db), left, card) ∧
      exec (hashFindEntrySeen phone) db faults card = (((found, slots), db), left, card) ∧
      Examines db.htable (probeSlots (hashPhone phone) size) found slots := by
  obtain ⟨found, left, slots, plain, recorded, examines⟩ := @probe_seen db card phone
    (hashPhone phone) (hashPrimary (hashPhone phone) (u16 size))
    (hashSecondary (hashPhone phone) (u16 size)) size 0 .zero none [] faults
  have path : roundSlots (hashPrimary (hashPhone phone) (u16 size))
      (hashSecondary (hashPhone phone) (u16 size)) db.htable.size 0 size =
        probeSlots (hashPhone phone) size := by
    rw [sized, u16_of_lt narrow, probeSlots, List.range_eq_range']
    rfl
  rw [path] at examines
  refine ⟨found, left, slots, ?_, ?_, examines⟩
  · unfold hashFindEntry
    rw [exec_bind_of (exec_get _ _ _), sized]
    exact plain
  · unfold hashFindEntrySeen
    rw [exec_bind_of (exec_get _ _ _), sized]
    exact recorded

end Lookups

theorem Examines.all {table : HashTable} {path slots : List Nat} {found : Option Nat}
    (examines : Examines table path found slots)
    (goesOn : ∀ slot ∈ slots, ¬EndsAt table found slot) : slots = path := by
  rcases examines with all | ⟨before, slot, after, _, rfl, ends⟩
  · exact all
  · exact absurd ends (goesOn slot (List.mem_append_right before List.mem_cons_self))

theorem Examines.begins {table : HashTable} {path slots : List Nat} {found : Option Nat}
    (examines : Examines table path found slots) : slots <+: path := by
  rcases examines with rfl | ⟨before, slot, after, rfl, rfl, _⟩
  · exact List.prefix_rfl
  · exact ⟨after, by rw [List.append_assoc, List.singleton_append]⟩

/-- In a table of prime size up to 46337 no value of a probe leaves its type, the slots probed
for a hash are all slots of the table in some order, and a lookup that gives up has examined
every one of them once. -/
theorem probe_sequence_covers {size : Nat} (prime : size.Prime) (small : size ≤ 46337)
    (hash : BitVec 16) :
    (∀ attempt < size,
      probeTyped hash.toNat attempt size =
          some (hashDouble hash.toNat attempt size, attempt + 1) ∧
        hashDoubleTyped hash.toNat attempt size = some (hashDouble hash.toNat attempt size)) ∧
    (probeSlots hash.toNat size).Perm (List.range size) ∧
    ∀ phone db faults (card : Card Sector), hashPhone phone = hash.toNat →
      db.htable.size = size →
      ∃ found left slots,
        exec (hashFindEntry phone) db faults card = ((found, db), left, card) ∧
        exec (hashFindEntrySeen phone) db faults card = (((found, slots), db), left, card) ∧
        slots.Nodup ∧ slots <+: probeSlots hash.toNat size ∧
        ((∀ slot ∈ slots, ¬EndsAt db.htable found slot) → slots.Perm (List.range size)) ∧
        (found = none → slots.Perm (List.range size)) := by
  have two := prime.two_le
  have covers := probe_slots_perm prime hash.toNat
  refine ⟨fun attempt bound => ⟨probe_typed two small _ bound, double_typed two small _ bound⟩,
    covers, ?_⟩
  intro phone db faults card hashed sized
  obtain ⟨found, left, slots, plain, recorded, examines⟩ :=
    @find_entry_seen db card phone size sized (by omega) faults
  rw [hashed] at examines
  have complete : (∀ slot ∈ slots, ¬EndsAt db.htable found slot) →
      slots.Perm (List.range size) := by
    intro goesOn
    rw [examines.all goesOn]
    exact covers
  refine ⟨found, left, slots, plain, recorded, ?_, examines.begins, complete, ?_⟩
  · exact (covers.nodup_iff.mpr List.nodup_range).sublist examines.begins.sublist
  · intro givesUp
    apply complete
    intro slot _ ends
    rcases ends with ⟨_, some_⟩ | ⟨_, same⟩
    · exact some_ givesUp
    · rw [givesUp] at same
      cases same

/-- The largest size and the largest hash. -/
theorem probe_sequence_covers_example :
    (∀ attempt < 46337,
      probeTyped (65535#16).toNat attempt 46337 =
          some (hashDouble (65535#16).toNat attempt 46337, attempt + 1) ∧
        hashDoubleTyped (65535#16).toNat attempt 46337 =
          some (hashDouble (65535#16).toNat attempt 46337)) ∧
    (probeSlots (65535#16).toNat 46337).Perm (List.range 46337) ∧
    ∀ phone db faults (card : Card Sector), hashPhone phone = (65535#16).toNat →
      db.htable.size = 46337 →
      ∃ found left slots,
        exec (hashFindEntry phone) db faults card = ((found, db), left, card) ∧
        exec (hashFindEntrySeen phone) db faults card = (((found, slots), db), left, card) ∧
        slots.Nodup ∧ slots <+: probeSlots (65535#16).toNat 46337 ∧
        ((∀ slot ∈ slots, ¬EndsAt db.htable found slot) → slots.Perm (List.range 46337)) ∧
        (found = none → slots.Perm (List.range 46337)) :=
  probe_sequence_covers (by norm_num) (by decide) 65535#16

end SdDatabase
