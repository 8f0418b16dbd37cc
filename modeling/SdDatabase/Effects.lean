import SdDatabase.Reading
import SdDatabase.Recency

/-!
# What a call does

The effect of a call on a mounted database: its answer, the new phone book, the
invariant again, and the views that a power cut on the way may leave on the card.
-/

namespace SdDatabase

open Bytes Device

set_option autoImplicit false

def book (view : View) (chain : Nat → List Nat) : Set Person :=
  {person | ∃ slot, view.contact slot = some person.identity ∧
    chatOf view chain slot = person.chat}

/-- The program answers `result` and leaves a mounted database with the phone book
`model`. `during later laterChain count` are the views behind a cut after `count`
writes. -/
def Carries {A : Type} (program : DbM A) (db : Database) (card : Card Sector) (view : View)
    (chain : Nat → List Nat) (result : A) (model : Model)
    (during : View → (Nat → List Nat) → Nat → View → Prop) : Prop :=
  ∃ next log later laterChain listing,
    out program db card = ((result, next), log) ∧
    Leads card log next.usageBitmap later (during later laterChain) ∧
    Mounted next (applyWrites log card) later laterChain listing ∧
    (Tidy view chain → Tidy later laterChain) ∧
    modelOf next later laterChain listing = model

/-- The views of a call that is cut in one transaction. -/
def oldOrNew (view : View) : View → (Nat → List Nat) → Nat → View → Prop :=
  fun later _ _ seen => seen = view ∨ seen = later

section Effects

variable {db : Database} {card : Card Sector} {view : View} {chain : Nat → List Nat}
  {listing : Listing}

theorem carries_unchanged {A : Type} (mounted : Mounted db card view chain listing)
    {program : DbM A} {result : A} (run : out program db card = ((result, db), []))
    {during : View → (Nat → List Nat) → Nat → View → Prop} (known : ∀ count, during view chain count view) :
    Carries program db card view chain result (modelOf db view chain listing) during :=
  ⟨db, [], view, chain, listing, run,
    leads_nil mounted.core.idle mounted.core.holds known, mounted, id, rfl⟩

theorem Carries.mono {A : Type} {program : DbM A} {result : A} {model : Model}
    {during wider : View → (Nat → List Nat) → Nat → View → Prop}
    (carries : Carries program db card view chain result model during)
    (widen : ∀ later laterChain count seen, during later laterChain count seen →
      wider later laterChain count seen) :
    Carries program db card view chain result model wider := by
  obtain ⟨next, log, later, laterChain, laterListing, run, leads, rest⟩ := carries
  exact ⟨next, log, later, laterChain, laterListing, run,
    leads.mono fun count => widen later laterChain count, rest⟩

theorem mem_people (mounted : Mounted db card view chain listing) (person : Person) :
    person ∈ (modelOf db view chain listing).people ↔ person ∈ book view chain := by
  constructor
  · intro member
    obtain ⟨item, inListing, rfl⟩ := List.mem_map.mp member
    exact ⟨_, (mounted.listed_contact inListing).2, rfl⟩
  · rintro ⟨slot, stored, chat⟩
    obtain ⟨hashSlot, occupied, rfl, _⟩ := mounted.core.slot_of stored
    refine List.mem_map.mpr ⟨_, mounted.listed_of occupied stored, ?_⟩
    rw [personAt, chat]

end Effects

end SdDatabase
