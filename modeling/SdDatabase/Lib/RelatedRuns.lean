import SdDatabase.Lib.Device

/-!
# Runs from related memories

Two runs of one program on the same card, from memories that stand in a relation. The
relation is carried through when the parts of the memories that the program acts on
agree; the answers and the writes are then the same.
-/

namespace SdDatabase.Device

set_option autoImplicit false

variable {S A B σ : Type}

/-- From related memories the program gives one answer and one log, and related memories
again. -/
def Related (relation : σ → σ → Prop) (program : DevM S σ A) : Prop :=
  ∀ left right card, relation left right → ∃ value leftAfter rightAfter log,
    out program left card = ((value, leftAfter), log) ∧
    out program right card = ((value, rightAfter), log) ∧ relation leftAfter rightAfter

section Related

variable {relation : σ → σ → Prop} {program : DevM S σ A} {rest : A → DevM S σ B}

theorem related_pure (value : A) : Related relation (pure value : DevM S σ A) :=
  fun left right _ related => ⟨value, left, right, [], rfl, rfl, related⟩

theorem Related.bind (before : Related relation program)
    (after : ∀ value, Related relation (rest value)) : Related relation (program >>= rest) := by
  intro left right card related
  obtain ⟨value, leftMiddle, rightMiddle, log, first, second, middle⟩ :=
    before left right card related
  obtain ⟨result, leftAfter, rightAfter, more, firstRest, secondRest, done⟩ :=
    after value leftMiddle rightMiddle (applyWrites log card) middle
  exact ⟨result, leftAfter, rightAfter, log ++ more, out_bind_both first firstRest,
    out_bind_both second secondRest, done⟩

theorem related_get {rest : σ → DevM S σ B}
    (depends : ∀ left right, relation left right → rest left = rest right)
    (after : ∀ memory, Related relation (rest memory)) : Related relation (get >>= rest) := by
  intro left right card related
  obtain ⟨result, leftAfter, rightAfter, log, first, second, done⟩ :=
    after left left right card related
  rw [depends left right related] at second
  exact ⟨result, leftAfter, rightAfter, [] ++ log, out_bind_both (out_get _ _) first,
    out_bind_both (out_get _ _) second, done⟩

theorem related_modify {step : σ → σ}
    (keeps : ∀ left right, relation left right → relation (step left) (step right)) :
    Related relation (modify step : DevM S σ PUnit) :=
  fun left right _ related =>
    ⟨PUnit.unit, step left, step right, [], rfl, rfl, keeps left right related⟩

theorem Related.ite {condition : Prop} [Decidable condition] {yes no : DevM S σ A}
    (first : Related relation yes) (second : Related relation no) :
    Related relation (if condition then yes else no) := by
  split
  · exact first
  · exact second

/-- A program that only reads what the relation makes equal. -/
theorem ReadsOf.related {K : Type} {key : σ → K} (reads : ReadsOf key program)
    (agree : ∀ left right, relation left right → key left = key right) :
    Related relation program := by
  intro left right card related
  obtain ⟨value, first, second⟩ := reads left right card (agree left right related)
  exact ⟨value, left, right, [], first, second, related⟩

end Related

end SdDatabase.Device
