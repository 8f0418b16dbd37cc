import SdDatabase.Lib.Device

/-!
# Devices with blocks that cannot be read

Some blocks of the device fail whenever they are read; the others are read and
written as on a healthy device. With no such block the run is the healthy one,
and each of these runs is a run with faults in which no write fails.
-/

namespace SdDatabase.Device

set_option autoImplicit false

variable {S A B σ : Type} (lost : Nat → Bool)

/-- Result and write log of a program when the blocks `lost` cannot be read. -/
def Prog.lossy : Prog S A → Card S → A × WriteLog S
  | .done value, _ => (value, [])
  | .read index next, card => (next (if lost index then none else some (card index))).lossy card
  | .write index block next, card =>
      let later := (next true).lossy (Function.update card index block)
      (later.1, (index, block) :: later.2)

theorem Prog.lossy_bind (program : Prog S A) (rest : A → Prog S B) (card : Card S) :
    (program.bind rest).lossy lost card =
      (let first := program.lossy lost card
       let second := (rest first.1).lossy lost (applyWrites first.2 card)
       (second.1, first.2 ++ second.2)) := by
  induction program generalizing card with
  | done value => rfl
  | read index next ih => exact ih _ card
  | write index block next ih =>
      simp only [Prog.bind, Prog.lossy, ih, apply_writes_cons, List.cons_append]

theorem Prog.lossy_none (program : Prog S A) (card : Card S) :
    program.lossy (fun _ => false) card = program.out card := by
  induction program generalizing card with
  | done value => rfl
  | read index next ih => exact ih _ card
  | write index block next ih =>
      unfold Prog.lossy Prog.out
      rw [ih]

/-- Result, final memory and write log of a run with lost blocks. -/
def lossy (program : DevM S σ A) (memory : σ) (card : Card S) : (A × σ) × WriteLog S :=
  (program memory).lossy lost card

section LossyRun

variable {lost}

theorem lossy_none (program : DevM S σ A) (memory : σ) (card : Card S) :
    lossy (fun _ => false) program memory card = out program memory card :=
  Prog.lossy_none (program memory) card

theorem lossy_bind_both {program : DevM S σ A} {rest : A → DevM S σ B} {memory middle last : σ}
    {card : Card S} {value : A} {result : B} {log more : WriteLog S}
    (first : lossy lost program memory card = ((value, middle), log))
    (second : lossy lost (rest value) middle (applyWrites log card) = ((result, last), more)) :
    lossy lost (program >>= rest) memory card = ((result, last), log ++ more) := by
  have split : lossy lost (program >>= rest) memory card =
      ((program memory).bind fun outcome => rest outcome.1 outcome.2).lossy lost card := rfl
  rw [split, Prog.lossy_bind, show (program memory).lossy lost card = _ from first]
  dsimp only
  rw [show (rest value middle).lossy lost (applyWrites log card) = _ from second]

/-- A first run that writes nothing. -/
theorem lossy_bind_read {program : DevM S σ A} {rest : A → DevM S σ B} {memory middle : σ}
    {card : Card S} {value : A} (first : lossy lost program memory card = ((value, middle), [])) :
    lossy lost (program >>= rest) memory card = lossy lost (rest value) middle card :=
  lossy_bind_both first rfl

theorem lossy_get (memory : σ) (card : Card S) :
    lossy lost (get : DevM S σ σ) memory card = ((memory, memory), []) := rfl

theorem lossy_modify (step : σ → σ) (memory : σ) (card : Card S) :
    lossy lost (modify step : DevM S σ PUnit) memory card =
      ((PUnit.unit, step memory), []) := rfl

theorem lossy_readBlock (index : Nat) (memory : σ) (card : Card S) :
    lossy lost (readBlock index : DevM S σ (Option S)) memory card =
      ((if lost index then none else some (card index), memory), []) := rfl

end LossyRun

end SdDatabase.Device
