import SdDatabase.Lib.Device

/-!
# The first write that fails

Up to the first write that the device refuses, a program runs as on a healthy
device. What it does from there on is the program that is left once that write
has been answered with a failure.
-/

namespace SdDatabase.Device

set_option autoImplicit false

variable {S A B σ : Type}

/-- What is left of a program when write number `count` fails. -/
def Prog.refused : Prog S A → Card S → Nat → Prog S A
  | .done value, _, _ => .done value
  | .read index next, card, count => (next (some (card index))).refused card count
  | .write _ _ next, _, 0 => next false
  | .write index block next, card, count + 1 =>
      (next true).refused (Function.update card index block) count

theorem Prog.exec_refused (program : Prog S A) (card : Card S) (writes : Nat → Bool) (count : Nat)
    (within : count < (program.out card).2.length)
    (accepted : ∀ index < count, writes index = true) (fails : writes count = false) :
    program.exec (.failing writes) card =
      (program.refused card count).exec (.failing fun index => writes (index + (count + 1)))
        (applyWrites ((program.out card).2.take count) card) := by
  induction program generalizing card writes count with
  | done value => exact absurd within (Nat.not_lt_zero _)
  | read index next ih => exact ih _ card writes count within accepted fails
  | write index block next ih =>
      cases count with
      | zero =>
          have refused : (Faults.failing writes : Faults S).writes 0 = false := fails
          rw [Prog.exec, refused, if_neg Bool.false_ne_true]
          rfl
      | succ count =>
          have first : (Faults.failing writes : Faults S).writes 0 = true :=
            accepted 0 (Nat.zero_lt_succ _)
          rw [Prog.exec, first, if_pos rfl]
          exact ih true _ (fun later => writes (later + 1)) count (Nat.lt_of_succ_lt_succ within)
            (fun later bound => accepted (later + 1) (Nat.succ_lt_succ bound)) fails

theorem Prog.exec_accepted (program : Prog S A) (card : Card S) (writes : Nat → Bool)
    (accepted : ∀ index < (program.out card).2.length, writes index = true) :
    program.exec (.failing writes) card =
      ((program.out card).1, .failing fun index => writes (index + (program.out card).2.length),
        applyWrites (program.out card).2 card) := by
  induction program generalizing card writes with
  | done value => rfl
  | read index next ih => exact ih _ card writes accepted
  | write index block next ih =>
      have first : (Faults.failing writes : Faults S).writes 0 = true :=
        accepted 0 (Nat.zero_lt_succ _)
      rw [Prog.exec, first, if_pos rfl]
      exact ih true _ (fun later => writes (later + 1))
        (fun later bound => accepted (later + 1) (Nat.succ_lt_succ bound))

theorem Prog.refused_bind_first (program : Prog S A) (rest : A → Prog S B) (card : Card S)
    (count : Nat) (within : count < (program.out card).2.length) :
    (program.bind rest).refused card count = (program.refused card count).bind rest := by
  induction program generalizing card count with
  | done value => exact absurd within (Nat.not_lt_zero _)
  | read index next ih => exact ih _ card count within
  | write index block next ih =>
      cases count with
      | zero => rfl
      | succ count => exact ih true _ count (Nat.lt_of_succ_lt_succ within)

theorem Prog.refused_bind_rest (program : Prog S A) (rest : A → Prog S B) (card : Card S)
    (count : Nat) :
    (program.bind rest).refused card ((program.out card).2.length + count) =
      (rest (program.out card).1).refused (applyWrites (program.out card).2 card) count := by
  induction program generalizing card with
  | done value => rw [Prog.out, List.length_nil, Nat.zero_add]; rfl
  | read index next ih => exact ih _ card
  | write index block next ih =>
      have size : (Prog.out (.write index block next) card).2.length + count =
          ((next true).out (Function.update card index block)).2.length + count + 1 := by
        rw [Prog.out, List.length_cons, Nat.succ_add]
      rw [size]
      exact ih true _

/-- What is left of a program with its memory when write number `count` fails. -/
def refused (program : DevM S σ A) (memory : σ) (card : Card S) (count : Nat) : Prog S (A × σ) :=
  (program memory).refused card count

section Refused

variable {program : DevM S σ A} {rest : A → DevM S σ B} {memory later : σ} {card : Card S}
  {count : Nat} {value : A}

theorem refused_bind_stops (within : count < (out program memory card).2.length)
    (stops : refused program memory card count = .done (value, later)) :
    refused (program >>= rest) memory card count = rest value later := by
  have split := Prog.refused_bind_first (program memory) (fun outcome => rest outcome.1 outcome.2)
    card count within
  have stopped : (program memory).refused card count = .done (value, later) := stops
  rw [stopped] at split
  exact split

theorem refused_bind_of {log : WriteLog S} {before : Nat}
    (known : out program memory card = ((value, later), log)) (size : log.length = before) :
    refused (program >>= rest) memory card (before + count) =
      refused (rest value) later (applyWrites log card) count := by
  subst size
  have split := Prog.refused_bind_rest (program memory)
    (fun outcome => rest outcome.1 outcome.2) card count
  have run : (program memory).out card = ((value, later), log) := known
  rw [run] at split
  exact split

theorem refused_bind_one {entry : Nat × S}
    (known : out program memory card = ((value, later), [entry])) :
    refused (program >>= rest) memory card (1 + count) =
      refused (rest value) later (applyWrites [entry] card) count :=
  refused_bind_of known rfl

theorem refused_bind_pure (known : out program memory card = ((value, later), [])) :
    refused (program >>= rest) memory card count = refused (rest value) later card count := by
  have split : refused (program >>= rest) memory card (0 + count) =
      refused (rest value) later card count := refused_bind_of known List.length_nil
  rwa [Nat.zero_add] at split

theorem refused_modify (step : σ → σ) (rest : PUnit → DevM S σ B) :
    refused (modify step >>= rest) memory card count =
      refused (rest PUnit.unit) (step memory) card count := rfl

/-- The whole run of a program that ends at its first failed write. -/
theorem exec_stops {writes : Nat → Bool} (within : count < (out program memory card).2.length)
    (accepted : ∀ index < count, writes index = true) (fails : writes count = false)
    (stops : refused program memory card count = .done (value, later)) :
    exec program memory (.failing writes) card =
      ((value, later), .failing fun index => writes (index + (count + 1)),
        applyWrites ((out program memory card).2.take count) card) := by
  have run := Prog.exec_refused (program memory) card writes count within accepted fails
  have stopped : (program memory).refused card count = .done (value, later) := stops
  rw [stopped] at run
  exact run

theorem exec_accepted {writes : Nat → Bool}
    (accepted : ∀ index < (out program memory card).2.length, writes index = true) :
    exec program memory (.failing writes) card =
      ((out program memory card).1,
        .failing fun index => writes (index + (out program memory card).2.length),
        applyWrites (out program memory card).2 card) :=
  Prog.exec_accepted (program memory) card writes accepted

end Refused

/-- A pattern accepts the first `count` writes, or refuses a first one of them. -/
theorem first_failure (writes : Nat → Bool) (count : Nat) :
    (∀ index < count, writes index = true) ∨
      ∃ first < count, (∀ index < first, writes index = true) ∧ writes first = false := by
  induction count with
  | zero => exact Or.inl fun index bound => absurd bound (Nat.not_lt_zero _)
  | succ count ih =>
      cases ih with
      | inl accepted =>
          cases last : writes count with
          | false => exact Or.inr ⟨count, Nat.lt_succ_self _, accepted, last⟩
          | true =>
              left
              intro index bound
              cases Nat.lt_succ_iff_lt_or_eq.mp bound with
              | inl below => exact accepted index below
              | inr same => rw [same, last]
      | inr refused =>
          obtain ⟨first, bound, rest⟩ := refused
          exact Or.inr ⟨first, Nat.lt_succ_of_lt bound, rest⟩

end SdDatabase.Device
