import SdDatabase.Lib.FirstFailure

/-!
# Attempted writes

A run on a device on which writes fail, as the list of the writes that the
program attempts with the answers it gets. The list tells what the run leaves on
the device. A law that holds of lists put together from parts that obey it is
proved for a program part by part, together with what its steps ensure.
-/

namespace SdDatabase.Device

set_option autoImplicit false

variable {S A B σ : Type}

/-- A block write and whether it took effect. -/
structure Attempt (S : Type) where
  index : Nat
  block : S
  accepted : Bool

def acceptedWrites (trace : List (Attempt S)) : WriteLog S :=
  (trace.filter Attempt.accepted).map fun attempt => (attempt.index, attempt.block)

@[simp] theorem accepted_writes_nil : acceptedWrites ([] : List (Attempt S)) = [] := rfl

@[simp] theorem accepted_writes_cons (attempt : Attempt S) (rest : List (Attempt S)) :
    acceptedWrites (attempt :: rest) =
      if attempt.accepted then (attempt.index, attempt.block) :: acceptedWrites rest
      else acceptedWrites rest := by
  cases taken : attempt.accepted <;> simp [acceptedWrites, taken]

theorem accepted_writes_append (first second : List (Attempt S)) :
    acceptedWrites (first ++ second) = acceptedWrites first ++ acceptedWrites second := by
  rw [acceptedWrites, List.filter_append, List.map_append]
  rfl

/-- What is left of a pattern of answers behind some writes. -/
def dropWrites (count : Nat) (writes : Nat → Bool) : Nat → Bool :=
  fun index => writes (index + count)

theorem drop_writes_succ (count : Nat) (writes : Nat → Bool) :
    dropWrites count (dropWrites 1 writes) = dropWrites (count + 1) writes :=
  funext fun index => congrArg writes (Nat.add_assoc index count 1)

/-- Result and attempted writes of a program on a device that answers the writes as the
pattern says. -/
def Prog.attempts : Prog S A → (Nat → Bool) → Card S → A × List (Attempt S)
  | .done value, _, _ => (value, [])
  | .read index next, writes, card => (next (some (card index))).attempts writes card
  | .write index block next, writes, card =>
      let rest := (next (writes 0)).attempts (dropWrites 1 writes)
        (if writes 0 then Function.update card index block else card)
      (rest.1, ⟨index, block, writes 0⟩ :: rest.2)

theorem Prog.exec_attempts (program : Prog S A) (writes : Nat → Bool) (card : Card S) :
    program.exec (.failing writes) card =
      ((program.attempts writes card).1,
        .failing (dropWrites (program.attempts writes card).2.length writes),
        applyWrites (acceptedWrites (program.attempts writes card).2) card) := by
  induction program generalizing writes card with
  | done value => rfl
  | read index next ih => exact ih _ writes card
  | write index block next ih =>
      have answer : (Faults.failing writes : Faults S).writes 0 = writes 0 := rfl
      rw [Prog.exec, answer]
      cases taken : writes 0 with
      | true =>
          have rest := ih true (dropWrites 1 writes) (Function.update card index block)
          rw [drop_writes_succ] at rest
          simp only [Prog.attempts, taken, if_true, accepted_writes_cons]
          exact rest
      | false =>
          have rest := ih false (dropWrites 1 writes) card
          rw [drop_writes_succ] at rest
          simp only [Prog.attempts, taken, Bool.false_eq_true, if_false, accepted_writes_cons]
          exact rest

theorem Prog.attempts_bind (program : Prog S A) (rest : A → Prog S B) (writes : Nat → Bool)
    (card : Card S) :
    (program.bind rest).attempts writes card =
      (let first := program.attempts writes card
       let second := (rest first.1).attempts (dropWrites first.2.length writes)
         (applyWrites (acceptedWrites first.2) card)
       (second.1, first.2 ++ second.2)) := by
  induction program generalizing writes card with
  | done value => rfl
  | read index next ih => exact ih _ writes card
  | write index block next ih =>
      cases taken : writes 0 with
      | true =>
          have later := ih true (dropWrites 1 writes) (Function.update card index block)
          dsimp only at later
          rw [drop_writes_succ] at later
          simp only [Prog.bind, Prog.attempts, taken, if_true, accepted_writes_cons, later]
          rfl
      | false =>
          have later := ih false (dropWrites 1 writes) card
          dsimp only at later
          rw [drop_writes_succ] at later
          simp only [Prog.bind, Prog.attempts, taken, Bool.false_eq_true, if_false,
            accepted_writes_cons, later]
          rfl

/-- Result, final memory and attempted writes of a program with its memory. -/
def attempts (program : DevM S σ A) (memory : σ) (writes : Nat → Bool) (card : Card S) :
    (A × σ) × List (Attempt S) :=
  (program memory).attempts writes card

theorem exec_attempts (program : DevM S σ A) (memory : σ) (writes : Nat → Bool) (card : Card S) :
    exec program memory (.failing writes) card =
      ((attempts program memory writes card).1,
        .failing (dropWrites (attempts program memory writes card).2.length writes),
        applyWrites (acceptedWrites (attempts program memory writes card).2) card) :=
  Prog.exec_attempts (program memory) writes card

section Attempts

variable (memory : σ) (writes : Nat → Bool) (card : Card S)

theorem attempts_bind (program : DevM S σ A) (rest : A → DevM S σ B) :
    attempts (program >>= rest) memory writes card =
      (let first := attempts program memory writes card
       let second := attempts (rest first.1.1) first.1.2 (dropWrites first.2.length writes)
         (applyWrites (acceptedWrites first.2) card)
       (second.1, first.2 ++ second.2)) :=
  Prog.attempts_bind (program memory) (fun outcome => rest outcome.1 outcome.2) writes card

@[simp] theorem attempts_pure (value : A) :
    attempts (pure value : DevM S σ A) memory writes card = ((value, memory), []) := rfl

@[simp] theorem attempts_get :
    attempts (get : DevM S σ σ) memory writes card = ((memory, memory), []) := rfl

@[simp] theorem attempts_modify (step : σ → σ) :
    attempts (modify step : DevM S σ PUnit) memory writes card =
      ((PUnit.unit, step memory), []) := rfl

@[simp] theorem attempts_writeBlock (index : Nat) (block : S) :
    attempts (writeBlock index block : DevM S σ Bool) memory writes card =
      ((writes 0, memory), [⟨index, block, writes 0⟩]) := rfl

theorem attempts_bind_pure {program : DevM S σ A} {rest : A → DevM S σ B} {value : A} {later : σ}
    (known : attempts program memory writes card = ((value, later), [])) :
    attempts (program >>= rest) memory writes card = attempts (rest value) later writes card := by
  rw [attempts_bind, known]
  rfl

theorem Prog.attempts_silent (program : Prog S A) (silent : (program.out card).2 = []) :
    program.attempts writes card = ((program.out card).1, []) := by
  induction program generalizing card with
  | done value => rfl
  | read index next ih => exact ih _ card silent
  | write index block next ih => exact absurd silent (List.cons_ne_nil _ _)

theorem attempts_of_out {program : DevM S σ A} {value : A} {later : σ}
    (known : out program memory card = ((value, later), [])) :
    attempts program memory writes card = ((value, later), []) := by
  have run := Prog.attempts_silent writes card (program memory) (congrArg Prod.snd known)
  have result : ((program memory).out card).1 = (value, later) := congrArg Prod.fst known
  rw [result] at run
  exact run

end Attempts

/-- The attempts at the writes of a log, given up at the first one that fails. -/
def triedWrites : WriteLog S → (Nat → Bool) → List (Attempt S)
  | [], _ => []
  | (index, block) :: rest, writes =>
      ⟨index, block, writes 0⟩ :: if writes 0 then triedWrites rest (dropWrites 1 writes) else []

theorem accepted_tried_writes (log : WriteLog S) (writes : Nat → Bool) :
    acceptedWrites (triedWrites log writes) = log ∨
      ∃ count < log.length, acceptedWrites (triedWrites log writes) = log.take count := by
  induction log generalizing writes with
  | nil => exact Or.inl rfl
  | cons write rest ih =>
      cases taken : writes 0 with
      | true =>
          simp only [triedWrites, taken, if_true, accepted_writes_cons]
          rcases ih (dropWrites 1 writes) with all | ⟨count, within, part⟩
          · exact Or.inl (by rw [all])
          · exact Or.inr ⟨count + 1, Nat.succ_lt_succ within, by rw [part, List.take_succ_cons]⟩
      | false =>
          simp only [triedWrites, taken, Bool.false_eq_true, if_false, accepted_writes_cons,
            accepted_writes_nil]
          exact Or.inr ⟨0, Nat.zero_lt_succ _, rfl⟩

/-- A program that ends at its first failed write attempts the writes of its healthy run up to
that one. -/
theorem Prog.attempts_stops (program : Prog S A) (card : Card S) (writes : Nat → Bool)
    {count : Nat} {value : A} (within : count < (program.out card).2.length)
    (accepted : ∀ index < count, writes index = true) (fails : writes count = false)
    (stops : program.refused card count = .done value) :
    program.attempts writes card = (value, triedWrites (program.out card).2 writes) := by
  induction program generalizing card writes count with
  | done value => exact absurd within (Nat.not_lt_zero _)
  | read index next ih => exact ih _ card writes within accepted fails stops
  | write index block next ih =>
      cases count with
      | zero =>
          have answered : next false = .done value := stops
          simp only [Prog.attempts, fails, Prog.out, triedWrites, answered, Bool.false_eq_true,
            if_false]
      | succ count =>
          have first : writes 0 = true := accepted 0 (Nat.zero_lt_succ _)
          have rest := ih true (Function.update card index block) (dropWrites 1 writes)
            (Nat.lt_of_succ_lt_succ within)
            (fun later bound => accepted (later + 1) (Nat.succ_lt_succ bound)) fails stops
          simp only [Prog.attempts, first, Prog.out, triedWrites, if_true, rest]

theorem attempts_stops {program : DevM S σ A} {memory later : σ} {card : Card S}
    {writes : Nat → Bool} {count : Nat} {value : A}
    (within : count < (out program memory card).2.length)
    (accepted : ∀ index < count, writes index = true) (fails : writes count = false)
    (stops : refused program memory card count = .done (value, later)) :
    attempts program memory writes card =
      ((value, later), triedWrites (out program memory card).2 writes) :=
  Prog.attempts_stops (program memory) card writes within accepted fails stops

/-- A law that holds of nothing and of what is put together from parts that obey it. -/
structure TraceLaw (law : List (Attempt S) → Prop) : Prop where
  nil : law []
  append : ∀ first second, law first → law second → law (first ++ second)

/-- From a memory and a device as `before` says, whichever writes fail, the program ends as
`after` says and its attempted writes obey the law. -/
def Ensures (law : List (Attempt S) → Prop) (before : σ → Card S → Prop) (program : DevM S σ A)
    (after : A → σ → Card S → Prop) : Prop :=
  ∀ memory writes card, before memory card →
    after (attempts program memory writes card).1.1 (attempts program memory writes card).1.2
        (applyWrites (acceptedWrites (attempts program memory writes card).2) card) ∧
      law (attempts program memory writes card).2

section Ensures

variable {law : List (Attempt S) → Prop} {before weaker : σ → Card S → Prop}
  {program : DevM S σ A} {rest : A → DevM S σ B} {middle : A → σ → Card S → Prop}
  {after : B → σ → Card S → Prop}

theorem ensures_get {rest : σ → DevM S σ B}
    (ensures : ∀ memory, Ensures law (fun current card => current = memory ∧ before memory card)
      (rest memory) after) : Ensures law before (get >>= rest) after := by
  intro memory writes card given
  have run : attempts (get >>= rest) memory writes card =
      attempts (rest memory) memory writes card := rfl
  rw [run]
  exact ensures memory memory writes card ⟨rfl, given⟩

theorem ensures_writeBlock {after : Bool → σ → Card S → Prop} {index : Nat} {block : S}
    (taken : ∀ memory card, before memory card →
      after true memory (Function.update card index block))
    (refused : ∀ memory card, before memory card → after false memory card)
    (lawful : ∀ accepted, law [⟨index, block, accepted⟩]) :
    Ensures law before (writeBlock index block) after := by
  intro memory writes card given
  rw [attempts_writeBlock]
  refine ⟨?_, lawful _⟩
  cases writes 0 with
  | true => exact taken memory card given
  | false => exact refused memory card given

variable (law_ : TraceLaw law)

include law_

theorem ensures_pure {after : A → σ → Card S → Prop} {value : A}
    (holds : ∀ memory card, before memory card → after value memory card) :
    Ensures law before (pure value) after :=
  fun memory _ card given => ⟨holds memory card given, law_.nil⟩

theorem Ensures.bind (first : Ensures law before program middle)
    (second : ∀ value, Ensures law (middle value) (rest value) after) :
    Ensures law before (program >>= rest) after := by
  intro memory writes card given
  obtain ⟨reached, firstLaw⟩ := first memory writes card given
  obtain ⟨ends, secondLaw⟩ := second _ _ (dropWrites
    (attempts program memory writes card).2.length writes) _ reached
  rw [attempts_bind]
  dsimp only
  rw [accepted_writes_append, apply_writes_append]
  exact ⟨ends, law_.append _ _ firstLaw secondLaw⟩

theorem ensures_modify {after : PUnit → σ → Card S → Prop} {step : σ → σ}
    (holds : ∀ memory card, before memory card → after PUnit.unit (step memory) card) :
    Ensures law before (modify step) after :=
  fun memory _ card given => ⟨holds memory card given, law_.nil⟩

/-- A program that only reads ends with some answer and changes nothing. -/
theorem ensures_reads {K : Type} {key : σ → K} {after : A → σ → Card S → Prop}
    (reads : ReadsOf key program)
    (holds : ∀ value memory card, before memory card → after value memory card) :
    Ensures law before program after := by
  intro memory writes card given
  obtain ⟨value, run, _⟩ := reads memory memory card rfl
  rw [attempts_of_out memory writes card run]
  exact ⟨holds value memory card given, law_.nil⟩

end Ensures

end SdDatabase.Device
