import Mathlib.Data.List.Basic

/-!
# Callers that do not disturb one another

A machine answers calls one after the other. When the calls of one caller keep what
another caller can see, the answers to that other caller are those of its own calls
run alone, however the calls are interleaved.
-/

namespace SdDatabase.Unwinding

set_option autoImplicit false

variable {State Call Answer : Type} (step : State → Call → Answer × State)

/-- The answers to some calls behind one another. -/
def answers : State → List Call → List Answer
  | _, [] => []
  | state, call :: rest => (step state call).1 :: answers (step state call).2 rest

/-- Every call of the run is admitted where it stands. -/
def Admitted (admits : State → Call → Prop) : State → List Call → Prop
  | _, [] => True
  | state, call :: rest => admits state call ∧ Admitted admits (step state call).2 rest

def answersTo (mine : Call → Bool) (calls : List Call) (given : List Answer) : List Answer :=
  ((calls.zip given).filter fun answered => mine answered.1).map Prod.snd

/-- A relation between the states that look the same to one caller. The calls of others keep
it on one side, and its own calls keep it and get the same answers on both. -/
structure Separated (admits : State → Call → Prop) (mine : Call → Bool)
    (alike : State → State → Prop) : Prop where
  others : ∀ {first second call}, mine call = false → admits first call → alike first second →
    alike (step first call).2 second
  own : ∀ {first second call}, mine call = true → admits first call → admits second call →
    alike first second →
    (step first call).1 = (step second call).1 ∧ alike (step first call).2 (step second call).2

variable {step} {admits : State → Call → Prop} {mine : Call → Bool} {alike : State → State → Prop}

theorem answers_to_other {call : Call} (other : mine call = false) (calls : List Call)
    (answer : Answer) (given : List Answer) :
    answersTo mine (call :: calls) (answer :: given) = answersTo mine calls given := by
  rw [answersTo, List.zip_cons_cons, List.filter_cons, other, if_neg Bool.false_ne_true]
  rfl

theorem answers_to_own {call : Call} (own : mine call = true) (calls : List Call)
    (answer : Answer) (given : List Answer) :
    answersTo mine (call :: calls) (answer :: given) = answer :: answersTo mine calls given := by
  rw [answersTo, List.zip_cons_cons, List.filter_cons, own, if_pos rfl]
  rfl

theorem Separated.answers_alone (separated : Separated step admits mine alike)
    {first second : State} (same : alike first second) {calls : List Call}
    (admitted : Admitted step admits first calls)
    (alone : Admitted step admits second (calls.filter mine)) :
    answersTo mine calls (answers step first calls) =
      answers step second (calls.filter mine) := by
  induction calls generalizing first second with
  | nil => rfl
  | cons call rest ih =>
      rw [answers]
      cases isMine : mine call with
      | false =>
          have notMine : ¬mine call = true := by
            rw [isMine]
            exact Bool.false_ne_true
          rw [List.filter_cons_of_neg notMine] at alone ⊢
          rw [answers_to_other isMine]
          exact ih (separated.others isMine admitted.1 same) admitted.2 alone
      | true =>
          rw [List.filter_cons_of_pos isMine] at alone ⊢
          obtain ⟨answer, later⟩ := separated.own isMine admitted.1 alone.1 same
          rw [answers_to_own isMine, answers, answer, ih later admitted.2 alone.2]

end SdDatabase.Unwinding
