import SdDatabase.Lib.Device
import Mathlib.Data.List.Range

/-!
# Reads that fail

Every write succeeds and the reads fail as a pattern says. What a failed read does
is known for each read of the healthy run: nothing, or the program gives up, or it
takes a wrong turn. The first read that matters decides how the run ends.
-/

namespace SdDatabase.Device

set_option autoImplicit false

variable {S A B σ : Type}

/-- Writes succeed and the reads fail as the given pattern says. -/
def Faults.blind (fails : Nat → Bool) : Faults S where
  reads index := if fails index then .fails else .healthy
  writes _ := true

theorem healthy_blind : (Faults.healthy : Faults S) = .blind fun _ => false := rfl

/-- What a failure of one read of the healthy run does. -/
inductive Reading where
  /-- The run goes on as before. -/
  | spare
  /-- The program gives up. -/
  | fatal
  /-- The program takes a wrong turn, unless read number `behind` after it fails too. -/
  | wrong (behind : Nat)
  deriving DecidableEq

/-- How a run with these reads ends. -/
inductive Verdict where
  | clean
  | stopped
  | astray
  deriving DecidableEq

def verdict : List Reading → (Nat → Bool) → Verdict
  | [], _ => .clean
  | .spare :: rest, fails => verdict rest fun index => fails (index + 1)
  | .fatal :: rest, fails =>
      if fails 0 then .stopped else verdict rest fun index => fails (index + 1)
  | .wrong behind :: rest, fails =>
      if fails 0 then if fails (behind + 1) then .stopped else .astray
      else verdict rest fun index => fails (index + 1)

/-- A run that is decided in its first part is decided. -/
def Verdict.orElse : Verdict → Verdict → Verdict
  | .clean, later => later
  | first, _ => first

theorem verdict_append (first second : List Reading) (fails : Nat → Bool) :
    verdict (first ++ second) fails = (verdict first fails).orElse
      (verdict second fun index => fails (index + first.length)) := by
  induction first generalizing fails with
  | nil => rfl
  | cons reading rest ih =>
      have shift : (fun index => fails (index + rest.length + 1)) =
          fun index => fails (index + (reading :: rest).length) := by
        funext index
        rw [List.length_cons, ← Nat.add_assoc]
      have tail := ih fun index => fails (index + 1)
      rw [shift] at tail
      cases reading with
      | spare => exact tail
      | fatal =>
          rw [List.cons_append, verdict, verdict]
          cases fails 0 with
          | true => rfl
          | false => exact tail
      | wrong behind =>
          rw [List.cons_append, verdict, verdict]
          cases fails 0 with
          | true =>
              rw [if_pos rfl, if_pos rfl]
              cases fails (behind + 1) <;> rfl
          | false => exact tail

theorem verdict_quiet {readings : List Reading} {fails : Nat → Bool}
    (quiet : ∀ index < readings.length, fails index = false) : verdict readings fails = .clean := by
  induction readings generalizing fails with
  | nil => rfl
  | cons reading rest ih =>
      have first := quiet 0 (Nat.succ_pos _)
      have tail := @ih (fun index => fails (index + 1)) fun index inside =>
        quiet (index + 1) (Nat.succ_lt_succ inside)
      cases reading with
      | spare => exact tail
      | fatal => rwa [verdict, first, if_neg Bool.false_ne_true]
      | wrong behind => rwa [verdict, first, if_neg Bool.false_ne_true]

theorem verdict_healthy (readings : List Reading) : verdict readings (fun _ => false) = .clean :=
  verdict_quiet fun _ _ => rfl

theorem single_failure_astray {readings : List Reading} {behind : Nat}
    (member : .wrong behind ∈ readings) :
    ∃ read, verdict readings (fun index => decide (index = read)) = .astray := by
  obtain ⟨before, after, rfl⟩ := List.append_of_mem member
  refine ⟨before.length, ?_⟩
  rw [verdict_append, verdict_quiet fun index inside =>
    decide_eq_false (Nat.ne_of_lt inside)]
  dsimp only [Verdict.orElse]
  rw [verdict, if_pos (decide_eq_true (Nat.zero_add _)), if_neg]
  rw [decide_eq_true_eq]
  omega

theorem astray_wrong {readings : List Reading} {fails : Nat → Bool}
    (astray : verdict readings fails = .astray) : ∃ behind, .wrong behind ∈ readings := by
  induction readings generalizing fails with
  | nil => cases astray
  | cons reading rest ih =>
      have later : ∀ {fails}, verdict rest fails = .astray →
          ∃ behind, .wrong behind ∈ reading :: rest := by
        intro fails astray
        obtain ⟨behind, member⟩ := ih astray
        exact ⟨behind, List.mem_cons_of_mem _ member⟩
      cases reading with
      | spare => exact later astray
      | fatal =>
          rw [verdict] at astray
          split at astray
          · cases astray
          · exact later astray
      | wrong behind => exact ⟨behind, List.mem_cons_self⟩

theorem verdict_spares (count : Nat) (fails : Nat → Bool) :
    verdict (List.replicate count .spare) fails = .clean := by
  induction count generalizing fails with
  | zero => rfl
  | succ count ih => exact ih _

/-- The readings of the steps from `first` up to `last`. -/
def segment (readings : Nat → List Reading) (first last : Nat) : List Reading :=
  (List.range' first (last - first)).flatMap readings

section Segment

variable {readings : Nat → List Reading} {first middle last : Nat}

theorem segment_append (low : first ≤ middle) (high : middle ≤ last) :
    segment readings first last = segment readings first middle ++ segment readings middle last := by
  have split := @List.range'_append_1 first (middle - first) (last - middle)
  rw [Nat.add_sub_cancel' low, show middle - first + (last - middle) = last - first by omega] at split
  rw [segment, ← split, List.flatMap_append]
  rfl

theorem segment_one : segment readings first (first + 1) = readings first := by
  rw [segment, Nat.add_sub_cancel_left, List.range'_one, List.flatMap_singleton]

theorem segment_silent (silent : ∀ step, first ≤ step → step < last → readings step = []) :
    segment readings first last = [] := by
  apply List.flatMap_eq_nil_iff.mpr
  intro step member
  have bounds := List.mem_range'_1.mp member
  exact silent step bounds.1 (by omega)

/-- The first step that reads anything comes first. -/
theorem segment_next (low : first ≤ middle) (high : middle < last)
    (silent : ∀ step, first ≤ step → step < middle → readings step = []) :
    segment readings first last = readings middle ++ segment readings (middle + 1) last := by
  rw [segment_append low (Nat.le_of_lt high), segment_silent silent, List.nil_append,
    segment_append (Nat.le_succ middle) high, segment_one]

theorem segment_single (low : first ≤ middle) (high : middle < last)
    (silent : ∀ step, first ≤ step → step < last → step ≠ middle → readings step = []) :
    segment readings first last = readings middle := by
  have behind : segment readings (middle + 1) last = [] := by
    apply segment_silent
    intro step above below
    exact silent step (by omega) below (by omega)
  rw [segment_next low high fun step above below => silent step above (by omega) (by omega),
    behind, List.append_nil]

end Segment

/-- Result, memory, faults to come and card behind a run. -/
abbrev Outcome (S σ A : Type) := (A × σ) × Faults S × Card S

/-- A program that writes nothing in its healthy run and has these reads. `stops` holds of its
outcome when it gives up, `strays` when it takes a wrong turn. -/
def Follows (program : DevM S σ A) (memory : σ) (card : Card S) (readings : List Reading)
    (value : A) (later : σ) (stops strays : Outcome S σ A → Prop) : Prop :=
  ∀ fails,
    match verdict readings fails with
    | .clean => exec program memory (.blind fails) card =
        ((value, later), .blind fun index => fails (index + readings.length), card)
    | .stopped => stops (exec program memory (.blind fails) card)
    | .astray => strays (exec program memory (.blind fails) card)

section Follows

variable {program : DevM S σ A} {rest : A → DevM S σ B} {memory later last : σ} {card : Card S}
  {value : A} {result : B} {readings more : List Reading} {stops strays : Outcome S σ A → Prop}
  {ends errs : Outcome S σ B → Prop}

theorem follows_pure (value : A) (memory : σ) (card : Card S) :
    Follows (pure value : DevM S σ A) memory card [] value memory stops strays := fun _ => rfl

theorem follows_spares {count : Nat}
    (run : ∀ fails, exec program memory (.blind fails) card =
      ((value, later), .blind fun index => fails (index + count), card)) :
    Follows program memory card (List.replicate count .spare) value later stops strays := by
  intro fails
  rw [verdict_spares, List.length_replicate]
  exact run fails

theorem follows_fatal
    (healthy : ∀ fails, fails 0 = false → exec program memory (.blind fails) card =
      ((value, later), .blind fun index => fails (index + 1), card))
    (failed : ∀ fails, fails 0 = true → stops (exec program memory (.blind fails) card)) :
    Follows program memory card [.fatal] value later stops strays := by
  intro fails
  rw [verdict]
  cases first : fails 0 with
  | true => exact failed fails first
  | false => exact healthy fails first

theorem Follows.bind (first : Follows program memory card readings value later stops strays)
    (second : Follows (rest value) later card more result last ends errs)
    (stopping : ∀ outcome, stops outcome →
      ends (exec (rest outcome.1.1) outcome.1.2 outcome.2.1 outcome.2.2))
    (straying : ∀ outcome, strays outcome →
      errs (exec (rest outcome.1.1) outcome.1.2 outcome.2.1 outcome.2.2)) :
    Follows (program >>= rest) memory card (readings ++ more) result last ends errs := by
  intro fails
  have before := first fails
  have after := second fun index => fails (index + readings.length)
  rw [verdict_append, exec_bind]
  cases decided : verdict readings fails with
  | clean =>
      rw [decided] at before
      dsimp only at before
      rw [before]
      dsimp only [Verdict.orElse]
      have shift : (fun index => fails (index + more.length + readings.length)) =
          fun index => fails (index + (readings ++ more).length) := by
        funext index
        rw [List.length_append, Nat.add_assoc, Nat.add_comm more.length]
      rw [← shift]
      exact after
  | stopped =>
      rw [decided] at before
      exact stopping _ before
  | astray =>
      rw [decided] at before
      exact straying _ before

/-- A step that reads nothing comes first. -/
theorem Follows.silent {middle : σ}
    (run : ∀ faults, exec program memory faults card = ((value, middle), faults, card))
    (second : Follows (rest value) middle card more result last ends errs) :
    Follows (program >>= rest) memory card more result last ends errs := by
  intro fails
  have after := second fails
  rw [exec_bind_of (run _)]
  exact after

theorem Follows.weaken {halts turns : Outcome S σ A → Prop}
    (follows : Follows program memory card readings value later stops strays)
    (stopping : ∀ outcome, stops outcome → halts outcome)
    (straying : ∀ outcome, strays outcome → turns outcome) :
    Follows program memory card readings value later halts turns := by
  intro fails
  have known := follows fails
  cases decided : verdict readings fails with
  | clean =>
      rw [decided] at known
      exact known
  | stopped =>
      rw [decided] at known
      exact stopping _ known
  | astray =>
      rw [decided] at known
      exact straying _ known

theorem Follows.healthy (follows : Follows program memory card readings value later stops strays) :
    exec program memory .healthy card = ((value, later), .healthy, card) := by
  have healthy : (Faults.blind fun _ => false : Faults S) = .healthy := rfl
  have known := follows fun _ => false
  rw [verdict_healthy] at known
  rwa [healthy] at known

theorem Follows.outcome (follows : Follows program memory card readings value later stops strays)
    {outcome : A × σ} {log : WriteLog S} (run : out program memory card = (outcome, log)) :
    outcome = (value, later) := by
  have healthy := follows.healthy
  rw [exec_healthy, run] at healthy
  exact congrArg Prod.fst healthy

end Follows

theorem Prog.exec_blind (program : Prog S A) (fails : Nat → Bool) (card : Card S) :
    ∃ later, (program.exec (.blind fails) card).2.1 = .blind later := by
  induction program generalizing fails card with
  | done value => exact ⟨fails, rfl⟩
  | read index next ih => exact ih _ _ card
  | write index block next ih => exact ih true fails _

theorem exec_blind (program : DevM S σ A) (memory : σ) (fails : Nat → Bool) (card : Card S) :
    ∃ later, (exec program memory (.blind fails) card).2.1 = .blind later :=
  Prog.exec_blind (program memory) fails card

/-- Behind these reads of its healthy run the program is left with `rest`. -/
def ComesTo (program : DevM S σ A) (memory : σ) (card : Card S) (readings : List Reading)
    (rest : DevM S σ A) (later : σ) (stops strays : Outcome S σ A → Prop) : Prop :=
  ∀ fails,
    match verdict readings fails with
    | .clean => exec program memory (.blind fails) card =
        exec rest later (.blind fun index => fails (index + readings.length)) card
    | .stopped => stops (exec program memory (.blind fails) card)
    | .astray => strays (exec program memory (.blind fails) card)

section ComesTo

variable {program middle last : DevM S σ A} {memory later final : σ} {card : Card S} {value : B}
  {first : DevM S σ B} {rest : B → DevM S σ A} {readings more : List Reading}
  {stops strays : Outcome S σ A → Prop} {ends errs : Outcome S σ B → Prop}

theorem Follows.comes (follows : Follows first memory card readings value later ends errs)
    (stopping : ∀ outcome, ends outcome →
      stops (exec (rest outcome.1.1) outcome.1.2 outcome.2.1 outcome.2.2))
    (straying : ∀ outcome fails, errs outcome → outcome.2.1 = .blind fails →
      strays (exec (rest outcome.1.1) outcome.1.2 (.blind fails) outcome.2.2)) :
    ComesTo (first >>= rest) memory card readings (rest value) later stops strays := by
  intro fails
  have before := follows fails
  rw [exec_bind]
  cases decided : verdict readings fails with
  | clean =>
      rw [decided] at before
      dsimp only at before
      rw [before]
  | stopped =>
      rw [decided] at before
      exact stopping _ before
  | astray =>
      rw [decided] at before
      obtain ⟨further, blind⟩ := exec_blind first memory fails card
      rw [blind]
      exact straying _ further before blind

theorem comes_silent
    (run : ∀ faults, exec first memory faults card = ((value, later), faults, card)) :
    ComesTo (first >>= rest) memory card [] (rest value) later stops strays := by
  intro fails
  exact exec_bind_of (run _)

theorem ComesTo.trans (before : ComesTo program memory card readings middle later stops strays)
    (after : ComesTo middle later card more last final stops strays) :
    ComesTo program memory card (readings ++ more) last final stops strays := by
  intro fails
  have first := before fails
  have second := after fun index => fails (index + readings.length)
  rw [verdict_append]
  cases decided : verdict readings fails with
  | clean =>
      rw [decided] at first
      dsimp only at first
      rw [first]
      dsimp only [Verdict.orElse]
      have shift : (fun index => fails (index + more.length + readings.length)) =
          fun index => fails (index + (readings ++ more).length) := by
        funext index
        rw [List.length_append, Nat.add_assoc, Nat.add_comm more.length]
      rw [← shift]
      exact second
  | stopped =>
      rw [decided] at first
      exact first
  | astray =>
      rw [decided] at first
      exact first

end ComesTo

/-- The program reads no block, so it does not notice failing reads. -/
def ReadsNothing (program : DevM S σ A) : Prop :=
  ∀ memory fails card, exec program memory (.blind fails) card =
    ((out program memory card).1, .blind fails, applyWrites (out program memory card).2 card)

section ReadsNothing

variable {program : DevM S σ A} {rest : A → DevM S σ B}

theorem reads_nothing_pure (value : A) : ReadsNothing (pure value : DevM S σ A) :=
  fun _ _ _ => rfl

theorem reads_nothing_modify (step : σ → σ) : ReadsNothing (modify step : DevM S σ PUnit) :=
  fun _ _ _ => rfl

theorem reads_nothing_writeBlock (index : Nat) (block : S) :
    ReadsNothing (writeBlock index block : DevM S σ Bool) := fun _ _ _ => rfl

theorem ReadsNothing.bind (before : ReadsNothing program)
    (after : ∀ value, ReadsNothing (rest value)) : ReadsNothing (program >>= rest) := by
  intro memory fails card
  rw [exec_bind, before, after, out_bind, apply_writes_append]

theorem reads_nothing_get {rest : σ → DevM S σ B} (after : ∀ memory, ReadsNothing (rest memory)) :
    ReadsNothing (get >>= rest) := fun memory fails card => after memory memory fails card

theorem ReadsNothing.ite {condition : Prop} [Decidable condition] {yes no : DevM S σ A}
    (first : ReadsNothing yes) (second : ReadsNothing no) :
    ReadsNothing (if condition then yes else no) := by
  split <;> assumption

end ReadsNothing

/-- A condition on memory and device that no run of the program breaks, whatever fails. -/
def Stays (holds : σ → Card S → Prop) (program : DevM S σ A) : Prop :=
  ∀ memory faults card, holds memory card →
    holds (exec program memory faults card).1.2 (exec program memory faults card).2.2

section Stays

variable {holds : σ → Card S → Prop} {program : DevM S σ A} {rest : A → DevM S σ B}

theorem stays_pure (value : A) : Stays holds (pure value : DevM S σ A) := fun _ _ _ given => given

theorem stays_writeBlock {index : Nat} {block : S}
    (kept : ∀ memory card, holds memory card → holds memory (Function.update card index block)) :
    Stays holds (writeBlock index block : DevM S σ Bool) := by
  intro memory faults card given
  rw [exec_writeBlock]
  dsimp only
  split
  · exact kept memory card given
  · exact given

theorem stays_modify {step : σ → σ}
    (kept : ∀ memory card, holds memory card → holds (step memory) card) :
    Stays holds (modify step : DevM S σ PUnit) := fun memory _ card given => kept memory card given

theorem Stays.bind (before : Stays holds program) (after : ∀ value, Stays holds (rest value)) :
    Stays holds (program >>= rest) := by
  intro memory faults card given
  rw [exec_bind]
  exact after _ _ _ _ (before _ _ _ given)

theorem stays_get {rest : σ → DevM S σ B} (after : ∀ memory, Stays holds (rest memory)) :
    Stays holds (get >>= rest) := fun memory faults card given => after memory memory faults card given

theorem Stays.ite {condition : Prop} [Decidable condition] {yes no : DevM S σ A}
    (first : Stays holds yes) (second : Stays holds no) :
    Stays holds (if condition then yes else no) := by
  split <;> assumption

end Stays

/-- The answers that report one of these errors. -/
def Breaks {E : Type} (bad : E → Prop) : Except E A → Prop
  | .error failure => bad failure
  | .ok _ => False

/-- On this memory and card the program only reads. It leaves a part of the memory alone, and
when a read fails it refuses or ends as if none had failed. -/
def FragileAt {K : Type} (key : σ → K) (refused : A → Prop) (program : DevM S σ A) (memory : σ)
    (card : Card S) : Prop :=
  ∀ fails, ∃ answer last later,
    exec program memory (.blind fails) card = ((answer, last), .blind later, card) ∧
      key last = key memory ∧ (refused answer ∨ (out program memory card).1 = (answer, last))

def Fragile {K : Type} (key : σ → K) (refused : A → Prop) (program : DevM S σ A) : Prop :=
  ∀ memory card, FragileAt key refused program memory card

section Fragile

variable {K : Type} {key : σ → K} {refused : A → Prop} {refuses : B → Prop}
  {program : DevM S σ A} {rest : A → DevM S σ B} {memory : σ} {card : Card S}

theorem fragile_pure (value : A) : Fragile key refused (pure value : DevM S σ A) :=
  fun memory _ fails => ⟨value, memory, fails, rfl, rfl, Or.inr rfl⟩

theorem fragile_readBlock (index : Nat) :
    Fragile key (fun answer => answer = none) (readBlock index : DevM S σ (Option S)) := by
  intro memory card fails
  refine ⟨_, memory, _, exec_readBlock _ _ _ _, rfl, ?_⟩
  unfold Faults.blind
  dsimp only
  cases fails 0 with
  | true => exact Or.inl rfl
  | false => exact Or.inr rfl

theorem fragile_get {rest : σ → DevM S σ B} (after : ∀ memory, Fragile key refuses (rest memory)) :
    Fragile key refuses (get >>= rest) :=
  fun memory card fails => after memory memory card fails

theorem FragileAt.unwritten (fragile : FragileAt key refused program memory card) :
    applyWrites (out program memory card).2 card = card := by
  obtain ⟨_, _, _, plain, _⟩ := fragile fun _ => false
  have blind : (Faults.blind fun _ => false : Faults S) = .healthy := rfl
  rw [blind, exec_healthy] at plain
  exact congrArg (fun outcome => outcome.2.2) plain

/-- A step on the memory comes first. -/
theorem fragile_after_modify {step : σ → σ} {rest : PUnit → DevM S σ B}
    (kept : ∀ memory, key (step memory) = key memory)
    (after : ∀ done, Fragile key refuses (rest done)) :
    Fragile key refuses (modify step >>= rest) := by
  intro memory card fails
  obtain ⟨answer, last, later, ran, keptLast, known⟩ := after PUnit.unit (step memory) card fails
  exact ⟨answer, last, later, ran, keptLast.trans (kept memory), known⟩

theorem FragileAt.bind (before : FragileAt key refused program memory card)
    (after : ∀ value last, key last = key memory → FragileAt key refuses (rest value) last card)
    (stops : ∀ value, refused value → ∀ memory faults card,
      refuses (exec (rest value) memory faults card).1.1) :
    FragileAt key refuses (program >>= rest) memory card := by
  intro fails
  obtain ⟨value, middle, later, ran, kept, known⟩ := before fails
  obtain ⟨answer, last, final, done, keptLast, knownLast⟩ := after value middle kept later
  refine ⟨answer, last, final, ?_, keptLast.trans kept, ?_⟩
  · rw [exec_bind, ran]
    exact done
  · rcases known with refusal | healthy
    · left
      have stopped := stops value refusal middle (.blind later) card
      rw [done] at stopped
      exact stopped
    · rcases knownLast with refusal | healthyLast
      · exact Or.inl refusal
      · right
        rw [out_bind]
        dsimp only
        rw [before.unwritten, healthy]
        exact healthyLast

theorem Fragile.bind (before : Fragile key refused program)
    (after : ∀ value, Fragile key refuses (rest value))
    (stops : ∀ value, refused value → ∀ memory faults card,
      refuses (exec (rest value) memory faults card).1.1) :
    Fragile key refuses (program >>= rest) :=
  fun memory card => (before memory card).bind (fun value last _ => after value last card) stops

theorem Fragile.ite {condition : Prop} [Decidable condition] {yes no : DevM S σ A}
    (first : Fragile key refused yes) (second : Fragile key refused no) :
    Fragile key refused (if condition then yes else no) := by
  split <;> assumption

theorem Fragile.orError {E : Type} {bad : E → Prop} {program : DevM S σ (Except E A)}
    {rest : Except E A → DevM S σ B} (before : Fragile key (Breaks bad) program)
    (after : ∀ value, Fragile key refuses (rest value))
    (stops : ∀ failure, bad failure → ∀ memory faults card,
      refuses (exec (rest (.error failure)) memory faults card).1.1) :
    Fragile key refuses (program >>= rest) := by
  apply before.bind after
  intro value broken
  cases value with
  | error failure => exact stops failure broken
  | ok value => exact broken.elim

end Fragile

end SdDatabase.Device
