import Mathlib.Data.List.Basic
import Mathlib.Logic.Function.Basic

/-!
# Programs over a block device

A program is a tree of block reads and block writes with its own state threaded
through. The device is a total map from block numbers to blocks. The same
program is run on a healthy device, on a device with faults, and on a device
that loses power; the run on the healthy device also yields the ordered list of
its block writes, so that a power cut is a prefix of that list.
-/

namespace SdDatabase.Device

set_option autoImplicit false

/-- Content of a device, by block number. -/
abbrev Card (S : Type) := Nat → S

inductive Prog (S A : Type) where
  | done (value : A)
  | read (index : Nat) (next : Option S → Prog S A)
  | write (index : Nat) (block : S) (next : Bool → Prog S A)

namespace Prog

variable {S A B : Type}

def bind : Prog S A → (A → Prog S B) → Prog S B
  | done value, rest => rest value
  | read index next, rest => read index fun got => bind (next got) rest
  | write index block next, rest => write index block fun accepted => bind (next accepted) rest

instance : Monad (Prog S) where
  pure := done
  bind := bind

end Prog

/-- Block writes in the order they reach the device. -/
abbrev WriteLog (S : Type) := List (Nat × S)

variable {S A B σ : Type}

def applyWrites : WriteLog S → Card S → Card S
  | [], card => card
  | (index, block) :: rest, card => applyWrites rest (Function.update card index block)

@[simp] theorem apply_writes_nil (card : Card S) : applyWrites [] card = card := rfl

@[simp] theorem apply_writes_cons (index : Nat) (block : S) (rest : WriteLog S) (card : Card S) :
    applyWrites ((index, block) :: rest) card =
      applyWrites rest (Function.update card index block) := rfl

theorem apply_writes_append (first second : WriteLog S) (card : Card S) :
    applyWrites (first ++ second) card = applyWrites second (applyWrites first card) := by
  induction first generalizing card with
  | nil => rfl
  | cons head tail ih =>
      rcases head with ⟨index, block⟩
      simp only [List.cons_append, apply_writes_cons, ih]

theorem apply_writes_other (log : WriteLog S) (card : Card S) (index : Nat)
    (untouched : ∀ entry ∈ log, entry.1 ≠ index) :
    applyWrites log card index = card index := by
  induction log generalizing card with
  | nil => rfl
  | cons head tail ih =>
      rcases head with ⟨at_, block⟩
      have different : at_ ≠ index := untouched (at_, block) (by simp)
      rw [apply_writes_cons, ih _ (fun entry member => untouched entry (by simp [member]))]
      exact Function.update_of_ne (Ne.symm different) _ _

theorem apply_writes_congr (log : WriteLog S) (first second : Card S) (index : Nat)
    (agree : (∃ entry ∈ log, entry.1 = index) ∨ first index = second index) :
    applyWrites log first index = applyWrites log second index := by
  induction log generalizing first second with
  | nil =>
      rcases agree with ⟨entry, member, _⟩ | agree
      · simp at member
      · exact agree
  | cons head tail ih =>
      rcases head with ⟨at_, block⟩
      apply ih
      by_cases same : index = at_
      · right
        simp [same]
      · rcases agree with ⟨entry, member, addressed⟩ | agree
        · rcases List.mem_cons.mp member with rfl | member
          · exact absurd addressed.symm same
          · exact Or.inl ⟨entry, member, addressed⟩
        · right
          simp [Function.update_of_ne same, agree]

theorem apply_writes_take_then_all (log : WriteLog S) (count : Nat) (card : Card S) :
    applyWrites log (applyWrites (log.take count) card) = applyWrites log card := by
  funext index
  apply apply_writes_congr
  by_cases addressed : ∃ entry ∈ log, entry.1 = index
  · exact Or.inl addressed
  · right
    apply apply_writes_other
    intro entry member same
    exact addressed ⟨entry, List.mem_of_mem_take member, same⟩

theorem apply_writes_range (base count : Nat) (content : Nat → S) (card : Card S) (index : Nat) :
    applyWrites ((List.range count).map fun place => (base + place, content place)) card index =
      if base ≤ index ∧ index < base + count then content (index - base) else card index := by
  induction count with
  | zero => exact (if_neg (by omega)).symm
  | succ count ih =>
      rw [List.range_succ, List.map_append, apply_writes_append, List.map_singleton,
        apply_writes_cons, apply_writes_nil]
      by_cases last : index = base + count
      · rw [last, Function.update_self, if_pos (by omega), Nat.add_sub_cancel_left]
      · rw [Function.update_of_ne last, ih]
        split <;> split <;> first | rfl | omega

/-- Result and write log of a program on a device that never fails. -/
def Prog.out : Prog S A → Card S → A × WriteLog S
  | .done value, _ => (value, [])
  | .read index next, card => (next (some (card index))).out card
  | .write index block next, card =>
      let later := (next true).out (Function.update card index block)
      (later.1, (index, block) :: later.2)

theorem Prog.out_bind (program : Prog S A) (rest : A → Prog S B) (card : Card S) :
    (program.bind rest).out card =
      (let first := program.out card
       let second := (rest first.1).out (applyWrites first.2 card)
       (second.1, first.2 ++ second.2)) := by
  induction program generalizing card with
  | done value => rfl
  | read index next ih => exact ih (some (card index)) card
  | write index block next ih =>
      simp only [Prog.bind, Prog.out, ih, apply_writes_cons, List.cons_append]

/-- Programs that also thread a state `σ` held in memory. -/
abbrev DevM (S σ : Type) := StateT σ (Prog S)

/-- Result, final memory and write log of a healthy run. -/
def out (program : DevM S σ A) (memory : σ) (card : Card S) : (A × σ) × WriteLog S :=
  (program memory).out card

def readBlock (index : Nat) : DevM S σ (Option S) :=
  fun memory => .read index fun got => .done (got, memory)

def writeBlock (index : Nat) (block : S) : DevM S σ Bool :=
  fun memory => .write index block fun accepted => .done (accepted, memory)

section HealthyRun

variable (memory : σ) (card : Card S)

@[simp] theorem out_pure (value : A) :
    out (pure value : DevM S σ A) memory card = ((value, memory), []) := rfl

theorem out_bind (program : DevM S σ A) (rest : A → DevM S σ B) :
    out (program >>= rest) memory card =
      (let first := out program memory card
       let second := out (rest first.1.1) first.1.2 (applyWrites first.2 card)
       (second.1, first.2 ++ second.2)) :=
  Prog.out_bind (program memory) _ card

/-- Sequencing with the outcome of the first program already known. -/
theorem out_bind_of {program : DevM S σ A} {rest : A → DevM S σ B} {memory later : σ}
    {card : Card S} {value : A} {log : WriteLog S}
    (known : out program memory card = ((value, later), log)) :
    out (program >>= rest) memory card =
      ((out (rest value) later (applyWrites log card)).1,
        log ++ (out (rest value) later (applyWrites log card)).2) := by
  rw [out_bind, known]

theorem out_bind_both {program : DevM S σ A} {rest : A → DevM S σ B} {memory middle last : σ}
    {card : Card S} {value : A} {result : B} {log more : WriteLog S}
    (first : out program memory card = ((value, middle), log))
    (second : out (rest value) middle (applyWrites log card) = ((result, last), more)) :
    out (program >>= rest) memory card = ((result, last), log ++ more) := by
  rw [out_bind_of first, second]

theorem mem_out_first {program : DevM S σ A} {rest : A → DevM S σ B} {memory : σ} {card : Card S}
    {entry : Nat × S} (member : entry ∈ (out program memory card).2) :
    entry ∈ (out (program >>= rest) memory card).2 := by
  rw [out_bind]
  exact List.mem_append_left _ member

theorem mem_out_rest {program : DevM S σ A} {rest : A → DevM S σ B} {memory later : σ}
    {card : Card S} {value : A} {log : WriteLog S} {entry : Nat × S}
    (known : out program memory card = ((value, later), log))
    (member : entry ∈ (out (rest value) later (applyWrites log card)).2) :
    entry ∈ (out (program >>= rest) memory card).2 := by
  rw [out_bind_of known]
  exact List.mem_append_right _ member

@[simp] theorem out_get :
    out (get : DevM S σ σ) memory card = ((memory, memory), []) := rfl

@[simp] theorem out_modify (step : σ → σ) :
    out (modify step : DevM S σ PUnit) memory card = ((PUnit.unit, step memory), []) := rfl

@[simp] theorem out_readBlock (index : Nat) :
    out (readBlock index : DevM S σ (Option S)) memory card =
      ((some (card index), memory), []) := rfl

@[simp] theorem out_writeBlock (index : Nat) (block : S) :
    out (writeBlock index block : DevM S σ Bool) memory card =
      ((true, memory), [(index, block)]) := rfl

end HealthyRun

/-- The program writes nothing, keeps the memory, and its answer depends on the card
and on the part `key` of the memory only. -/
def ReadsOf {K : Type} (key : σ → K) (program : DevM S σ A) : Prop :=
  ∀ first second card, key first = key second →
    ∃ value, out program first card = ((value, first), []) ∧
      out program second card = ((value, second), [])

section ReadsOf

variable {K : Type} {key : σ → K} {program : DevM S σ A} {rest : A → DevM S σ B}

theorem reads_pure (value : A) : ReadsOf key (pure value : DevM S σ A) :=
  fun _ _ _ _ => ⟨value, rfl, rfl⟩

theorem reads_readBlock (index : Nat) : ReadsOf key (readBlock index : DevM S σ (Option S)) :=
  fun _ _ card _ => ⟨some (card index), rfl, rfl⟩

theorem ReadsOf.bind (before : ReadsOf key program) (after : ∀ value, ReadsOf key (rest value)) :
    ReadsOf key (program >>= rest) := by
  intro first second card same
  obtain ⟨value, runFirst, runSecond⟩ := before first second card same
  obtain ⟨result, restFirst, restSecond⟩ := after value first second card same
  exact ⟨result, out_bind_both runFirst restFirst, out_bind_both runSecond restSecond⟩

theorem reads_get {rest : σ → DevM S σ B}
    (depends : ∀ first second, key first = key second → rest first = rest second)
    (after : ∀ memory, ReadsOf key (rest memory)) : ReadsOf key (get >>= rest) := by
  intro first second card same
  obtain ⟨result, restFirst, restSecond⟩ := after first first second card same
  rw [depends first second same] at restSecond
  exact ⟨result, out_bind_both (out_get _ _) restFirst, out_bind_both (out_get _ _) restSecond⟩

theorem ReadsOf.ite {condition : Prop} [Decidable condition] {yes no : DevM S σ A}
    (first : ReadsOf key yes) (second : ReadsOf key no) :
    ReadsOf key (if condition then yes else no) := by
  split <;> assumption

end ReadsOf

/-- What the device does with one block read: the block, nothing, or a block
that is not the stored one. -/
inductive ReadFault (S : Type) where
  | healthy
  | fails
  | returns (block : S)

/-- Behaviour of the device for the reads and writes to come. A write that does
not take effect leaves its block unchanged and is reported as failed. -/
structure Faults (S : Type) where
  reads : Nat → ReadFault S
  writes : Nat → Bool

def Faults.healthy : Faults S where
  reads _ := .healthy
  writes _ := true

/-- Power is lost before write number `count` reaches the device. What the
program goes on to compute is lost with its memory; only the card is kept. -/
def Faults.cutAfter (count : Nat) : Faults S where
  reads _ := .healthy
  writes index := decide (index < count)

/-- Reads succeed and the writes fail as the given pattern says. -/
def Faults.failing (writes : Nat → Bool) : Faults S where
  reads _ := .healthy
  writes := writes

def Faults.afterRead (faults : Faults S) : Faults S :=
  { faults with reads := fun index => faults.reads (index + 1) }

def Faults.afterWrite (faults : Faults S) : Faults S :=
  { faults with writes := fun index => faults.writes (index + 1) }

def ReadFault.answer (stored : S) : ReadFault S → Option S
  | .healthy => some stored
  | .fails => none
  | .returns block => some block

/-- One run on a device with faults: result, faults still to come, final card. -/
def Prog.exec : Prog S A → Faults S → Card S → A × Faults S × Card S
  | .done value, faults, card => (value, faults, card)
  | .read index next, faults, card =>
      (next ((faults.reads 0).answer (card index))).exec faults.afterRead card
  | .write index block next, faults, card =>
      if faults.writes 0 then
        (next true).exec faults.afterWrite (Function.update card index block)
      else (next false).exec faults.afterWrite card

theorem Prog.exec_healthy (program : Prog S A) (card : Card S) :
    program.exec .healthy card =
      ((program.out card).1, .healthy, applyWrites (program.out card).2 card) := by
  induction program generalizing card with
  | done value => rfl
  | read index next ih => exact ih (some (card index)) card
  | write index block next ih => exact ih true (Function.update card index block)

theorem cut_after_write (count : Nat) :
    (Faults.cutAfter (count + 1) : Faults S).afterWrite = .cutAfter count := by
  simp [Faults.afterWrite, Faults.cutAfter]

theorem cut_zero_after_write : (Faults.cutAfter 0 : Faults S).afterWrite = .cutAfter 0 := by
  simp [Faults.afterWrite, Faults.cutAfter]

theorem Prog.exec_no_power (program : Prog S A) (card : Card S) :
    (program.exec (.cutAfter 0) card).2.2 = card := by
  induction program generalizing card with
  | done value => rfl
  | read index next ih => exact ih (some (card index)) card
  | write index block next ih =>
      simp only [Prog.exec, cut_zero_after_write]
      exact ih false card

/-- The card left by a power cut holds exactly the first writes of the healthy run. -/
theorem Prog.exec_cut (program : Prog S A) (count : Nat) (card : Card S) :
    (program.exec (.cutAfter count) card).2.2 =
      applyWrites ((program.out card).2.take count) card := by
  induction program generalizing count card with
  | done value => simp [Prog.exec, Prog.out]
  | read index next ih => exact ih (some (card index)) count card
  | write index block next ih =>
      cases count with
      | zero => simpa using (Prog.exec_no_power (.write index block next) card)
      | succ count =>
          simp only [Prog.exec, cut_after_write, Prog.out]
          exact ih true count (Function.update card index block)

/-- A run of a stateful program on a device with faults. -/
def exec (program : DevM S σ A) (memory : σ) (faults : Faults S) (card : Card S) :
    (A × σ) × Faults S × Card S :=
  (program memory).exec faults card

/-- The card found after a power cut in the middle of a program. -/
def cutCard (program : DevM S σ A) (memory : σ) (count : Nat) (card : Card S) : Card S :=
  (exec program memory (.cutAfter count) card).2.2

theorem Prog.exec_bind (program : Prog S A) (rest : A → Prog S B) (faults : Faults S)
    (card : Card S) :
    (program.bind rest).exec faults card =
      (rest (program.exec faults card).1).exec (program.exec faults card).2.1
        (program.exec faults card).2.2 := by
  induction program generalizing faults card with
  | done value => rfl
  | read index next ih => exact ih _ faults.afterRead card
  | write index block next ih =>
      simp only [Prog.bind, Prog.exec]
      split
      · exact ih true faults.afterWrite (Function.update card index block)
      · exact ih false faults.afterWrite card

theorem exec_bind (program : DevM S σ A) (rest : A → DevM S σ B) (memory : σ)
    (faults : Faults S) (card : Card S) :
    exec (program >>= rest) memory faults card =
      exec (rest (exec program memory faults card).1.1) (exec program memory faults card).1.2
        (exec program memory faults card).2.1 (exec program memory faults card).2.2 := by
  have split : exec (program >>= rest) memory faults card =
      ((program memory).bind fun outcome => rest outcome.1 outcome.2).exec faults card := rfl
  rw [split, Prog.exec_bind]
  rfl

section FaultyRuns

variable (memory : σ) (faults : Faults S) (card : Card S)

/-- Sequencing with the outcome of the first program already known. -/
theorem exec_bind_of {program : DevM S σ A} {rest : A → DevM S σ B} {memory later : σ}
    {faults left : Faults S} {card reached : Card S} {value : A}
    (known : exec program memory faults card = ((value, later), left, reached)) :
    exec (program >>= rest) memory faults card = exec (rest value) later left reached := by
  rw [exec_bind, known]

@[simp] theorem exec_pure (value : A) :
    exec (pure value : DevM S σ A) memory faults card = ((value, memory), faults, card) := rfl

@[simp] theorem exec_get :
    exec (get : DevM S σ σ) memory faults card = ((memory, memory), faults, card) := rfl

@[simp] theorem exec_modify (step : σ → σ) :
    exec (modify step : DevM S σ PUnit) memory faults card =
      ((PUnit.unit, step memory), faults, card) := rfl

theorem exec_readBlock (index : Nat) :
    exec (readBlock index : DevM S σ (Option S)) memory faults card =
      (((faults.reads 0).answer (card index), memory), faults.afterRead, card) := rfl

theorem exec_writeBlock (index : Nat) (block : S) :
    exec (writeBlock index block : DevM S σ Bool) memory faults card =
      ((faults.writes 0, memory), faults.afterWrite,
        if faults.writes 0 then Function.update card index block else card) := by
  cases accepted : faults.writes 0 <;> simp [exec, writeBlock, Prog.exec, accepted]

end FaultyRuns

/-- The part `key` of the memory stays the same, whatever the device does. -/
def Keeps {K : Type} (key : σ → K) (program : DevM S σ A) : Prop :=
  ∀ memory faults card, key (exec program memory faults card).1.2 = key memory

section Keeps

variable {K : Type} {key : σ → K} {program : DevM S σ A} {rest : A → DevM S σ B}

theorem keeps_pure (value : A) : Keeps key (pure value : DevM S σ A) := fun _ _ _ => rfl

theorem keeps_writeBlock (index : Nat) (block : S) :
    Keeps key (writeBlock index block : DevM S σ Bool) := by
  intro memory faults card
  rw [exec_writeBlock]

theorem keeps_modify {step : σ → σ} (same : ∀ memory, key (step memory) = key memory) :
    Keeps key (modify step : DevM S σ PUnit) := fun memory _ _ => same memory

theorem Keeps.bind (before : Keeps key program) (after : ∀ value, Keeps key (rest value)) :
    Keeps key (program >>= rest) := by
  intro memory faults card
  rw [exec_bind, after, before]

theorem keeps_get {rest : σ → DevM S σ B} (after : ∀ memory, Keeps key (rest memory)) :
    Keeps key (get >>= rest) := fun memory faults card => after memory memory faults card

theorem Keeps.ite {condition : Prop} [Decidable condition] {yes no : DevM S σ A}
    (first : Keeps key yes) (second : Keeps key no) :
    Keeps key (if condition then yes else no) := by
  split <;> assumption

end Keeps

def Prog.readTrace : Prog S A → Faults S → Card S → List Nat
  | .done _, _, _ => []
  | .read index next, faults, card =>
      index :: (next ((faults.reads 0).answer (card index))).readTrace faults.afterRead card
  | .write index block next, faults, card =>
      if faults.writes 0 then
        (next true).readTrace faults.afterWrite (Function.update card index block)
      else (next false).readTrace faults.afterWrite card

theorem Prog.read_trace_bind (program : Prog S A) (rest : A → Prog S B) (faults : Faults S)
    (card : Card S) :
    (program.bind rest).readTrace faults card = program.readTrace faults card ++
      (rest (program.exec faults card).1).readTrace (program.exec faults card).2.1
        (program.exec faults card).2.2 := by
  induction program generalizing faults card with
  | done value => rfl
  | read index next ih => exact congrArg (index :: ·) (ih _ faults.afterRead card)
  | write index block next ih =>
      simp only [Prog.bind, Prog.readTrace, Prog.exec]
      split
      · exact ih true faults.afterWrite (Function.update card index block)
      · exact ih false faults.afterWrite card

def readTrace (program : DevM S σ A) (memory : σ) (faults : Faults S) (card : Card S) : List Nat :=
  (program memory).readTrace faults card

theorem read_trace_bind (program : DevM S σ A) (rest : A → DevM S σ B) (memory : σ)
    (faults : Faults S) (card : Card S) :
    readTrace (program >>= rest) memory faults card = readTrace program memory faults card ++
      readTrace (rest (exec program memory faults card).1.1)
        (exec program memory faults card).1.2 (exec program memory faults card).2.1
        (exec program memory faults card).2.2 :=
  Prog.read_trace_bind (program memory) _ faults card

theorem read_trace_get (rest : σ → DevM S σ A) (memory : σ) (faults : Faults S) (card : Card S) :
    readTrace (get >>= rest) memory faults card = readTrace (rest memory) memory faults card := rfl

theorem read_trace_bind_of {program : DevM S σ A} {rest : A → DevM S σ B} {memory next : σ}
    {faults later : Faults S} {card left : Card S} {value : A}
    (known : exec program memory faults card = ((value, next), later, left)) :
    readTrace (program >>= rest) memory faults card = readTrace program memory faults card ++
      readTrace (rest value) next later left := by
  rw [read_trace_bind, known]

theorem exec_healthy (program : DevM S σ A) (memory : σ) (card : Card S) :
    exec program memory .healthy card =
      ((out program memory card).1, .healthy, applyWrites (out program memory card).2 card) :=
  Prog.exec_healthy (program memory) card

theorem cut_card_eq (program : DevM S σ A) (memory : σ) (count : Nat) (card : Card S) :
    cutCard program memory count card =
      applyWrites ((out program memory card).2.take count) card :=
  Prog.exec_cut (program memory) count card

end SdDatabase.Device
