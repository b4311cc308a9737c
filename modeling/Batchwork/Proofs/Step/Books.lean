import Batchwork.Proofs.Step.CommittedChunks
import Batchwork.Proofs.Step.Failures

/-!
# What stages add to the books

A tally is what a part of a run adds to the counters of its ledger. Every stage of a run has one
that depends only on how the stage went, and the calls of the stage can be counted beside it.
-/

namespace Batchwork

variable {σ ε ι ω : Type}

/-- What a run adds to the counters of a ledger. -/
structure Tally where
  read : Nat := 0
  filtered : Nat := 0
  skipped : Nat := 0
  written : Nat := 0
  commits : Nat := 0
  rollbacks : Nat := 0
  readErrors : Nat := 0
  processErrors : Nat := 0
  writeErrors : Nat := 0
  deriving Repr, DecidableEq

instance : Add Tally where
  add first second :=
    { read := first.read + second.read
      filtered := first.filtered + second.filtered
      skipped := first.skipped + second.skipped
      written := first.written + second.written
      commits := first.commits + second.commits
      rollbacks := first.rollbacks + second.rollbacks
      readErrors := first.readErrors + second.readErrors
      processErrors := first.processErrors + second.processErrors
      writeErrors := first.writeErrors + second.writeErrors }

theorem Tally.add_def (first second : Tally) :
    first + second =
      { read := first.read + second.read
        filtered := first.filtered + second.filtered
        skipped := first.skipped + second.skipped
        written := first.written + second.written
        commits := first.commits + second.commits
        rollbacks := first.rollbacks + second.rollbacks
        readErrors := first.readErrors + second.readErrors
        processErrors := first.processErrors + second.processErrors
        writeErrors := first.writeErrors + second.writeErrors } := rfl

theorem Tally.add_assoc (first second third : Tally) :
    first + second + third = first + (second + third) := by
  simp [Tally.add_def, Nat.add_assoc]

theorem Tally.zero_add (tally : Tally) : {} + tally = tally := by
  simp [Tally.add_def]

/-- The ledger after so much was added to its counters, with a new status. -/
def Ledger.plus (ledger : Ledger) (tally : Tally) (status : StepStatus) : Ledger where
  id := ledger.id
  name := ledger.name
  status := status
  readCount := ledger.readCount + tally.read
  filterCount := ledger.filterCount + tally.filtered
  processSkipCount := ledger.processSkipCount + tally.skipped
  writeCount := ledger.writeCount + tally.written
  commitCount := ledger.commitCount + tally.commits
  rollbackCount := ledger.rollbackCount + tally.rollbacks
  readErrorCount := ledger.readErrorCount + tally.readErrors
  processErrorCount := ledger.processErrorCount + tally.processErrors
  writeErrorCount := ledger.writeErrorCount + tally.writeErrors

@[simp] theorem Ledger.plus_plus (ledger : Ledger) (first second : Tally)
    (middle last : StepStatus) :
    (ledger.plus first middle).plus second last = ledger.plus (first + second) last := by
  simp [Ledger.plus, Tally.add_def, Nat.add_assoc]

@[simp] theorem Ledger.plus_status (ledger : Ledger) (tally : Tally) (status : StepStatus) :
    (ledger.plus tally status).status = status := rfl

/-- Whether a call handed out an item. -/
@[simp] def Call.isItem : Call ι ω → Bool
  | next (.ok (some _)) => true
  | _ => false

/-- Whether a call began a transaction. -/
@[simp] def Call.isBegun : Call ι ω → Bool
  | begin (.ok ()) => true
  | _ => false

/-- Whether a call processed an item into an output. -/
@[simp] def Call.isOutput : Call ι ω → Bool
  | process _ (.ok (some _)) => true
  | _ => false

/-- Calls that the books keep no account of. -/
structure Unaccounted (made : List (Call ι ω)) : Prop where
  failure : failure? made = none
  items : made.countP Call.isItem = 0
  begun : made.countP Call.isBegun = 0
  outputs : made.countP Call.isOutput = 0

/-- The ledger after processing counted items, by how it ended. -/
def Ledger.processed (ledger : Ledger) (filtered skipped : Nat) : Result Unit → Ledger
  | .ok () => ledger.plus { filtered, skipped, processErrors := skipped } ledger.status
  | .error _ => ledger.plus { filtered, skipped, processErrors := skipped + 1 } .processorError

theorem Ledger.plus_processed (ledger : Ledger) (first earlier filtered skipped : Nat)
    (ending : Result Unit) :
    (ledger.plus { filtered := first, skipped := earlier, processErrors := earlier }
        ledger.status).processed filtered skipped ending =
      ledger.processed (first + filtered) (earlier + skipped) ending := by
  rcases ending with error | ⟨⟩ <;> simp [Ledger.processed, Tally.add_def, Nat.add_assoc]

namespace ChunkStep

variable {step : ChunkStep σ ε ι ω} {p after : Progress σ} {events : List (StepEvent ι ω ε)}

theorem notify_countP (counted : Call ι ω → Bool) {κ : Type} {act : κ → Act σ ε Unit}
    {call : Nat → Call ι ω} {index : Nat} {listeners : List κ} {heard : List (StepEvent ι ω ε)}
    (notice : notify act call index listeners p = ⟨(), heard, after⟩)
    (apart : ∀ listener, counted (call listener) = false) : (calls heard).countP counted = 0 := by
  rw [notify_calls notice, List.countP_eq_zero]
  intro made member
  obtain ⟨listener, _, rfl⟩ := List.mem_map.mp member
  rw [apart listener]
  exact Bool.false_ne_true

theorem notify_unaccounted {κ : Type} {act : κ → Act σ ε Unit} {call : Nat → Call ι ω}
    {index : Nat} {listeners : List κ} {heard : List (StepEvent ι ω ε)}
    (notice : notify act call index listeners p = ⟨(), heard, after⟩)
    (apart : ∀ listener, (call listener).failure? = none ∧ (call listener).isItem = false ∧
      (call listener).isBegun = false ∧ (call listener).isOutput = false) :
    Unaccounted (calls heard) where
  failure := notify_failure notice fun listener => (apart listener).1
  items := notify_countP _ notice fun listener => (apart listener).2.1
  begun := notify_countP _ notice fun listener => (apart listener).2.2.1
  outputs := notify_countP _ notice fun listener => (apart listener).2.2.2

theorem Reads.books {room : Nat} {items : List ι} {ending : Result ChunkStatus}
    (reads : step.Reads room p events items ending after) :
    after.ledger = p.ledger.plus
      { read := items.length, readErrors := if ending.isOk then 0 else 1 } p.ledger.status := by
  induction reads with
  | full => rfl
  | finished answer | failed answer => rfl
  | item answer rest ih =>
    rw [ih]
    simp [Ledger.plus, Nat.add_comm, Nat.add_left_comm]

theorem Reads.counts {room : Nat} {items : List ι} {ending : Result ChunkStatus}
    (reads : step.Reads room p events items ending after) :
    (calls events).countP Call.isItem = items.length ∧ (calls events).countP Call.isBegun = 0 ∧
      (calls events).countP Call.isOutput = 0 := by
  induction reads with
  | full => exact ⟨rfl, rfl, rfl⟩
  | finished answer | failed answer => simp
  | item answer rest ih => simp [List.countP_cons, ih]

theorem Skips.books_ok {item : ι} {error : Error}
    (skips : step.Skips item error p events (.ok ()) after) :
    after.ledger = p.ledger.plus { skipped := 1, processErrors := 1 } p.ledger.status := by
  cases skips with
  | skipped answer notice => exact notify_ledger notice

theorem Skips.books_error {item : ι} {error reason : Error}
    (skips : step.Skips item error p events (.error reason) after) :
    after.ledger = p.ledger.plus { processErrors := 1 } .processorError := by
  cases skips with
  | refused answer | overruled answer => rfl

theorem Skips.counts {item : ι} {error : Error} {verdict : Result Unit}
    (skips : step.Skips item error p events verdict after) :
    (calls events).countP Call.isItem = 0 ∧ (calls events).countP Call.isBegun = 0 ∧
      (calls events).countP Call.isOutput = 0 := by
  cases skips with
  | skipped answer notice =>
    have quiet := notify_unaccounted notice fun _ => ⟨rfl, rfl, rfl, rfl⟩
    simp [quiet.items, quiet.begun, quiet.outputs]
  | refused answer | overruled answer => simp

/-- Processing accounts for every item up to the fatal one. -/
theorem Processes.books {items : List ι} {outputs : List ω} {ending : Result Unit}
    (processes : step.Processes items p events outputs ending after) :
    ∃ filtered skipped rest, items.length = outputs.length + filtered + skipped + rest ∧
      (rest = 0 ↔ ending = .ok ()) ∧ after.ledger = p.ledger.processed filtered skipped ending := by
  -- The counts of an item come before those of the rest, which the ledger has added up already.
  induction processes with
  | done => exact ⟨0, 0, 0, rfl, by simp, rfl⟩
  | output answer rest ih =>
    obtain ⟨filtered, skipped, rest, length, ended, books⟩ := ih
    exact ⟨filtered, skipped, rest, by simp only [List.length_cons]; omega, ended, books⟩
  | filtered answer rest ih =>
    obtain ⟨filtered, skipped, rest, length, ended, books⟩ := ih
    refine ⟨1 + filtered, 0 + skipped, rest, by simp only [List.length_cons]; omega, ended, ?_⟩
    rw [books]
    exact Ledger.plus_processed _ 1 0 _ _ _
  | skipped answer skip rest ih =>
    obtain ⟨filtered, skipped, rest, length, ended, books⟩ := ih
    refine ⟨0 + filtered, 1 + skipped, rest, by simp only [List.length_cons]; omega, ended, ?_⟩
    rw [books, skip.books_ok]
    exact Ledger.plus_processed _ 0 1 _ _ _
  | @fatal _ _ _ _ _ items _ _ _ answer refusal =>
    -- The fatal item and all behind it are left.
    exact ⟨0, 0, items.length + 1, by simp, by simp, refusal.books_error⟩

theorem Processes.counts {items : List ι} {outputs : List ω} {ending : Result Unit}
    (processes : step.Processes items p events outputs ending after) :
    (calls events).countP Call.isItem = 0 ∧ (calls events).countP Call.isBegun = 0 ∧
      (calls events).countP Call.isOutput = outputs.length := by
  induction processes with
  | done => exact ⟨rfl, rfl, rfl⟩
  | output answer rest ih => simpa [List.countP_cons] using ih
  | filtered answer rest ih => simpa using ih
  | skipped answer skip rest ih => simpa [skip.counts] using ih
  | fatal answer refusal => simpa using refusal.counts

theorem Writes.books_ok {outputs : List ω} (writes : step.Writes outputs p events (.ok ()) after) :
    after.ledger = p.ledger := by
  cases writes with
  | nothing empty => rfl
  | written nonempty answer flush => rfl

theorem Writes.books_error {outputs : List ω} {error : Error}
    (writes : step.Writes outputs p events (.error error) after) :
    1 ≤ outputs.length ∧
      after.ledger = p.ledger.plus { writeErrors := outputs.length } .writeError := by
  cases writes with
  | notWritten nonempty answer => exact ⟨List.length_pos_iff.mpr nonempty, rfl⟩
  | notFlushed nonempty answer flush => exact ⟨List.length_pos_iff.mpr nonempty, rfl⟩

theorem Writes.counts {outputs : List ω} {answer : Result Unit}
    (writes : step.Writes outputs p events answer after) :
    (calls events).countP Call.isItem = 0 ∧ (calls events).countP Call.isBegun = 0 ∧
      (calls events).countP Call.isOutput = 0 := by
  cases writes <;> simp

theorem RollsBack.books {cause : Error} (undo : step.RollsBack cause p events after) :
    after.ledger = p.ledger.plus { rollbacks := 1 } p.ledger.status := by
  cases undo with
  | rolledBack answer notice => exact notify_ledger notice

theorem RollsBack.unaccounted {cause : Error} (undo : step.RollsBack cause p events after) :
    Unaccounted (calls events) := by
  cases undo with
  | rolledBack answer notice =>
    have quiet := notify_unaccounted notice fun _ => ⟨rfl, rfl, rfl, rfl⟩
    constructor
    case failure => simp [quiet.failure]
    case items => simp [quiet.items]
    case begun => simp [quiet.begun]
    case outputs => simp [quiet.outputs]

end ChunkStep

end Batchwork
