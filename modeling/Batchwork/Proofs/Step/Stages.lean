import Batchwork.Proofs.Step.Events

/-!
# What the stages of a run can do

One relation for every stage of a run, from reading a chunk to the whole run, with one constructor
for every way in which the stage can go. The parts of the step appear in them only through the
answers they give, so an induction over these relations is an induction over every possible
behaviour of the parts. `execute_runs` says that nothing else can happen.
-/

namespace Batchwork

variable {σ ε ι ω : Type}

namespace ChunkStep

variable (step : ChunkStep σ ε ι ω)

/-! ## Stages -/

/-- Reading with room for so many items: the items the reader handed out, and how it ended. -/
inductive Reads : Nat → Progress σ → List (StepEvent ι ω ε) → List ι → Result ChunkStatus →
    Progress σ → Prop
  | full {p : Progress σ} : Reads 0 p [.log (.chunkRead .full)] [] (.ok .full) p
  | finished {room : Nat} {p : Progress σ} {told : List ε} {state : σ}
      (answer : step.reader.next p.state = ⟨.ok none, told, state⟩) :
      Reads (room + 1) p (asked told (.next (.ok none)) ++ [.log (.chunkRead .finished)]) []
        (.ok .finished) ⟨p.ledger, state⟩
  | failed {room : Nat} {p : Progress σ} {told : List ε} {state : σ} {error : Error}
      (answer : step.reader.next p.state = ⟨.error error, told, state⟩) :
      Reads (room + 1) p (asked told (.next (.error error)) ++ [.log (.readFailed error)]) []
        (.error error)
        ⟨{ p.ledger with readErrorCount := p.ledger.readErrorCount + 1 }, state⟩
  | item {room : Nat} {p after : Progress σ} {told : List ε} {state : σ} {item : ι}
      {items : List ι} {events : List (StepEvent ι ω ε)} {ending : Result ChunkStatus}
      (answer : step.reader.next p.state = ⟨.ok (some item), told, state⟩)
      (rest : Reads room ⟨{ p.ledger with readCount := p.ledger.readCount + 1 }, state⟩ events
        items ending after) :
      Reads (room + 1) p (asked told (.next (.ok (some item))) ++ events) (item :: items) ending
        after

/-- Deciding about an item whose processing failed. An error of the result is fatal. -/
inductive Skips (item : ι) (error : Error) : Progress σ → List (StepEvent ι ω ε) → Result Unit →
    Progress σ → Prop
  | skipped {p after : Progress σ} {told : List ε} {state : σ} {heard : List (StepEvent ι ω ε)}
      (answer : step.policy.shouldSkip error p.ledger.processSkipCount p.state =
        ⟨.ok true, told, state⟩)
      (notice : notify (fun listener => listener.onSkip item error) (.onSkip · item error) 0
        step.skipListeners
        ⟨{ p.ledger with
            processErrorCount := p.ledger.processErrorCount + 1
            processSkipCount := p.ledger.processSkipCount + 1 }, state⟩ = ⟨(), heard, after⟩) :
      Skips item error p
        (asked told (.shouldSkip error p.ledger.processSkipCount (.ok true)) ++
          .log (.skipping error) :: heard) (.ok ()) after
  | refused {p : Progress σ} {told : List ε} {state : σ}
      (answer : step.policy.shouldSkip error p.ledger.processSkipCount p.state =
        ⟨.ok false, told, state⟩) :
      Skips item error p
        (asked told (.shouldSkip error p.ledger.processSkipCount (.ok false)) ++
          [.log (.processFailed error)]) (.error error)
        ⟨{ p.ledger with
            processErrorCount := p.ledger.processErrorCount + 1, status := .processorError }, state⟩
  | overruled {p : Progress σ} {told : List ε} {state : σ} {refusal : Error}
      (answer : step.policy.shouldSkip error p.ledger.processSkipCount p.state =
        ⟨.error refusal, told, state⟩) :
      Skips item error p
        (asked told (.shouldSkip error p.ledger.processSkipCount (.error refusal)) ++
          [.log (.skipRefused refusal error)]) (.error refusal)
        ⟨{ p.ledger with
            processErrorCount := p.ledger.processErrorCount + 1, status := .processorError }, state⟩

/-- Processing items: the outputs up to the end or the fatal item, and how it ended. -/
inductive Processes : List ι → Progress σ → List (StepEvent ι ω ε) → List ω → Result Unit →
    Progress σ → Prop
  | done {p : Progress σ} : Processes [] p [] [] (.ok ()) p
  | output {p after : Progress σ} {told : List ε} {state : σ} {item : ι} {items : List ι}
      {output : ω} {outputs : List ω} {events : List (StepEvent ι ω ε)} {ending : Result Unit}
      (answer : step.processor.process item p.state = ⟨.ok (some output), told, state⟩)
      (rest : Processes items ⟨p.ledger, state⟩ events outputs ending after) :
      Processes (item :: items) p (asked told (.process item (.ok (some output))) ++ events)
        (output :: outputs) ending after
  | filtered {p after : Progress σ} {told : List ε} {state : σ} {item : ι} {items : List ι}
      {outputs : List ω} {events : List (StepEvent ι ω ε)} {ending : Result Unit}
      (answer : step.processor.process item p.state = ⟨.ok none, told, state⟩)
      (rest : Processes items ⟨{ p.ledger with filterCount := p.ledger.filterCount + 1 }, state⟩
        events outputs ending after) :
      Processes (item :: items) p
        (asked told (.process item (.ok none)) ++ .log .filtered :: events) outputs ending after
  | skipped {p middle after : Progress σ} {told : List ε} {state : σ} {item : ι} {items : List ι}
      {error : Error} {outputs : List ω} {decision events : List (StepEvent ι ω ε)}
      {ending : Result Unit}
      (answer : step.processor.process item p.state = ⟨.error error, told, state⟩)
      (skip : step.Skips item error ⟨p.ledger, state⟩ decision (.ok ()) middle)
      (rest : Processes items middle events outputs ending after) :
      Processes (item :: items) p
        (asked told (.process item (.error error)) ++ (decision ++ events)) outputs ending after
  | fatal {p after : Progress σ} {told : List ε} {state : σ} {item : ι} {items : List ι}
      {error reason : Error} {decision : List (StepEvent ι ω ε)}
      (answer : step.processor.process item p.state = ⟨.error error, told, state⟩)
      (refusal : step.Skips item error ⟨p.ledger, state⟩ decision (.error reason) after) :
      Processes (item :: items) p (asked told (.process item (.error error)) ++ decision) []
        (.error reason) after

/-- Writing the outputs of a chunk. -/
inductive Writes (outputs : List ω) : Progress σ → List (StepEvent ι ω ε) → Result Unit →
    Progress σ → Prop
  | nothing {p : Progress σ} (empty : outputs = []) :
      Writes outputs p [.log .nothingToWrite] (.ok ()) p
  | written {p : Progress σ} {told flushed : List ε} {state after : σ} (nonempty : outputs ≠ [])
      (answer : step.writer.write outputs p.state = ⟨.ok (), told, state⟩)
      (flush : step.writer.flush state = ⟨.ok (), flushed, after⟩) :
      Writes outputs p
        (.log (.writing outputs.length) ::
          (asked told (.write outputs (.ok ())) ++ asked flushed (.flush (.ok ())))) (.ok ())
        ⟨p.ledger, after⟩
  | notWritten {p : Progress σ} {told : List ε} {state : σ} {error : Error}
      (nonempty : outputs ≠ [])
      (answer : step.writer.write outputs p.state = ⟨.error error, told, state⟩) :
      Writes outputs p
        (.log (.writing outputs.length) ::
          (asked told (.write outputs (.error error)) ++ [.log (.writeFailed error)]))
        (.error error)
        ⟨{ p.ledger with
            writeErrorCount := p.ledger.writeErrorCount + outputs.length
            status := .writeError }, state⟩
  | notFlushed {p : Progress σ} {told flushed : List ε} {state after : σ} {error : Error}
      (nonempty : outputs ≠ [])
      (answer : step.writer.write outputs p.state = ⟨.ok (), told, state⟩)
      (flush : step.writer.flush state = ⟨.error error, flushed, after⟩) :
      Writes outputs p
        (.log (.writing outputs.length) ::
          (asked told (.write outputs (.ok ())) ++
            (asked flushed (.flush (.error error)) ++ [.log (.writeFailed error)]))) (.error error)
        ⟨{ p.ledger with
            writeErrorCount := p.ledger.writeErrorCount + outputs.length
            status := .writeError }, after⟩

/-- Taking back a chunk that failed because of `cause`. -/
inductive RollsBack (cause : Error) : Progress σ → List (StepEvent ι ω ε) → Progress σ → Prop
  | rolledBack {p after : Progress σ} {told : List ε} {state : σ} {undone : Result Unit}
      {heard : List (StepEvent ι ω ε)}
      (answer : step.transactions.rollback p.state = ⟨undone, told, state⟩)
      (notice : notify (fun listener => listener.afterChunkError cause) (.afterChunkError · cause) 0
        step.chunkListeners ⟨{ p.ledger with rollbackCount := p.ledger.rollbackCount + 1 }, state⟩ =
          ⟨(), heard, after⟩) :
      RollsBack cause p
        (.log (.rollingBack cause) ::
          (asked told (.rollback undone) ++ (noted .rollbackFailed undone ++ heard))) after

/-- The transaction of one chunk. Its result is the list of the outputs committed. -/
inductive Transacts (items : List ι) : Progress σ → List (StepEvent ι ω ε) → Result (List ω) →
    Progress σ → Prop
  | notBegun {p opened after : Progress σ} {told : List ε} {state : σ} {error : Error}
      {heard notified : List (StepEvent ι ω ε)}
      (before : notify (·.beforeChunk) .beforeChunk 0 step.chunkListeners p = ⟨(), heard, opened⟩)
      (answer : step.transactions.begin opened.state = ⟨.error error, told, state⟩)
      (notice : notify (fun listener => listener.afterChunkError error) (.afterChunkError · error) 0
        step.chunkListeners ⟨{ opened.ledger with status := .transactionError }, state⟩ =
          ⟨(), notified, after⟩) :
      Transacts items p (heard ++ (asked told (.begin (.error error)) ++ notified)) (.error error)
        after
  | notProcessed {p opened middle after : Progress σ} {told : List ε} {state : σ} {error : Error}
      {heard processing rollback : List (StepEvent ι ω ε)} {outputs : List ω}
      (before : notify (·.beforeChunk) .beforeChunk 0 step.chunkListeners p = ⟨(), heard, opened⟩)
      (answer : step.transactions.begin opened.state = ⟨.ok (), told, state⟩)
      (process : step.Processes items ⟨opened.ledger, state⟩ processing outputs (.error error)
        middle)
      (undo : step.RollsBack error middle rollback after) :
      Transacts items p
        (heard ++ (asked told (.begin (.ok ())) ++
          .log (.processing items.length) :: (processing ++ rollback))) (.error error) after
  | notWritten {p opened middle written after : Progress σ} {told : List ε} {state : σ}
      {error : Error} {heard processing writing rollback : List (StepEvent ι ω ε)}
      {outputs : List ω}
      (before : notify (·.beforeChunk) .beforeChunk 0 step.chunkListeners p = ⟨(), heard, opened⟩)
      (answer : step.transactions.begin opened.state = ⟨.ok (), told, state⟩)
      (process : step.Processes items ⟨opened.ledger, state⟩ processing outputs (.ok ()) middle)
      (write : step.Writes outputs middle writing (.error error) written)
      (undo : step.RollsBack error written rollback after) :
      Transacts items p
        (heard ++ (asked told (.begin (.ok ())) ++
          .log (.processing items.length) :: (processing ++ (writing ++ rollback))))
        (.error error) after
  | notCommitted {p opened middle written after : Progress σ} {told committing : List ε}
      {state final : σ} {error : Error}
      {heard processing writing rollback : List (StepEvent ι ω ε)} {outputs : List ω}
      (before : notify (·.beforeChunk) .beforeChunk 0 step.chunkListeners p = ⟨(), heard, opened⟩)
      (answer : step.transactions.begin opened.state = ⟨.ok (), told, state⟩)
      (process : step.Processes items ⟨opened.ledger, state⟩ processing outputs (.ok ()) middle)
      (write : step.Writes outputs middle writing (.ok ()) written)
      (commit : step.transactions.commit written.state = ⟨.error error, committing, final⟩)
      (undo : step.RollsBack error ⟨{ written.ledger with status := .transactionError }, final⟩
        rollback after) :
      Transacts items p
        (heard ++ (asked told (.begin (.ok ())) ++
          .log (.processing items.length) :: (processing ++ (writing ++
            (asked committing (.commit (.error error)) ++ rollback))))) (.error error) after
  | committed {p opened middle written after : Progress σ} {told committing : List ε}
      {state final : σ} {heard processing writing notified : List (StepEvent ι ω ε)}
      {outputs : List ω}
      (before : notify (·.beforeChunk) .beforeChunk 0 step.chunkListeners p = ⟨(), heard, opened⟩)
      (answer : step.transactions.begin opened.state = ⟨.ok (), told, state⟩)
      (process : step.Processes items ⟨opened.ledger, state⟩ processing outputs (.ok ()) middle)
      (write : step.Writes outputs middle writing (.ok ()) written)
      (commit : step.transactions.commit written.state = ⟨.ok (), committing, final⟩)
      (notice : notify (·.afterChunk outputs) (.afterChunk · outputs) 0 step.chunkListeners
        ⟨{ written.ledger with
            commitCount := written.ledger.commitCount + 1
            writeCount := written.ledger.writeCount + outputs.length }, final⟩ =
          ⟨(), notified, after⟩) :
      Transacts items p
        (heard ++ (asked told (.begin (.ok ())) ++
          .log (.processing items.length) :: (processing ++ (writing ++
            (asked committing (.commit (.ok ())) ++
              .log (.committed outputs.length) :: notified))))) (.ok outputs) after

/-- One round: reading a chunk and, if it has items, its transaction. A round without a result is
followed by another one. -/
inductive Round : Progress σ → List (StepEvent ι ω ε) → Option (Result Unit) → Progress σ → Prop
  | notRead {p read : Progress σ} {items : List ι} {reading : List (StepEvent ι ω ε)}
      {error : Error} (reads : step.Reads step.chunkSize p reading items (.error error) read) :
      Round p (.log .reading :: reading) (some (.error error))
        ⟨{ read.ledger with status := .readError }, read.state⟩
  | exhausted {p read : Progress σ} {reading : List (StepEvent ι ω ε)}
      (reads : step.Reads step.chunkSize p reading [] (.ok .finished) read) :
      Round p (.log .reading :: reading) (some (.ok ()))
        ⟨{ read.ledger with status := .success }, read.state⟩
  | failed {p read after : Progress σ} {items : List ι} {status : ChunkStatus}
      {reading transaction : List (StepEvent ι ω ε)} {error : Error}
      (reads : step.Reads step.chunkSize p reading items (.ok status) read) (nonempty : items ≠ [])
      (transacts : step.Transacts items read transaction (.error error) after) :
      Round p (.log .reading :: (reading ++ transaction)) (some (.error error)) after
  | last {p read after : Progress σ} {items : List ι} {outputs : List ω}
      {reading transaction : List (StepEvent ι ω ε)}
      (reads : step.Reads step.chunkSize p reading items (.ok .finished) read)
      (nonempty : items ≠ [])
      (transacts : step.Transacts items read transaction (.ok outputs) after) :
      Round p (.log .reading :: (reading ++ transaction)) (some (.ok ()))
        ⟨{ after.ledger with status := .success }, after.state⟩
  | more {p read after : Progress σ} {items : List ι} {outputs : List ω}
      {reading transaction : List (StepEvent ι ω ε)}
      (reads : step.Reads step.chunkSize p reading items (.ok .full) read) (nonempty : items ≠ [])
      (transacts : step.Transacts items read transaction (.ok outputs) after) :
      Round p (.log .reading :: (reading ++ transaction)) none after

/-- At most so many rounds. There is no result if none of them had one, or if the first one finds
no room for a chunk. -/
inductive Rounds : Nat → Progress σ → List (StepEvent ι ω ε) → Option (Result Unit) →
    Progress σ → Prop
  | unfinished {p : Progress σ} : Rounds 0 p [] none p
  | stopped {rounds : Nat} {p : Progress σ} (crowded : ¬step.HasRoom) :
      Rounds (rounds + 1) p [.log .reading, .stopped capacityOverflow] none p
  | last {rounds : Nat} {p after : Progress σ} {events : List (StepEvent ι ω ε)}
      {result : Result Unit} (round : step.Round p events (some result) after) :
      Rounds (rounds + 1) p events (some result) after
  | more {rounds : Nat} {p middle after : Progress σ} {first events : List (StepEvent ι ω ε)}
      {result : Option (Result Unit)} (round : step.Round p first none middle)
      (rest : Rounds rounds middle events result after) :
      Rounds (rounds + 1) p (first ++ events) result after

/-- The last log entry of a run. -/
def lastEntry (books : Ledger) : Result Unit → StepLog
  | .ok () => .ended books
  | .error error => .failed books.name books.status error

/-- A run of the step. -/
inductive Runs (rounds : Nat) : Progress σ → List (StepEvent ι ω ε) → Option (Result Unit) →
    Progress σ → Prop
  | notOpened {p : Progress σ} {told : List ε} {state : σ} {error : Error}
      (answer : step.writer.openStore p.state = ⟨.error error, told, state⟩) :
      Runs rounds p
        (.log (.started p.ledger.name p.ledger.id) ::
          (asked told (.openStore (.error error)) ++
            [.log (lastEntry { p.ledger with status := .writeError } (.error error))]))
        (some (.error error)) ⟨{ p.ledger with status := .writeError }, state⟩
  | unfinished {p after : Progress σ} {told : List ε} {state : σ}
      {events : List (StepEvent ι ω ε)}
      (answer : step.writer.openStore p.state = ⟨.ok (), told, state⟩)
      (all : step.Rounds rounds ⟨{ p.ledger with status := .started }, state⟩ events none after) :
      Runs rounds p
        (.log (.started p.ledger.name p.ledger.id) :: (asked told (.openStore (.ok ())) ++ events))
        none after
  | closed {p after : Progress σ} {told closing : List ε} {state final : σ}
      {events : List (StepEvent ι ω ε)} {result closed : Result Unit}
      (answer : step.writer.openStore p.state = ⟨.ok (), told, state⟩)
      (all : step.Rounds rounds ⟨{ p.ledger with status := .started }, state⟩ events (some result)
        after)
      (close : step.writer.closeStore after.state = ⟨closed, closing, final⟩) :
      Runs rounds p
        (.log (.started p.ledger.name p.ledger.id) ::
          (asked told (.openStore (.ok ())) ++ (events ++
            (asked closing (.closeStore closed) ++ (noted .closeFailed closed ++
              [.log (lastEntry after.ledger result)])))))
        (some result) ⟨after.ledger, final⟩

/-! ## Every run is one of these -/

variable {step}

theorem Reads.length_le {room : Nat} {p after : Progress σ} {events : List (StepEvent ι ω ε)}
    {items : List ι} {ending : Result ChunkStatus}
    (reads : step.Reads room p events items ending after) : items.length ≤ room := by
  induction reads with
  | full => exact Nat.le_refl _
  | finished | failed => exact Nat.zero_le _
  | item _ _ ih => exact Nat.succ_le_succ ih

/-- Reading stops before there is no more room, unless the chunk is full. -/
theorem Reads.length_lt {room : Nat} {p after : Progress σ} {events : List (StepEvent ι ω ε)}
    {items : List ι} {ending : Result ChunkStatus}
    (reads : step.Reads room p events items ending after) (stopped : ending ≠ .ok .full) :
    items.length < room := by
  induction reads with
  | full => exact absurd rfl stopped
  | finished | failed => exact Nat.succ_pos _
  | item _ _ ih => exact Nat.succ_lt_succ (ih stopped)

theorem Reads.length_eq {room : Nat} {p after : Progress σ} {events : List (StepEvent ι ω ε)}
    {items : List ι} {ending : Result ChunkStatus}
    (reads : step.Reads room p events items ending after) (full : ending = .ok .full) :
    items.length = room := by
  induction reads with
  | full => rfl
  | finished | failed => cases full
  | item _ _ ih => exact congrArg Nat.succ (ih full)

variable (step)

theorem readItems_reads (room : Nat) (p : Progress σ) :
    ∃ events items ending after, step.Reads room p events items ending after ∧
      step.readItems room p = ⟨ending.map (Prod.mk items), events, after⟩ := by
  induction room generalizing p with
  | zero => exact ⟨_, _, _, _, .full, rfl⟩
  | succ room ih =>
    rcases answer : step.reader.next p.state with ⟨error | _ | item, told, state⟩
    · refine ⟨_, _, _, _, .failed answer, ?_⟩
      simp [readItems, ask_run, answer, log_run, book_run, Except.map]
    · refine ⟨_, _, _, _, .finished answer, ?_⟩
      simp [readItems, ask_run, answer, log_run, Except.map]
    · obtain ⟨events, items, ending, after, reads, eq⟩ :=
        ih ⟨{ p.ledger with readCount := p.ledger.readCount + 1 }, state⟩
      refine ⟨_, _, _, _, .item answer reads, ?_⟩
      rcases ending with error | status <;>
        simp [readItems, ask_run, answer, book_run, eq, Except.map]

theorem skipItem_skips (item : ι) (error : Error) (p : Progress σ) :
    ∃ events ending after, step.Skips item error p events ending after ∧
      step.skipItem item error p = ⟨ending, events, after⟩ := by
  rcases answer : step.policy.shouldSkip error p.ledger.processSkipCount p.state with
    ⟨refusal | _ | _, told, state⟩
  · refine ⟨_, _, _, .overruled answer, ?_⟩
    simp [skipItem, ask_run, book_run, ledger_run, log_run, setStatus_run, answer]
  · refine ⟨_, _, _, .refused answer, ?_⟩
    simp [skipItem, ask_run, book_run, ledger_run, log_run, setStatus_run, answer]
  · refine ⟨_, _, _, .skipped answer rfl, ?_⟩
    simp [skipItem, ask_run, book_run, ledger_run, log_run, answer]

theorem processItems_processes (items : List ι) (p : Progress σ) :
    ∃ events outputs ending after, step.Processes items p events outputs ending after ∧
      step.processItems items p = ⟨ending.map fun () => outputs, events, after⟩ := by
  induction items generalizing p with
  | nil => exact ⟨_, _, _, _, .done, rfl⟩
  | cons item items ih =>
    rcases answer : step.processor.process item p.state with ⟨error | _ | output, told, state⟩
    · obtain ⟨decision, verdict, middle, skips, eq⟩ :=
        step.skipItem_skips item error ⟨p.ledger, state⟩
      rcases verdict with reason | ⟨⟩
      · refine ⟨_, _, _, _, .fatal answer skips, ?_⟩
        simp [processItems, ask_run, answer, eq, Except.map]
      · obtain ⟨events, outputs, ending, after, processes, rest⟩ := ih middle
        refine ⟨_, _, _, _, .skipped answer skips processes, ?_⟩
        simp [processItems, ask_run, answer, eq, rest]
    · obtain ⟨events, outputs, ending, after, processes, rest⟩ :=
        ih ⟨{ p.ledger with filterCount := p.ledger.filterCount + 1 }, state⟩
      refine ⟨_, _, _, _, .filtered answer processes, ?_⟩
      simp [processItems, ask_run, answer, log_run, book_run, rest]
    · obtain ⟨events, outputs, ending, after, processes, rest⟩ := ih ⟨p.ledger, state⟩
      refine ⟨_, _, _, _, .output answer processes, ?_⟩
      rcases ending with error | ⟨⟩ <;> simp [processItems, ask_run, answer, rest, Except.map]

theorem writeChunk_writes (outputs : List ω) (p : Progress σ) :
    ∃ events ending after, step.Writes outputs p events ending after ∧
      step.writeChunk outputs p = ⟨ending, events, after⟩ := by
  by_cases empty : outputs = []
  · refine ⟨_, _, _, .nothing empty, ?_⟩
    simp [writeChunk, empty, log_run]
  · rcases answer : step.writer.write outputs p.state with ⟨error | ⟨⟩, told, state⟩
    · refine ⟨_, _, _, .notWritten empty answer, ?_⟩
      simp [writeChunk, empty, log_run, ask_run, book_run, answer]
    · rcases flush : step.writer.flush state with ⟨error | ⟨⟩, flushed, after⟩
      · refine ⟨_, _, _, .notFlushed empty answer flush, ?_⟩
        simp [writeChunk, empty, log_run, ask_run, book_run, answer, flush]
      · refine ⟨_, _, _, .written empty answer flush, ?_⟩
        simp [writeChunk, empty, log_run, ask_run, answer, flush]

theorem rollBack_rollsBack (cause : Error) (p : Progress σ) :
    ∃ events after, step.RollsBack cause p events after ∧
      step.rollBack cause p = ⟨(), events, after⟩ := by
  rcases answer : step.transactions.rollback p.state with ⟨undone, told, state⟩
  refine ⟨_, _, .rolledBack answer rfl, ?_⟩
  rcases undone with error | ⟨⟩ <;>
    simp [rollBack, notifyChunkError, log_run, book_run, ask_run, answer, noted]

theorem executeChunk_transacts (items : List ι) (p : Progress σ) :
    ∃ events result after, step.Transacts items p events result after ∧
      step.executeChunk items p = ⟨result.map fun _ => (), events, after⟩ := by
  rcases before :
    notify (·.beforeChunk) (.beforeChunk : Nat → Call ι ω) 0 step.chunkListeners p with
      ⟨⟨⟩, heard, opened⟩
  rcases answer : step.transactions.begin opened.state with ⟨error | ⟨⟩, told, state⟩
  · -- What did not begin is not rolled back, only told of.
    refine ⟨_, _, _, .notBegun before answer rfl, ?_⟩
    simp [executeChunk, notifyChunkError, before, ask_run, answer, setStatus_run, Except.map]
  · obtain ⟨processing, outputs, ending, middle, processes, processed⟩ :=
      step.processItems_processes items ⟨opened.ledger, state⟩
    rcases ending with error | ⟨⟩
    · obtain ⟨rollback, after, undo, undone⟩ := step.rollBack_rollsBack error middle
      refine ⟨_, _, _, .notProcessed before answer processes undo, ?_⟩
      simp [executeChunk, produce, processChunk, before, ask_run, answer, log_run, processed,
        undone, Except.map]
    · obtain ⟨writing, written, done, writes, wrote⟩ := step.writeChunk_writes outputs middle
      rcases written with error | ⟨⟩
      · obtain ⟨rollback, after, undo, undone⟩ := step.rollBack_rollsBack error done
        refine ⟨_, _, _, .notWritten before answer processes writes undo, ?_⟩
        simp [executeChunk, produce, processChunk, before, ask_run, answer, log_run, processed,
          wrote, undone, Except.map]
      · rcases commit : step.transactions.commit done.state with ⟨error | ⟨⟩, committing, final⟩
        · obtain ⟨rollback, after, undo, undone⟩ := step.rollBack_rollsBack error
            ⟨{ done.ledger with status := .transactionError }, final⟩
          refine ⟨_, _, _, .notCommitted before answer processes writes commit undo, ?_⟩
          simp [executeChunk, produce, processChunk, before, ask_run, answer, log_run, processed,
            wrote, commit, setStatus_run, undone, Except.map]
        · refine ⟨_, _, _, .committed before answer processes writes commit rfl, ?_⟩
          simp [executeChunk, produce, processChunk, before, ask_run, answer, log_run, processed,
            wrote, commit, book_run, Except.map]

theorem readChunk_of_room {step : ChunkStep σ ε ι ω} (room : step.HasRoom) :
    step.readChunk = (do log .reading; some <$> step.readItems step.chunkSize) := by
  unfold readChunk
  rw [if_pos room]

theorem hasRoom_of_readChunk {step : ChunkStep σ ε ι ω} {p : Progress σ}
    {chunk : Result (List ι × ChunkStatus)} (reads : (step.readChunk p).value = some chunk) :
    step.HasRoom := by
  apply Decidable.byContradiction
  intro crowded
  simp [readChunk, log_run, crowded] at reads

theorem runChunks_of_crowded {step : ChunkStep σ ε ι ω} (crowded : ¬step.HasRoom) (rounds : Nat)
    (p : Progress σ) :
    step.runChunks (rounds + 1) p = ⟨none, [.log .reading, .stopped capacityOverflow], p⟩ := by
  simp [runChunks, readChunk, crowded, log_run, Act.tell]

theorem runChunks_rounds (rounds : Nat) (p : Progress σ) :
    ∃ events result after, step.Rounds rounds p events result after ∧
      step.runChunks rounds p = ⟨result, events, after⟩ := by
  induction rounds generalizing p with
  | zero => exact ⟨_, _, _, .unfinished, rfl⟩
  | succ rounds ih =>
    by_cases room : step.HasRoom
    case neg => exact ⟨_, _, _, .stopped room, runChunks_of_crowded room rounds p⟩
    obtain ⟨reading, items, ending, read, reads, eq⟩ := step.readItems_reads step.chunkSize p
    rcases ending with error | status
    · refine ⟨_, _, _, .last (.notRead reads), ?_⟩
      simp [runChunks, readChunk_of_room room, log_run, eq, setStatus_run, Except.map]
    · by_cases empty : items = []
      · subst empty
        cases status with
        | full =>
          -- A full chunk has as many items as it has room for, which is at least one.
          have room : 0 = step.chunkSize := reads.length_eq rfl
          exact absurd step.chunkSize_pos (by omega)
        | finished =>
          refine ⟨_, _, _, .last (.exhausted reads), ?_⟩
          simp [runChunks, readChunk_of_room room, log_run, eq, setStatus_run, Except.map]
      · obtain ⟨transaction, result, after, transacts, executed⟩ :=
          step.executeChunk_transacts items read
        rcases result with error | outputs
        · refine ⟨_, _, _, .last (.failed reads empty transacts), ?_⟩
          simp [runChunks, readChunk_of_room room, log_run, eq, empty, executed, Except.map]
        · cases status with
          | full =>
            obtain ⟨events, result, final, all, rest⟩ := ih after
            refine ⟨_, _, _, .more (.more reads empty transacts) all, ?_⟩
            simp [runChunks, readChunk_of_room room, log_run, eq, empty, executed, rest, Except.map]
          | finished =>
            refine ⟨_, _, _, .last (.last reads empty transacts), ?_⟩
            simp [runChunks, readChunk_of_room room, log_run, eq, empty, executed, setStatus_run,
              Except.map]

/-- Whatever the parts answer, a run of the step goes through these stages. -/
theorem execute_runs (rounds : Nat) (p : Progress σ) :
    ∃ events result after, step.Runs rounds p events result after ∧
      step.execute rounds p = ⟨result, events, after⟩ := by
  rcases answer : step.writer.openStore p.state with ⟨error | ⟨⟩, told, state⟩
  · refine ⟨_, _, _, .notOpened answer, ?_⟩
    simp [execute, runOpened, ask_run, answer, setStatus_run, ledger_run, log_run, lastEntry]
  · obtain ⟨events, result, after, all, ran⟩ :=
      step.runChunks_rounds rounds ⟨{ p.ledger with status := .started }, state⟩
    rcases result with _ | result
    · -- Without a result the run stops between two rounds, and the store stays open.
      refine ⟨_, _, _, .unfinished answer all, ?_⟩
      simp [execute, runOpened, ask_run, answer, setStatus_run, ledger_run, log_run, ran]
    · rcases close : step.writer.closeStore after.state with ⟨closed, closing, final⟩
      refine ⟨_, _, _, .closed answer all close, ?_⟩
      rcases closed with _ | ⟨⟩ <;> rcases result with _ | ⟨⟩ <;>
        simp [execute, runOpened, ask_run, answer, setStatus_run, ledger_run, log_run, ran, close,
          noted, lastEntry]

/-- The rounds that a run can make of so many: none if there is no room for a chunk. -/
def granted (rounds : Nat) : Nat := if step.HasRoom then rounds else 0

/-- Without room for a chunk a run goes as far as one of no rounds. -/
theorem execute_of_crowded {step : ChunkStep σ ε ι ω} (crowded : ¬step.HasRoom) (rounds : Nat)
    (p : Progress σ) :
    let run := step.execute rounds p
    let none := step.execute 0 p
    run.value = none.value ∧ calls run.events = calls none.events ∧ run.state = none.state := by
  intro run none
  cases rounds with
  | zero => exact ⟨rfl, rfl, rfl⟩
  | succ rounds =>
    have stops := runChunks_of_crowded crowded rounds
    rcases answer : step.writer.openStore p.state with ⟨error | ⟨⟩, told, state⟩ <;>
      simp [run, none, execute, runOpened, ask_run, answer, setStatus_run, ledger_run, log_run,
        stops, show step.runChunks 0 = pure .none from rfl]

end ChunkStep

end Batchwork
