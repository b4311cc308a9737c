import Batchwork.Skip
import Batchwork.Processor

/-!
# Chunk steps

A chunk step reads, processes and writes its items in chunks of a fixed size, one transaction per
chunk. A run of it is an act on a ledger and on the state its parts share. It tells of every call it
makes on a part, with the answer, and of every entry it writes to the log, so that what a run did
can be read off from its events.

The reader alone decides when a run ends. `ChunkStep.execute` is therefore given a number of rounds
and has no result if the reader still had items after that many chunks. It has none either if there
is no room for a chunk: then the whole program is stopped before the first item is read.
-/

namespace Batchwork

/-- A call that a step made on one of its parts, and the answer it got. -/
inductive Call (ι ω : Type) where
  | openStore (answer : Result Unit)
  | next (answer : Result (Option ι))
  | beforeChunk (listener : Nat)
  | begin (answer : Result Unit)
  | process (item : ι) (answer : Result (Option ω))
  | shouldSkip (error : Error) (skipped : Nat) (answer : Result Bool)
  | onSkip (listener : Nat) (item : ι) (error : Error)
  | write (items : List ω) (answer : Result Unit)
  | flush (answer : Result Unit)
  | commit (answer : Result Unit)
  | rollback (answer : Result Unit)
  | afterChunk (listener : Nat) (items : List ω)
  | afterChunkError (listener : Nat) (error : Error)
  | closeStore (answer : Result Unit)

inductive StepEvent (ι ω ε : Type) where
  | call (call : Call ι ω)
  | log (entry : StepLog)
  /-- What a part told of while it was called. -/
  | told (event : ε)
  /-- Why the whole program was stopped. Nothing comes after it. -/
  | stopped (reason : String)

/-- How far a run has come. -/
structure Progress (σ : Type) where
  ledger : Ledger
  state : σ

abbrev StepAct (σ ε ι ω α : Type) := Act (Progress σ) (StepEvent ι ω ε) α

structure ChunkStep (σ ε ι ω : Type) where
  name : String
  reader : Reader σ ε ι
  processor : Processor σ ε ι ω
  writer : Writer σ ε ω
  transactions : TransactionManager σ ε
  policy : SkipPolicy σ ε
  chunkSize : Nat
  chunkSize_pos : 0 < chunkSize
  /-- The number of bytes that an item takes. -/
  itemSize : Nat
  chunkListeners : List (ChunkListener σ ε ω) := []
  skipListeners : List (SkipListener σ ε ι) := []

namespace ChunkStep

variable {σ ε ι ω α : Type}

/-- Calls a part, and tells of the call once it has answered. -/
def ask (act : Act σ ε α) (call : α → Call ι ω) : StepAct σ ε ι ω α := fun progress =>
  let inner := act progress.state
  ⟨inner.value, inner.events.map .told ++ [.call (call inner.value)],
    { progress with state := inner.state }⟩

def log (entry : StepLog) : StepAct σ ε ι ω Unit := Act.tell (.log entry)

def book (change : Ledger → Ledger) : StepAct σ ε ι ω Unit :=
  Act.modify fun progress => { progress with ledger := change progress.ledger }

def setStatus (status : StepStatus) : StepAct σ ε ι ω Unit :=
  book fun ledger => { ledger with status }

def ledger : StepAct σ ε ι ω Ledger := do return (← Act.read).ledger

/-- Calls listeners in the order in which they were registered, the first of them as number
`index`. -/
def notify {κ : Type} (act : κ → Act σ ε Unit) (call : Nat → Call ι ω) :
    (index : Nat) → List κ → StepAct σ ε ι ω Unit
  | _, [] => pure ()
  | index, listener :: rest => do
    ask (act listener) fun () => call index
    notify act call (index + 1) rest

variable (step : ChunkStep σ ε ι ω)

/-- The largest number of bytes for which room can be asked at once. -/
def roomLimit : Nat := Nat.pow 2 63 - 1

/-- Whether room can be asked for all items of a chunk before the first of them is read. -/
def HasRoom : Prop := step.chunkSize * step.itemSize ≤ roomLimit

instance : Decidable step.HasRoom := inferInstanceAs (Decidable (_ ≤ _))

/-- What is said when more room is asked for than there can be. -/
def capacityOverflow : String := "capacity overflow"

/-- Reads until the chunk has no more room, the reader is exhausted, or it fails. -/
def readItems : (room : Nat) → StepAct σ ε ι ω (Result (List ι × ChunkStatus))
  | 0 => do
    log (.chunkRead .full)
    pure (.ok ([], .full))
  | room + 1 => do
    match ← ask step.reader.next .next with
    | .ok (some item) =>
      book fun ledger => { ledger with readCount := ledger.readCount + 1 }
      Except.map (Prod.map (item :: ·) id) <$> readItems room
    | .ok none =>
      log (.chunkRead .finished)
      pure (.ok ([], .finished))
    | .error error =>
      log (.readFailed error)
      book fun ledger => { ledger with readErrorCount := ledger.readErrorCount + 1 }
      pure (.error error)

/-- Makes room for a chunk and reads it. If there can be no such room, the program is stopped. -/
def readChunk : StepAct σ ε ι ω (Option (Result (List ι × ChunkStatus))) := do
  log .reading
  if step.HasRoom then some <$> step.readItems step.chunkSize
  else
    Act.tell (.stopped capacityOverflow)
    pure none

/-- Asks the policy about an item whose processing failed. A refusal ends the chunk, with the error
of the policy if it has one and the error of the processor if not. -/
def skipItem (item : ι) (error : Error) : StepAct σ ε ι ω (Result Unit) := do
  book fun ledger => { ledger with processErrorCount := ledger.processErrorCount + 1 }
  let skipped := (← ledger).processSkipCount
  match ← ask (step.policy.shouldSkip error skipped) (.shouldSkip error skipped) with
  | .ok true =>
    log (.skipping error)
    book fun ledger => { ledger with processSkipCount := ledger.processSkipCount + 1 }
    notify (fun listener => listener.onSkip item error) (.onSkip · item error) 0 step.skipListeners
    pure (.ok ())
  | .ok false =>
    log (.processFailed error)
    setStatus .processorError
    pure (.error error)
  | .error refusal =>
    log (.skipRefused refusal error)
    setStatus .processorError
    pure (.error refusal)

/-- Processes items in order up to the first one whose failure is not skipped. -/
def processItems : List ι → StepAct σ ε ι ω (Result (List ω))
  | [] => pure (.ok [])
  | item :: rest => do
    match ← ask (step.processor.process item) (.process item) with
    | .ok (some output) => Except.map (output :: ·) <$> processItems rest
    | .ok none =>
      log .filtered
      book fun ledger => { ledger with filterCount := ledger.filterCount + 1 }
      processItems rest
    | .error error =>
      match ← step.skipItem item error with
      | .ok () => processItems rest
      | .error fatal => pure (.error fatal)

def processChunk (items : List ι) : StepAct σ ε ι ω (Result (List ω)) := do
  log (.processing items.length)
  step.processItems items

/-- Writes and flushes the outputs of a chunk. A chunk without outputs does not call the writer. -/
def writeChunk (outputs : List ω) : StepAct σ ε ι ω (Result Unit) := do
  if outputs.isEmpty then
    log .nothingToWrite
    pure (.ok ())
  else
    log (.writing outputs.length)
    let answer ← do
      match ← ask (step.writer.write outputs) (.write outputs) with
      | .ok () => ask step.writer.flush .flush
      | .error error => pure (.error error)
    match answer with
    | .ok () => pure (.ok ())
    | .error error =>
      log (.writeFailed error)
      book fun ledger =>
        { ledger with
          writeErrorCount := ledger.writeErrorCount + outputs.length, status := .writeError }
      pure (.error error)

def notifyChunkError (error : Error) : StepAct σ ε ι ω Unit :=
  notify (fun listener => listener.afterChunkError error) (.afterChunkError · error) 0
    step.chunkListeners

/-- Takes a chunk back. That this fails too is only logged: `cause` stays the error of the chunk. -/
def rollBack (cause : Error) : StepAct σ ε ι ω Unit := do
  log (.rollingBack cause)
  book fun ledger => { ledger with rollbackCount := ledger.rollbackCount + 1 }
  match ← ask step.transactions.rollback .rollback with
  | .ok () => pure ()
  | .error error => log (.rollbackFailed error)
  step.notifyChunkError cause

/-- The outputs of a chunk, once they are written. -/
def produce (items : List ι) : StepAct σ ε ι ω (Result (List ω)) := do
  match ← step.processChunk items with
  | .error error => pure (.error error)
  | .ok outputs =>
    match ← step.writeChunk outputs with
    | .error error => pure (.error error)
    | .ok () => pure (.ok outputs)

/-- Processes, writes and commits one chunk, and rolls it back if any of that fails. -/
def executeChunk (items : List ι) : StepAct σ ε ι ω (Result Unit) := do
  notify (·.beforeChunk) .beforeChunk 0 step.chunkListeners
  match ← ask step.transactions.begin .begin with
  | .error error =>
    setStatus .transactionError
    step.notifyChunkError error
    pure (.error error)
  | .ok () =>
    match ← step.produce items with
    | .error error =>
      step.rollBack error
      pure (.error error)
    | .ok outputs =>
      match ← ask step.transactions.commit .commit with
      | .error error =>
        setStatus .transactionError
        step.rollBack error
        pure (.error error)
      | .ok () =>
        book fun ledger =>
          { ledger with
            commitCount := ledger.commitCount + 1
            writeCount := ledger.writeCount + outputs.length }
        log (.committed outputs.length)
        notify (·.afterChunk outputs) (.afterChunk · outputs) 0 step.chunkListeners
        pure (.ok ())

/-- Runs chunks until one is the last or fails. There is no result if none of `rounds` chunks was
the last, or if there is no room for a chunk. -/
def runChunks : (rounds : Nat) → StepAct σ ε ι ω (Option (Result Unit))
  | 0 => pure none
  | rounds + 1 => do
    match ← step.readChunk with
    | none => pure none
    | some (.error error) =>
      setStatus .readError
      pure (some (.error error))
    | some (.ok (items, status)) =>
      let done ← if items.isEmpty then pure (.ok ()) else step.executeChunk items
      match done, status with
      | .error error, _ => pure (some (.error error))
      | .ok (), .full => runChunks rounds
      | .ok (), .finished =>
        setStatus .success
        pure (some (.ok ()))

/-- Opens the store, runs the chunks and closes the store. A store that does not open is not
closed, and one that does not close is only logged. -/
def runOpened (rounds : Nat) : StepAct σ ε ι ω (Option (Result Unit)) := do
  match ← ask step.writer.openStore .openStore with
  | .error error =>
    setStatus .writeError
    pure (some (.error error))
  | .ok () =>
    match ← step.runChunks rounds with
    | none => pure none
    | some result =>
      match ← ask step.writer.closeStore .closeStore with
      | .ok () => pure (some result)
      | .error error =>
        log (.closeFailed error)
        pure (some result)

/-- Runs the step on the books of the ledger it is given. -/
def execute (rounds : Nat) : StepAct σ ε ι ω (Option (Result Unit)) := do
  setStatus .started
  let opening ← ledger
  log (.started opening.name opening.id)
  match ← step.runOpened rounds with
  | none => pure none
  | some result =>
    let books ← ledger
    match result with
    | .ok () => log (.ended books)
    | .error error => log (.failed books.name books.status error)
    pure (some result)

end ChunkStep

end Batchwork
