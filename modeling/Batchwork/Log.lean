import Batchwork.Ledger

/-!
# Log entries

Everything a batch writes to its log, as data. `LogEntry.line` is the text of an entry.
-/

namespace Batchwork

inductive LogLevel where
  | debug
  | info
  | warn
  | error
  deriving Repr, DecidableEq, Inhabited

def LogLevel.text : LogLevel → String
  | debug => "DEBUG"
  | info => "INFO"
  | warn => "WARN"
  | error => "ERROR"

/-- How reading a chunk ended without an error. -/
inductive ChunkStatus where
  /-- The chunk has its full size, and the reader may have more. -/
  | full
  /-- The reader is exhausted. The chunk may still hold items. -/
  | finished
  deriving Repr, DecidableEq, Inhabited

def ChunkStatus.text : ChunkStatus → String
  | full => "FULL"
  | finished => "FINISHED"

/-- What a chunk step writes to the log. -/
inductive StepLog where
  | started (name : String) (id : RunId)
  | ended (ledger : Ledger)
  | failed (name : String) (status : StepStatus) (error : Error)
  | closeFailed (error : Error)
  | reading
  | chunkRead (status : ChunkStatus)
  | readFailed (error : Error)
  | processing (items : Nat)
  | filtered
  | skipping (error : Error)
  | processFailed (error : Error)
  | skipRefused (refusal error : Error)
  | nothingToWrite
  | writing (items : Nat)
  | writeFailed (error : Error)
  | committed (items : Nat)
  | rollingBack (cause : Error)
  | rollbackFailed (error : Error)
  deriving Repr, DecidableEq, Inhabited

def StepLog.level : StepLog → LogLevel
  | started .. | ended _ => .info
  | closeFailed _ | skipping _ => .warn
  | failed .. | readFailed _ | processFailed _ | skipRefused .. | writeFailed _
  | rollbackFailed _ => .error
  | reading | chunkRead _ | processing _ | filtered | nothingToWrite | writing _ | committed _
  | rollingBack _ => .debug

def StepLog.text : StepLog → String
  | started name id => s!"Start of step: {name}, id: {id.text}"
  | ended ledger =>
    s!"End of step: {ledger.name}, id: {ledger.id.text}, read: {ledger.readCount}, " ++
      s!"written: {ledger.writeCount}, filtered: {ledger.filterCount}, " ++
      s!"skipped: {ledger.processSkipCount}"
  | failed name status error => s!"Step {name} failed with status {status.text}: {error.message}"
  | closeFailed error => s!"Non-fatal error: {error.message}"
  | reading => "Start reading chunk"
  | chunkRead status => s!"End reading chunk: {status.text}"
  | readFailed error => s!"Error reading item: {error.message}"
  | processing items => s!"Processing chunk of {items} items"
  | filtered => "Item filtered by processor"
  | skipping error => s!"Skipping item: {error.message}"
  | processFailed error => s!"Error processing item: {error.message}"
  | skipRefused refusal error => s!"{refusal.message} while processing item: {error.message}"
  | nothingToWrite => "No items to write, skipping write call"
  | writing items => s!"Writing chunk of {items} items"
  | writeFailed error => s!"Error writing items: {error.message}"
  | committed items => s!"Chunk committed with {items} items"
  | rollingBack cause => s!"Rolling back chunk: {cause.message}"
  | rollbackFailed error => s!"Rollback failed: {error.message}"

/-- What a job writes to the log. -/
inductive JobLog where
  | started (name : String) (id : RunId)
  | ended (name : String) (id : RunId)
  | stepFailed (job step : String) (error : Error)
  deriving Repr, DecidableEq, Inhabited

def JobLog.level : JobLog → LogLevel
  | started .. | ended .. => .info
  | stepFailed .. => .error

def JobLog.text : JobLog → String
  | started name id => s!"Start of job: {name}, id: {id.text}"
  | ended name id => s!"End of job: {name}, id: {id.text}"
  | stepFailed job step error => s!"Job {job} failed at step {step}: {error.message}"

/-- What readers, processors and writers write to the log. -/
inductive ComponentLog where
  | committing (staged : Nat)
  | rolledBack (staged : Nat)
  | fetched (items : Nat)
  | requesting (url : String)
  | arrayEnded (elements : Nat)
  | dropping (error : Error)
  | record (quoted : String)
  | inserted (rows : Nat) (table : String)
  | insertFailed (table reason : String)
  | stored (documents : Nat) (collection : String)
  deriving Repr, DecidableEq, Inhabited

def ComponentLog.level : ComponentLog → LogLevel
  | record _ => .info
  | insertFailed .. => .error
  | _ => .debug

def ComponentLog.text : ComponentLog → String
  | committing staged => s!"Committing {staged} staged items"
  | rolledBack staged => s!"Rolled back {staged} staged items"
  | fetched items => s!"Fetched {items} items from repository"
  | requesting url => s!"GET {url}"
  | arrayEnded elements => s!"End of JSON array after {elements} elements"
  | dropping error => s!"Filtering invalid item: {error.message}"
  | record quoted => s!"Record:{quoted}"
  | inserted rows table => s!"Inserted {rows} rows into {table}"
  | insertFailed table reason => s!"Failed to insert into {table}: {reason}"
  | stored documents collection => s!"Inserted {documents} documents into {collection}"

inductive LogEntry where
  | step (entry : StepLog)
  | job (entry : JobLog)
  | component (entry : ComponentLog)
  deriving Repr, DecidableEq, Inhabited

/-- The line of an entry: its level and its text. -/
def LogEntry.line : LogEntry → String
  | step entry => s!"{entry.level.text} {entry.text}"
  | job entry => s!"{entry.level.text} {entry.text}"
  | component entry => s!"{entry.level.text} {entry.text}"

end Batchwork
