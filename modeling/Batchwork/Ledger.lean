import Batchwork.Error

/-!
# The ledger of a step run

A ledger counts what one run of a step did. It may be handed to a second run, which goes on counting
where the first one stopped.
-/

namespace Batchwork

/-- Names one run of a job or step. Serial numbers are given out by the caller. -/
structure RunId where
  serial : Nat
  deriving Repr, DecidableEq, Inhabited

def RunId.text (id : RunId) : String := s!"#{id.serial}"

inductive StepStatus where
  | starting
  | started
  | success
  | readError
  | processorError
  | writeError
  | transactionError
  deriving Repr, DecidableEq, Inhabited

def StepStatus.text : StepStatus → String
  | starting => "Starting"
  | started => "Started"
  | success => "Success"
  | readError => "ReadError"
  | processorError => "ProcessorError"
  | writeError => "WriteError"
  | transactionError => "TransactionError"

structure Ledger where
  id : RunId
  name : String
  status : StepStatus := .starting
  /-- Items handed out by the reader. -/
  readCount : Nat := 0
  /-- Items the processor dropped without an error. -/
  filterCount : Nat := 0
  /-- Items left out because the policy let their error pass. -/
  processSkipCount : Nat := 0
  /-- Items written in committed chunks. -/
  writeCount : Nat := 0
  commitCount : Nat := 0
  rollbackCount : Nat := 0
  readErrorCount : Nat := 0
  /-- Errors of the processor, skipped or not. -/
  processErrorCount : Nat := 0
  /-- Items of chunks whose write failed. -/
  writeErrorCount : Nat := 0
  deriving Repr, DecidableEq, Inhabited

/-- All items left out because of an error. -/
def Ledger.skipCount (ledger : Ledger) : Nat := ledger.processSkipCount

end Batchwork
