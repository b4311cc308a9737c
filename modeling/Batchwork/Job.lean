import Batchwork.Step

/-!
# Jobs

A job runs its steps one after the other, each on a ledger of its own, and stops at the first one
that fails.
-/

namespace Batchwork

/-- A step as a job sees it. Its run has no result if it does not come to an end. -/
structure Step (σ ε : Type) where
  name : String
  execute : Ledger → Act σ ε (Option (Result Unit) × Ledger)

/-- A chunk step that is given as many rounds as the state it starts from asks for. -/
def ChunkStep.toStep {σ ε ι ω : Type} (step : ChunkStep σ ε ι ω) (rounds : σ → Nat) :
    Step σ (StepEvent ι ω ε) where
  name := step.name
  execute ledger := fun state =>
    let outcome := step.execute (rounds state) ⟨ledger, state⟩
    ⟨(outcome.value, outcome.state.ledger), outcome.events, outcome.state.state⟩

structure Job (σ ε : Type) where
  id : RunId
  name : String
  steps : List (Step σ ε)

inductive JobStatus where
  | completed
  | failed
  deriving Repr, DecidableEq, Inhabited

def JobStatus.text : JobStatus → String
  | completed => "Completed"
  | failed => "Failed"

/-- One run of a job: the ledgers of the steps that ran, and the failure that ended it if any. -/
structure JobExecution where
  id : RunId
  name : String
  ledgers : List Ledger
  failure : Option Error
  deriving Repr, DecidableEq, Inhabited

namespace JobExecution

def status (execution : JobExecution) : JobStatus :=
  if execution.failure.isSome then .failed else .completed

/-- The place of the first ledger of a step of that name. -/
def ledgerIndex? (execution : JobExecution) (name : String) : Option Nat :=
  execution.ledgers.findIdx? (·.name == name)

def ledger? (execution : JobExecution) (name : String) : Option Ledger :=
  execution.ledgers.find? (·.name == name)

/-- A failed execution as the failure it is. -/
def result (execution : JobExecution) : Result JobExecution :=
  match execution.failure with
  | some error => .error error
  | none => .ok execution

end JobExecution

inductive JobEvent (ε : Type) where
  | log (entry : JobLog)
  /-- What a step told of. -/
  | told (event : ε)

namespace Job

variable {σ ε : Type}

def log (entry : JobLog) : Act σ (JobEvent ε) Unit := Act.tell (.log entry)

/-- Runs the steps up to the first failure. The ledgers get consecutive serial numbers. -/
def runSteps (jobName : String) :
    (serial : Nat) → List (Step σ ε) → Act σ (JobEvent ε) (Option (List Ledger × Option Error))
  | _, [] => pure (some ([], none))
  | serial, step :: rest => do
    let (result, ledger) ←
      Act.within (.whole σ) .told
        (step.execute { id := ⟨serial⟩, name := step.name })
    match result with
    | none => pure none
    | some (.error source) =>
      log (.stepFailed jobName step.name source)
      pure (some ([ledger], some (.step step.name source)))
    | some (.ok ()) =>
      match ← runSteps jobName (serial + 1) rest with
      | none => pure none
      | some (ledgers, failure) => pure (some (ledger :: ledgers, failure))

/-- Runs the job, with `serial` as the first number free for the ledgers of its steps. -/
def execute (job : Job σ ε) (serial : Nat) : Act σ (JobEvent ε) (Option JobExecution) := do
  log (.started job.name job.id)
  match ← runSteps job.name serial job.steps with
  | none => pure none
  | some (ledgers, failure) =>
    if failure.isNone then log (.ended job.name job.id)
    pure (some { id := job.id, name := job.name, ledgers, failure })

/-- Runs the job as `execute` does, but returns a failure as an error. -/
def run (job : Job σ ε) (serial : Nat) : Act σ (JobEvent ε) (Option (Result JobExecution)) :=
  Option.map JobExecution.result <$> job.execute serial

end Job

/-- Collects the name and the steps of a job. -/
structure JobBuilder (σ ε : Type) where
  name : Option String := none
  steps : List (Step σ ε) := []

namespace JobBuilder

variable {σ ε : Type}

def withName (builder : JobBuilder σ ε) (name : String) : JobBuilder σ ε :=
  { builder with name := some name }

def next (builder : JobBuilder σ ε) (step : Step σ ε) : JobBuilder σ ε :=
  { builder with steps := builder.steps ++ [step] }

/-- A job that was given no name is called `spare`. -/
def build (builder : JobBuilder σ ε) (id : RunId) (spare : String) : Job σ ε where
  id := id
  name := builder.name.getD spare
  steps := builder.steps

end JobBuilder

end Batchwork
