/-!
# Errors of a batch

Every failure says what part of the batch it comes from. `Error.message` is the one wording of each.
-/

namespace Batchwork

inductive ErrorKind where
  | itemReader
  | itemProcessor
  | invalidItem
  | validation
  | itemWriter
  | transaction
  | skipLimitExceeded
  | step
  | configuration
  deriving Repr, DecidableEq, Inhabited

namespace ErrorKind

/-- The kinds in the order in which a settings document lists them. -/
def all : List ErrorKind :=
  [itemReader, itemProcessor, invalidItem, validation, itemWriter, transaction, skipLimitExceeded,
    step, configuration]

/-- The name of a kind in a settings document. -/
def name : ErrorKind → String
  | itemReader => "item_reader"
  | itemProcessor => "item_processor"
  | invalidItem => "invalid_item"
  | validation => "validation"
  | itemWriter => "item_writer"
  | transaction => "transaction"
  | skipLimitExceeded => "skip_limit_exceeded"
  | step => "step"
  | configuration => "configuration"

def ofName? (name : String) : Option ErrorKind := all.find? (·.name == name)

theorem ofName?_name (kind : ErrorKind) : ofName? kind.name = some kind := by
  cases kind <;> decide

theorem mem_all (kind : ErrorKind) : kind ∈ all := by
  cases kind <;> decide

end ErrorKind

inductive Error where
  | itemReader (reason : String)
  | itemProcessor (reason : String)
  | invalidItem (item reason : String)
  | validation (reason : String)
  | itemWriter (reason : String)
  | transaction (reason : String)
  | skipLimitExceeded (limit : Nat)
  /-- A step of a job failed because of `source`. -/
  | step (name : String) (source : Error)
  | configuration (reason : String)
  deriving Repr, DecidableEq, Inhabited

namespace Error

def kind : Error → ErrorKind
  | itemReader _ => .itemReader
  | itemProcessor _ => .itemProcessor
  | invalidItem .. => .invalidItem
  | validation _ => .validation
  | itemWriter _ => .itemWriter
  | transaction _ => .transaction
  | skipLimitExceeded _ => .skipLimitExceeded
  | step .. => .step
  | configuration _ => .configuration

def message : Error → String
  | itemReader reason => s!"ItemReader error: {reason}"
  | itemProcessor reason => s!"ItemProcessor error: {reason}"
  | invalidItem item reason => s!"Invalid item {item}: {reason}"
  | validation reason => s!"Validation failed: {reason}"
  | itemWriter reason => s!"ItemWriter error: {reason}"
  | transaction reason => s!"Transaction error: {reason}"
  | skipLimitExceeded limit => s!"Skip limit of {limit} exceeded"
  | step name source => s!"Step {name} failed: {source.message}"
  | configuration reason => s!"Configuration error: {reason}"

/-- How many causes stand behind an error, one below the other. -/
def depth : Error → Nat
  | step _ source => source.depth + 1
  | _ => 0

end Error

end Batchwork
