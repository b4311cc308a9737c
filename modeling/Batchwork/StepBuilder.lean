import Batchwork.Settings
import Batchwork.Step

/-!
# Building chunk steps

A builder collects the parts of a chunk step in any order. What is set twice counts as it was set
last. Nothing is skipped unless the builder is made fault tolerant or given a policy.
-/

namespace Batchwork

structure StepBuilder (σ ε ι ω : Type) where
  name : String
  reader : Option (Reader σ ε ι) := none
  processor : Option (Processor σ ε ι ω) := none
  writer : Option (Writer σ ε ω) := none
  transactions : Option (TransactionManager σ ε) := none
  chunkSize : Nat := 10
  faultTolerant : Bool := false
  skipLimit : Nat := 0
  skippable : List ErrorKind := []
  policy : Option (SkipPolicy σ ε) := none
  chunkListeners : List (ChunkListener σ ε ω) := []
  skipListeners : List (SkipListener σ ε ι) := []

namespace StepBuilder

variable {σ ε ι ω α : Type}

/-- A step that hands its items on in chunks of the given size. -/
def chunk (name : String) (chunkSize : Nat) : StepBuilder σ ε ι ω := { name, chunkSize }

/-- A step that writes its items as they are read. -/
def passThroughChunk (name : String) (chunkSize : Nat) : StepBuilder σ ε α α :=
  { name, chunkSize, processor := some (Processor.passThrough σ ε α) }

variable (builder : StepBuilder σ ε ι ω)

def withReader (reader : Reader σ ε ι) : StepBuilder σ ε ι ω :=
  { builder with reader := some reader }

def withProcessor (processor : Processor σ ε ι ω) : StepBuilder σ ε ι ω :=
  { builder with processor := some processor }

def withWriter (writer : Writer σ ε ω) : StepBuilder σ ε ι ω :=
  { builder with writer := some writer }

def withTransactions (transactions : TransactionManager σ ε) : StepBuilder σ ε ι ω :=
  { builder with transactions := some transactions }

def withChunkSize (chunkSize : Nat) : StepBuilder σ ε ι ω := { builder with chunkSize }

def tolerant : StepBuilder σ ε ι ω := { builder with faultTolerant := true }

def skip (kind : ErrorKind) : StepBuilder σ ε ι ω :=
  if kind ∈ builder.skippable then builder
  else { builder with skippable := builder.skippable ++ [kind] }

def withSkipLimit (skipLimit : Nat) : StepBuilder σ ε ι ω := { builder with skipLimit }

def withPolicy (policy : SkipPolicy σ ε) : StepBuilder σ ε ι ω :=
  { builder with policy := some policy }

def listenToChunks (listener : ChunkListener σ ε ω) : StepBuilder σ ε ι ω :=
  { builder with chunkListeners := builder.chunkListeners ++ [listener] }

def listenToSkips (listener : SkipListener σ ε ι) : StepBuilder σ ε ι ω :=
  { builder with skipListeners := builder.skipListeners ++ [listener] }

/-- Takes over settings, which say all about chunks and skips that they can say. -/
def withSettings (settings : Settings) : StepBuilder σ ε ι ω :=
  { builder with
    name := settings.name.getD builder.name
    chunkSize := settings.chunkSize
    faultTolerant := settings.faultTolerant
    skipLimit := settings.skipLimit
    skippable := settings.skipOn }

/-- The rule by which a fault tolerant step skips. -/
def skipRule : SkipLimit :=
  let kinds := if builder.skippable.isEmpty then [.invalidItem] else builder.skippable
  kinds.foldl SkipLimit.on { limit := builder.skipLimit }

def skipPolicy : SkipPolicy σ ε :=
  match builder.policy with
  | some policy => policy
  | none => if builder.faultTolerant then builder.skipRule.policy σ ε else .never σ ε

def missing {β : Type} (what : String) : Result β :=
  .error (.configuration s!"step {builder.name}: {what}")

/-- Builds a step for items that take so many bytes each. -/
def build (itemSize : Nat) : Result (ChunkStep σ ε ι ω) :=
  if positive : 0 < builder.chunkSize then
    match builder.reader, builder.processor, builder.writer with
    | none, _, _ => builder.missing "a reader is required"
    | some _, none, _ =>
      builder.missing "a processor is required unless the step is a pass-through chunk"
    | some _, some _, none => builder.missing "a writer is required"
    | some reader, some processor, some writer =>
      .ok
        { name := builder.name
          reader
          processor
          writer
          transactions := builder.transactions.getD (.resourceless σ ε)
          policy := builder.skipPolicy
          chunkSize := builder.chunkSize
          chunkSize_pos := positive
          itemSize
          chunkListeners := builder.chunkListeners
          skipListeners := builder.skipListeners }
  else builder.missing "chunk size must be at least 1"

end StepBuilder

end Batchwork
