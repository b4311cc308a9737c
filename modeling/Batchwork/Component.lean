import Batchwork.Act
import Batchwork.Error

/-!
# The parts of a step

A step is put together from a reader, a processor, a writer, a transaction manager, a skip policy
and listeners. Each is an act on a shared state `σ`, so that two parts may be one and the same
store, and each may tell of events `ε` of its own.
-/

namespace Batchwork

abbrev Result (α : Type) := Except Error α

structure Reader (σ ε ι : Type) where
  /-- The next item, or nothing once the source is exhausted. -/
  next : Act σ ε (Result (Option ι))

structure Processor (σ ε ι ω : Type) where
  /-- The item to write for an item read, or nothing to filter it out. -/
  process : ι → Act σ ε (Result (Option ω))

/-- A destination of items. Within one run of a step it is opened once before anything else and
closed once at the end. -/
structure Writer (σ ε ω : Type) where
  openStore : Act σ ε (Result Unit) := pure (.ok ())
  write : List ω → Act σ ε (Result Unit)
  flush : Act σ ε (Result Unit) := pure (.ok ())
  closeStore : Act σ ε (Result Unit) := pure (.ok ())

structure TransactionManager (σ ε : Type) where
  begin : Act σ ε (Result Unit)
  commit : Act σ ε (Result Unit)
  rollback : Act σ ε (Result Unit)

/-- Manages nothing: every call succeeds. -/
def TransactionManager.resourceless (σ ε : Type) : TransactionManager σ ε where
  begin := pure (.ok ())
  commit := pure (.ok ())
  rollback := pure (.ok ())

structure SkipPolicy (σ ε : Type) where
  /-- Whether to leave out an item whose processing failed, given the number left out before. -/
  shouldSkip : Error → Nat → Act σ ε (Result Bool)

structure ChunkListener (σ ε ω : Type) where
  beforeChunk : Act σ ε Unit := pure ()
  afterChunk : List ω → Act σ ε Unit := fun _ => pure ()
  afterChunkError : Error → Act σ ε Unit := fun _ => pure ()

structure SkipListener (σ ε ι : Type) where
  onSkip : ι → Error → Act σ ε Unit

/-! ## Parts over a larger state

A part that works on a state of its own can be put to work on a larger state that holds that one. -/

section

variable {σ τ ε δ ι ω : Type} (place : Place σ τ) (name : δ → ε)

def Reader.within (reader : Reader τ δ ι) : Reader σ ε ι where
  next := reader.next.within place name

def Processor.within (processor : Processor τ δ ι ω) : Processor σ ε ι ω where
  process item := (processor.process item).within place name

def Writer.within (writer : Writer τ δ ω) : Writer σ ε ω where
  openStore := writer.openStore.within place name
  write items := (writer.write items).within place name
  flush := writer.flush.within place name
  closeStore := writer.closeStore.within place name

def TransactionManager.within (transactions : TransactionManager τ δ) :
    TransactionManager σ ε where
  begin := transactions.begin.within place name
  commit := transactions.commit.within place name
  rollback := transactions.rollback.within place name

def SkipPolicy.within (policy : SkipPolicy τ δ) : SkipPolicy σ ε where
  shouldSkip error skipped := (policy.shouldSkip error skipped).within place name

end

end Batchwork
