import Batchwork.Job
import Batchwork.Repository

/-!
# Scripted parts

Parts of a step that answer from a script, and wrappers that let a part fail on purpose or record
what it is asked. A script that has run out goes on with its last resort.
-/

namespace Batchwork.Rehearsal

variable {σ ε ι ω α : Type}

/-- Takes the next line of a script. -/
def nextLine (last : α) : Act (List α) ε α := fun lines =>
  match lines with
  | [] => ⟨last, [], []⟩
  | line :: rest => ⟨line, [], rest⟩

/-- A reader that answers from a script and is then exhausted. -/
def scriptedReader (ε ι : Type) : Reader (List (Result (Option ι))) ε ι where
  next := nextLine (.ok none)

/-- A repository of fixed items whose calls fail as scripted. -/
structure ScriptedRepository (α : Type) where
  items : List α
  failures : List (Option Error) := []
  calls : Nat := 0
  deriving Repr, DecidableEq, Inhabited

def ScriptedRepository.asRepository (ε α : Type) : Repository (ScriptedRepository α) ε α where
  findAll := fun repository =>
    let after := { repository with
      failures := repository.failures.drop 1, calls := repository.calls + 1 }
    match repository.failures with
    | some error :: _ => ⟨.error error, [], after⟩
    | _ => ⟨.ok repository.items, [], after⟩

/-- A policy that answers from a script and then never skips. -/
def scriptedPolicy (ε : Type) : SkipPolicy (List (Result Bool)) ε where
  shouldSkip _ _ := nextLine (.ok false)

/-- A step that reads one item a run and ends as scripted. -/
def scriptedStep (ε : Type) (name : String) : Step (List (Option Error)) ε where
  name := name
  execute ledger := do
    let ledger := { ledger with readCount := ledger.readCount + 1 }
    match ← nextLine none with
    | some error => return (some (.error error), { ledger with status := .writeError })
    | none => return (some (.ok ()), { ledger with status := .success })

/-- The failures that wait for the calls of each method of a writer. -/
structure Faults where
  openStore : List (Option Error) := []
  write : List (Option Error) := []
  flush : List (Option Error) := []
  closeStore : List (Option Error) := []
  begin : List (Option Error) := []
  commit : List (Option Error) := []
  rollback : List (Option Error) := []
  deriving Repr, DecidableEq, Inhabited

/-- Lets an act fail if the next line of its script says so, and run if not. -/
def failing (script : Place Faults (List (Option Error))) (act : Act σ ε (Result α)) :
    Act (Faults × σ) ε (Result α) := do
  let line ← Act.within (.first Faults σ) id (Act.within script id (nextLine none))
  match line with
  | some error => return .error error
  | none => Act.within (.second Faults σ) id act

namespace Faults

def openScript : Place Faults (List (Option Error)) :=
  ⟨(·.openStore), fun rest faults => { faults with openStore := rest }⟩

def writeScript : Place Faults (List (Option Error)) :=
  ⟨(·.write), fun rest faults => { faults with write := rest }⟩

def flushScript : Place Faults (List (Option Error)) :=
  ⟨(·.flush), fun rest faults => { faults with flush := rest }⟩

def closeScript : Place Faults (List (Option Error)) :=
  ⟨(·.closeStore), fun rest faults => { faults with closeStore := rest }⟩

def beginScript : Place Faults (List (Option Error)) :=
  ⟨(·.begin), fun rest faults => { faults with begin := rest }⟩

def commitScript : Place Faults (List (Option Error)) :=
  ⟨(·.commit), fun rest faults => { faults with commit := rest }⟩

def rollbackScript : Place Faults (List (Option Error)) :=
  ⟨(·.rollback), fun rest faults => { faults with rollback := rest }⟩

end Faults

def faultyWriter (writer : Writer σ ε ω) : Writer (Faults × σ) ε ω where
  openStore := failing Faults.openScript writer.openStore
  write items := failing Faults.writeScript (writer.write items)
  flush := failing Faults.flushScript writer.flush
  closeStore := failing Faults.closeScript writer.closeStore

def faultyTransactions (transactions : TransactionManager σ ε) :
    TransactionManager (Faults × σ) ε where
  begin := failing Faults.beginScript transactions.begin
  commit := failing Faults.commitScript transactions.commit
  rollback := failing Faults.rollbackScript transactions.rollback

/-- A note on a call of a part of a step. -/
inductive Note (ι ω : Type) where
  | read (tag : String) (answer : Result (Option ι))
  | processed (tag : String) (item : ι)
  | asked (kind : ErrorKind) (skipped : Nat)
  | called (method tag : String)
  | wrote (tag : String) (items : List ω)
  | beforeChunk (tag : String)
  | afterChunk (tag : String) (items : List ω)
  | afterChunkError (tag : String) (error : Error)
  | skipped (tag : String) (item : ι) (error : Error)
  deriving Repr

variable (note : Note ι ω → ε)

/-- Notes every answer of a reader. -/
def notedReader (tag : String) (reader : Reader σ ε ι) : Reader σ ε ι where
  next := do
    let answer ← reader.next
    Act.tell (note (.read tag answer))
    return answer

/-- Notes every item before it is processed. -/
def notedProcessor (tag : String) (processor : Processor σ ε ι ω) : Processor σ ε ι ω where
  process item := do
    Act.tell (note (.processed tag item))
    processor.process item

/-- Notes every question put to a policy. -/
def notedPolicy (policy : SkipPolicy σ ε) : SkipPolicy σ ε where
  shouldSkip error skipped := do
    Act.tell (note (.asked error.kind skipped))
    policy.shouldSkip error skipped

/-- Notes every call of a writer before it is made. -/
def notedWriter (tag : String) (writer : Writer σ ε ω) : Writer σ ε ω where
  openStore := do
    Act.tell (note (.called "open" tag))
    writer.openStore
  write items := do
    Act.tell (note (.wrote tag items))
    writer.write items
  flush := do
    Act.tell (note (.called "flush" tag))
    writer.flush
  closeStore := do
    Act.tell (note (.called "close" tag))
    writer.closeStore

def notedTransactions (tag : String) (transactions : TransactionManager σ ε) :
    TransactionManager σ ε where
  begin := do
    Act.tell (note (.called "begin" tag))
    transactions.begin
  commit := do
    Act.tell (note (.called "commit" tag))
    transactions.commit
  rollback := do
    Act.tell (note (.called "rollback" tag))
    transactions.rollback

def notingChunks (tag : String) : ChunkListener σ ε ω where
  beforeChunk := Act.tell (note (.beforeChunk tag))
  afterChunk items := Act.tell (note (.afterChunk tag items))
  afterChunkError error := Act.tell (note (.afterChunkError tag error))

def notingSkips (tag : String) : SkipListener σ ε ι where
  onSkip item error := Act.tell (note (.skipped tag item error))

end Batchwork.Rehearsal
