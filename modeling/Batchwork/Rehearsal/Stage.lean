import Batchwork.Documents
import Batchwork.Http.Repository
import Batchwork.Json.ArrayReader
import Batchwork.Json.Printer
import Batchwork.LogWriter
import Batchwork.Memory
import Batchwork.Rehearsal.Script
import Batchwork.Table.Writer

/-!
# Stages

The state that the steps of a rehearsal share: sources to read from, stores to write to, and the
scripts of policies and of whole steps. A part that works on one of them is put to work on the
stage as a whole.
-/

namespace Batchwork.Rehearsal

open Json

/-- What the parts on a stage tell of. -/
inductive Told where
  | log (entry : ComponentLog)
  | note (note : Note Value Value)

inductive Source where
  | queue (queue : ItemQueue Value)
  | repository (fetched : Fetched (ScriptedRepository Value) Value)
  | array (reader : ArrayReader)
  | endpoint (endpoint : Http.Endpoint) (fetched : Fetched Unit Value)
  | script (lines : List (Result (Option Value)))
  /-- A source to which no reader could be built. -/
  | unbuilt (error : Error)

inductive Store where
  | items (store : ItemStore Value)
  | table (writer : TableWriter Table.Session)
  /-- A collection whose server keeps nothing on the stage. -/
  | documents (collection : Collection Unit Value)
  | log
  /-- Takes everything and keeps nothing. -/
  | void

structure Stage where
  sources : Array Source := #[]
  /-- The stores, each with the failures that wait for its calls. -/
  stores : Array (Faults × Store) := #[]
  policies : Array (List (Result Bool)) := #[]
  runs : Array (List (Option Error)) := #[]

namespace Stage

variable {τ : Type}

/-- A source that is known to be of one kind. -/
def source (index : Nat) (get : Source → Option τ) (blank : τ) (put : τ → Source) :
    Place Stage τ where
  get stage := ((stage.sources[index]?).bind get).getD blank
  put part stage := { stage with sources := stage.sources.setIfInBounds index (put part) }

/-- A store that is known to be of one kind, and its failures. -/
def store (index : Nat) (get : Store → Option τ) (blank : τ) (put : τ → Store) :
    Place Stage (Faults × τ) where
  get stage :=
    let (faults, store) := (stage.stores[index]?).getD ({}, .void)
    (faults, (get store).getD blank)
  put part stage :=
    { stage with stores := stage.stores.setIfInBounds index (part.1, put part.2) }

def policy (index : Nat) : Place Stage (List (Result Bool)) where
  get stage := (stage.policies[index]?).getD []
  put lines stage := { stage with policies := stage.policies.setIfInBounds index lines }

def run (index : Nat) : Place Stage (List (Option Error)) where
  get stage := (stage.runs[index]?).getD []
  put lines stage := { stage with runs := stage.runs.setIfInBounds index lines }

/-- Why the whole program was stopped, if one of the stores has stopped it. -/
def stopped? (stage : Stage) : Option String :=
  stage.stores.toList.findSome? fun
    | (_, .table writer) => writer.stopped
    | _ => none

end Stage

/-- The reader over a source that is put on a stage, unless none could be built. -/
def Source.reader? (server : Http.Server Unit) (index : Nat) :
    Source → Option (Reader Stage Told Value)
  | queue start =>
    let get := fun | .queue items => some items | _ => none
    some ((ItemQueue.asReader Value ComponentLog).within (Stage.source index get start .queue) .log)
  | repository start =>
    let get := fun | .repository fetched => some fetched | _ => none
    let reader := Fetched.asReader (ScriptedRepository.asRepository ComponentLog Value) id
    some (reader.within (Stage.source index get start .repository) .log)
  | array start =>
    let get := fun | .array reader => some reader | _ => none
    some ((ArrayReader.asReader document).within (Stage.source index get start .array) .log)
  | endpoint address start =>
    let get := fun | .endpoint _ fetched => some fetched | _ => none
    let reader := Fetched.asReader (address.asRepository server document) id
    some (reader.within (Stage.source index get start (.endpoint address)) .log)
  | script start =>
    let get := fun | .script lines => some lines | _ => none
    some ((scriptedReader Told Value).within (Stage.source index get start .script) id)
  | unbuilt _ => none

/-- A bound on the number of items that a source has yet to hand out. -/
def Source.supply : Source → Nat
  | queue left => left.items.length
  | repository fetched =>
    match fetched.pending with
    | some items => items.length
    | none => fetched.repository.items.length
  | array reader => reader.input.remaining.length
  | endpoint _ fetched => (fetched.pending.getD []).length
  | script lines => lines.length
  | unbuilt _ => 0

instance : Inspect Value := ⟨Value.inspect⟩

/-- What can be done with a store: items are written to it, and it manages the transactions of a
step. -/
structure Sink where
  writer : Writer Stage Told Value
  transactions : TransactionManager Stage Told

/-- A store that is put on a stage. Its failures come before anything it does. -/
def Sink.over {τ : Type} (place : Place Stage (Faults × τ)) (writer : Writer τ ComponentLog Value)
    (transactions : TransactionManager τ ComponentLog) : Sink where
  writer := (faultyWriter writer).within place .log
  transactions := (faultyTransactions transactions).within place .log

def Sink.noted (tag : String) (sink : Sink) : Sink where
  writer := notedWriter .note tag sink.writer
  transactions := notedTransactions .note tag sink.transactions

/-- The values of an item that is a row. -/
def rowOf : Value → List Table.Cell
  | .array values => values.map fun
    | .bool b => .int (if b then 1 else 0)
    | .number (.int n) => .int n
    | .string s => .text s
    | _ => .null
  | _ => []

/-- The sink into a store that is put on a stage. -/
def Store.sink (index : Nat) : Store → Sink
  | items start =>
    let get := fun | .items store => some store | _ => none
    .over (Stage.store index get start .items) ItemStore.asWriter ItemStore.asTransactions
  | table start =>
    let get := fun | .table writer => some writer | _ => none
    let database := Table.Session.database
    .over (Stage.store index get start .table) (TableWriter.asWriter database rowOf)
      (TableWriter.asTransactions database)
  | documents collection =>
    .over (Stage.store index (fun _ => some ()) () fun () => .documents collection)
      collection.asWriter (.resourceless _ _)
  | log =>
    .over (Stage.store index (fun _ => some ()) () fun () => .log) (LogWriter.asWriter Unit Value)
      (.resourceless _ _)
  | void =>
    .over (Stage.store index (fun _ => some ()) () fun () => .void)
      { write := fun _ => pure (.ok ()) } (.resourceless _ _)

end Batchwork.Rehearsal
