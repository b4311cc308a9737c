import Batchwork.Table.Database
import Batchwork.Component
import Batchwork.Log

/-!
# Writing items to a table

A writer that inserts its items as rows, and is a transaction manager as well: its writes belong to
the transaction it has begun, if it has. The rows of a write go into as few statements as the number
of values that a statement may have allows.
-/

namespace Batchwork

/-- A writer over a session with a database, and its place in it. -/
structure TableWriter (δ : Type) where
  session : δ
  table : String
  columns : List String
  inTransaction : Bool := false
  /-- Whether the way to the database has been closed. -/
  closed : Bool := false
  /-- Why a write has stopped the whole program, if one has. Nothing that comes later counts. -/
  stopped : Option String := none
  deriving Repr, DecidableEq, Inhabited

namespace TableWriter

open Table

variable {δ : Type}

/-- The number of values that one statement may have. -/
def bindLimit : Nat := 32766

/-- The number of rows that go into one statement. -/
def rowsPerStatement (writer : TableWriter δ) : Nat := bindLimit / writer.columns.length

/-- Cuts a list into slices of `size` elements, the last of which may be shorter. There are no
slices of size zero. -/
def slices {α : Type} (size : Nat) : (fuel : Nat) → List α → List (List α)
  | 0, _ => []
  | _, [] => []
  | fuel + 1, items => items.take size :: slices size fuel (items.drop size)

/-- The slices of a write, or nothing if a row has more values than a statement may have. -/
def batches? {α : Type} (writer : TableWriter δ) (items : List α) : Option (List (List α)) :=
  if writer.rowsPerStatement = 0 then none
  else some (slices writer.rowsPerStatement items.length items)

def head (writer : TableWriter δ) : String := Insert.head writer.table writer.columns

variable (database : Database δ)

def insert (rows : List (List Cell)) : Act (TableWriter δ) ComponentLog (Except Fault Unit) :=
  fun writer =>
    if writer.closed && !writer.inTransaction then ⟨.error .poolClosed, [], writer⟩
    else
      let (answer, session) := database.insert writer.head rows writer.session
      ⟨answer, [], { writer with session }⟩

/-- Inserts slice after slice up to the first that is refused. -/
def insertAll : List (List (List Cell)) → Act (TableWriter δ) ComponentLog (Result Unit)
  | [] => pure (.ok ())
  | rows :: rest => do
    let writer ← Act.read
    match ← insert database rows with
    | .ok () =>
      Act.tell (.inserted rows.length writer.table)
      insertAll rest
    | .error fault =>
      Act.tell (.insertFailed writer.table fault.message)
      return .error (.itemWriter s!"SQLite write failed: {fault.message}")

/-- What is said when a list is to be cut into slices of size zero. -/
def emptySlices : String := "chunk size must be non-zero"

/-- Writes rows of values. If a row has more values than a statement may have, a write stops the
program, also one of no rows: there are no slices to cut the rows into. -/
def write (rows : List (List Cell)) : Act (TableWriter δ) ComponentLog (Result Unit) := do
  match (← Act.read).batches? rows with
  | some batches => insertAll database batches
  | none =>
    Act.modify fun writer => { writer with stopped := some emptySlices }
    return .error (.itemWriter emptySlices)

def begin : Act (TableWriter δ) ComponentLog (Result Unit) := fun writer =>
  let failed (fault : Fault) : Result Unit :=
    .error (.transaction s!"unable to begin: {fault.message}")
  if writer.inTransaction then
    ⟨.error (.transaction "a transaction is already active"), [], writer⟩
  else if writer.closed then ⟨failed .poolClosed, [], writer⟩
  else
    match database.begin writer.session with
    | (.ok (), session) => ⟨.ok (), [], { writer with session, inTransaction := true }⟩
    | (.error fault, session) => ⟨failed fault, [], { writer with session }⟩

/-- A transaction that cannot be committed is abandoned. -/
def commit : Act (TableWriter δ) ComponentLog (Result Unit) := fun writer =>
  if !writer.inTransaction then ⟨.error (.transaction "no active transaction"), [], writer⟩
  else
    match database.commit writer.session with
    | (.ok (), session) => ⟨.ok (), [], { writer with session, inTransaction := false }⟩
    | (.error fault, session) =>
      ⟨.error (.transaction s!"unable to commit: {fault.message}"), [],
        { writer with session := database.abandon session, inTransaction := false }⟩

def rollback : Act (TableWriter δ) ComponentLog (Result Unit) := fun writer =>
  if !writer.inTransaction then ⟨.ok (), [], writer⟩
  else
    match database.rollback writer.session with
    | (.ok (), session) => ⟨.ok (), [], { writer with session, inTransaction := false }⟩
    | (.error fault, session) =>
      ⟨.error (.transaction s!"unable to roll back: {fault.message}"), [],
        { writer with session := database.abandon session, inTransaction := false }⟩

/-- A writer for items that `bind` turns into rows. -/
def asWriter {α : Type} (bind : α → List Cell) : Writer (TableWriter δ) ComponentLog α where
  write items := write database (items.map bind)

def asTransactions : TransactionManager (TableWriter δ) ComponentLog where
  begin := begin database
  commit := commit database
  rollback := rollback database

/-- The rows of the table in the order of their keys. -/
def rows (writer : TableWriter Session) : List Row := writer.session.rows.inKeyOrder

end TableWriter

/-- Collects what a table writer needs. -/
structure TableWriterBuilder where
  hasPool : Bool := false
  table : Option String := none
  columns : List String := []
  hasBinder : Bool := false
  deriving Repr, DecidableEq, Inhabited

namespace TableWriterBuilder

def withPool (builder : TableWriterBuilder) : TableWriterBuilder :=
  { builder with hasPool := true }

def withTable (builder : TableWriterBuilder) (table : String) : TableWriterBuilder :=
  { builder with table := some table }

def addColumn (builder : TableWriterBuilder) (column : String) : TableWriterBuilder :=
  { builder with columns := builder.columns ++ [column] }

def withBinder (builder : TableWriterBuilder) : TableWriterBuilder :=
  { builder with hasBinder := true }

/-- A writer over a session. The first part that is missing is reported. -/
def build (builder : TableWriterBuilder) (session : Table.Session) :
    Result (TableWriter Table.Session) :=
  if !builder.hasPool then .error (.configuration "a pool is required")
  else
    match builder.table with
    | none => .error (.configuration "a table is required")
    | some table =>
      if !builder.hasBinder then .error (.configuration "an item binder is required")
      else if builder.columns.isEmpty then
        .error (.configuration "at least one column is required")
      else .ok { session, table, columns := builder.columns }

end TableWriterBuilder

end Batchwork
