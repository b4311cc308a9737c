import Batchwork.Table.Rows

/-!
# Sessions

A session with a database of one table. It keeps what the table held when each open transaction
began; transactions inside a transaction are savepoints. The client counts how deep in transactions
it believes to be. Its count is too high once the database has rolled back all of them on its own,
and stays so, because every rollback that it tries then fails.
-/

namespace Batchwork.Table

/-- An open transaction or savepoint. -/
structure Savepoint where
  /-- The depth at which the client opened it. -/
  depth : Nat
  before : Rows
  deriving Repr, DecidableEq, Inhabited

def Savepoint.name (depth : Nat) : String := s!"_sqlx_savepoint_{depth}"

structure Session where
  schema : Schema
  rows : Rows := []
  /-- The innermost first. -/
  savepoints : List Savepoint := []
  depth : Nat := 0
  deriving Repr, DecidableEq, Inhabited

namespace Session

/-- Whether the database would now make what it holds permanent. -/
def settled (session : Session) : Bool := session.savepoints.isEmpty

/-- What the table held before the outermost open transaction. -/
def outermost (session : Session) : Rows :=
  match session.savepoints.getLast? with
  | some savepoint => savepoint.before
  | none => session.rows

def begin (session : Session) : Except Fault Session :=
  if session.depth = 0 ∧ !session.settled then .error .transactionActive
  else
    .ok { session with
          savepoints := ⟨session.depth, session.rows⟩ :: session.savepoints
          depth := session.depth + 1 }

/-- The savepoint of the innermost transaction that the client knows of, and what lies outside. -/
def current? (session : Session) : Option (Savepoint × List Savepoint) :=
  match session.savepoints.dropWhile (·.depth ≠ session.depth - 1) with
  | [] => none
  | savepoint :: outer => some (savepoint, outer)

/-- Ends the innermost transaction. The outermost one ends only if all references hold. -/
def commit (session : Session) : Except Fault Session :=
  if session.depth ≤ 1 then
    if session.settled then .error .cannotCommit
    else if !session.rows.referencesHold session.schema then .error .foreignKey
    else .ok { session with savepoints := [], depth := 0 }
  else
    match session.current? with
    | none => .error (.noSuchSavepoint (Savepoint.name (session.depth - 1)))
    | some (_, outer) =>
      if outer.isEmpty && !session.rows.referencesHold session.schema then .error .foreignKey
      else .ok { session with savepoints := outer, depth := session.depth - 1 }

/-- Takes back what the innermost transaction did. A savepoint stays open then. -/
def rollback (session : Session) : Except Fault Session :=
  if session.depth ≤ 1 then
    if session.settled then .error .cannotRollBack
    else .ok { session with rows := session.outermost, savepoints := [], depth := 0 }
  else
    match session.current? with
    | none => .error (.noSuchSavepoint (Savepoint.name (session.depth - 1)))
    | some (savepoint, outer) =>
      .ok { session with
            rows := savepoint.before
            savepoints := savepoint :: outer
            depth := session.depth - 1 }

/-- Takes back a transaction that nobody will end. That this may fail is of no account. -/
def abandon (session : Session) : Session :=
  match session.rollback with
  | .ok after => after
  | .error _ => session

/-- Undoes a refused statement. -/
def undo (session : Session) (resolution : Resolution) : Session :=
  match resolution with
  | .abort => session
  | .rollback => { session with rows := session.outermost, savepoints := [] }

def findTable (session : Session) (statement : Insert) : Except Fault Unit :=
  let known := sameName statement.table session.schema.name &&
    statement.database.all (sameName "main")
  if known then .ok ()
  else
    let database := (statement.database.map (· ++ ".")).getD ""
    .error (.noSuchTable (database ++ statement.table))

/-- Checks a statement for rows, and finds out where their values go. -/
def prepare (session : Session) (head : String) (rows : List (List Cell)) :
    Except Fault Binding := do
  let statement ← Insert.parse head (rows.map (·.length))
  session.findTable statement
  let binding ←
    Binding.addAll session.schema statement.table 0 (Binding.none session.schema)
      statement.columns
  let width := (rows.head?.map (·.length)).getD 0
  if width ≠ statement.columns.length then throw (.wrongCount width statement.columns.length)
  return binding

/-- Inserts rows by one statement, which succeeds as a whole or not at all. -/
def insert (session : Session) (head : String) (rows : List (List Cell)) :
    Except Fault Unit × Session :=
  match session.prepare head rows with
  | .error fault => (.error fault, session)
  | .ok binding =>
    match session.rows.insertAll session.schema binding rows with
    | .error refusal => (.error refusal.fault, session.undo refusal.resolution)
    | .ok inserted =>
      if session.settled && !inserted.referencesHold session.schema then
        (.error .foreignKey, session)
      else (.ok (), { session with rows := inserted })

end Session

end Batchwork.Table
