/-!
# Faults of a database

Why a database refuses a statement, or why a connection to it is not to be had.
-/

namespace Batchwork.Table

inductive Fault where
  | poolClosed
  | syntaxError (token : String)
  | unrecognizedToken (token : String)
  | incompleteInput
  | noSuchTable (name : String)
  | noSuchColumn (table column : String)
  | unevenRows
  | wrongCount (values columns : Nat)
  | datatypeMismatch
  | notNull (table column : String)
  | uniqueKey (table column : String)
  | unique (table column : String)
  | uniqueRow (table : String)
  | foreignKey
  | transactionActive
  | cannotCommit
  | cannotRollBack
  | noSuchSavepoint (name : String)
  deriving Repr, DecidableEq, Inhabited

namespace Fault

/-- The result code that goes with a fault. -/
def code : Fault → Nat
  | datatypeMismatch => 20
  | foreignKey => 787
  | notNull .. => 1299
  | uniqueKey .. => 1555
  | unique .. => 2067
  | uniqueRow _ => 2579
  | _ => 1

def reason : Fault → String
  | poolClosed => "attempted to acquire a connection on a closed pool"
  | syntaxError token => s!"near \"{token}\": syntax error"
  | unrecognizedToken token => s!"unrecognized token: \"{token}\""
  | incompleteInput => "incomplete input"
  | noSuchTable name => s!"no such table: {name}"
  | noSuchColumn table column => s!"table {table} has no column named {column}"
  | unevenRows => "all VALUES must have the same number of terms"
  | wrongCount values columns => s!"{values} values for {columns} columns"
  | datatypeMismatch => "datatype mismatch"
  | notNull table column => s!"NOT NULL constraint failed: {table}.{column}"
  | uniqueKey table column => s!"UNIQUE constraint failed: {table}.{column}"
  | unique table column => s!"UNIQUE constraint failed: {table}.{column}"
  | uniqueRow table => s!"UNIQUE constraint failed: {table}.rowid"
  | foreignKey => "FOREIGN KEY constraint failed"
  | transactionActive => "cannot start a transaction within a transaction"
  | cannotCommit => "cannot commit - no transaction is active"
  | cannotRollBack => "cannot rollback - no transaction is active"
  | noSuchSavepoint name => s!"no such savepoint: {name}"

def message : Fault → String
  | poolClosed => poolClosed.reason
  | fault => s!"error returned from database: (code: {fault.code}) {fault.reason}"

end Fault

end Batchwork.Table
