import Batchwork.Table.Cell

/-!
# Table schemas

The columns of a table and the constraints on them.
-/

namespace Batchwork.Table

/-- Which of the values of a column must differ. -/
inductive Uniqueness where
  | free
  | unique
  | primaryKey
  deriving Repr, DecidableEq, Inhabited

structure Column where
  name : String
  affinity : Affinity := .any
  notNull : Bool := false
  uniqueness : Uniqueness := .free
  /-- The column whose values this one may refer to. References are checked at the end of a
  transaction. -/
  references : Option String := none
  deriving Repr, DecidableEq, Inhabited

/-- What a failed statement undoes: itself, or the whole open transaction. -/
inductive Resolution where
  | abort
  | rollback
  deriving Repr, DecidableEq, Inhabited

structure Schema where
  name : String
  columns : List Column
  /-- The column that holds the key by which rows are ordered. -/
  rowKey : Option String := none
  /-- What happens when a row key is taken. -/
  onKeyConflict : Resolution := .abort
  deriving Repr, DecidableEq, Inhabited

/-- Names of tables and columns are compared without regard to the case of ASCII letters. -/
def sameName (a b : String) : Bool := a.map Char.toLower == b.map Char.toLower

namespace Schema

def columnIndex? (schema : Schema) (name : String) : Option Nat :=
  schema.columns.findIdx? fun column => sameName column.name name

/-- The names under which the key of a row goes in every table. -/
def rowKeyNames : List String := ["rowid", "oid", "_rowid_"]

def isRowKey (schema : Schema) (name : String) : Bool :=
  match schema.rowKey with
  | some key => sameName key name
  | none => false

end Schema

end Batchwork.Table
