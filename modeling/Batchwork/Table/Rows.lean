import Batchwork.Table.Index
import Batchwork.Table.Schema
import Batchwork.Table.Statement

/-!
# Rows

Inserting rows under the constraints of a schema.
-/

namespace Batchwork.Table

/-- Where the values of a row of an insert statement go. -/
structure Binding where
  /-- For each column of the table, the place of its value in the row, if it has one. -/
  places : List (Option Nat)
  /-- The place of the key. -/
  keyPlace : Option Nat
  deriving Repr, DecidableEq, Inhabited

namespace Binding

def none (schema : Schema) : Binding := ⟨schema.columns.map fun _ => Option.none, Option.none⟩

/-- Names one more column. A column named twice gets the first of its values. -/
def add (schema : Schema) (table : String) (binding : Binding) (place : Nat) (name : String) :
    Except Fault Binding :=
  match schema.columnIndex? name with
  | some index =>
    let places := binding.places.modify index (·.or (some place))
    let keyPlace := if schema.isRowKey name then some place else binding.keyPlace
    .ok { places, keyPlace }
  | Option.none =>
    if Schema.rowKeyNames.any (sameName name) then .ok { binding with keyPlace := some place }
    else .error (.noSuchColumn table name)

def addAll (schema : Schema) (table : String) :
    (place : Nat) → Binding → List String → Except Fault Binding
  | _, binding, [] => .ok binding
  | place, binding, name :: rest => do
    addAll schema table (place + 1) (← add schema table binding place name) rest

end Binding

/-- A row that was refused, and what is undone because of it. -/
structure Refusal where
  fault : Fault
  resolution : Resolution := .abort
  deriving Repr, DecidableEq, Inhabited

namespace Rows

/-- The key that a row asks for. -/
def keyOf (index : Index) (binding : Binding) (values : List Cell) : Except Refusal Int :=
  match binding.keyPlace.map fun place => Affinity.integer.apply (values.getD place .null) with
  | none | some .null => .ok index.nextKey
  | some (.int key) => .ok key
  | some (.text _) => .error ⟨.datatypeMismatch, .abort⟩

/-- The cell of a column. -/
def cellOf (schema : Schema) (key : Int) (values : List Cell) (column : Column)
    (place : Option Nat) : Cell :=
  if schema.rowKey = some column.name then .int key
  else
    match place with
    | some place => column.affinity.apply (values.getD place .null)
    | none => .null

def checkNotNull (schema : Schema) (cells : List Cell) : Except Refusal Unit :=
  match (schema.columns.zip cells).find? fun (column, cell) => column.notNull && cell = .null with
  | some (column, _) => .error ⟨.notNull schema.name column.name, .abort⟩
  | none => .ok ()

def checkKey (schema : Schema) (index : Index) (key : Int) : Except Refusal Unit :=
  if index.hasKey key then
    match schema.rowKey with
    | some column => .error ⟨.uniqueKey schema.name column, schema.onKeyConflict⟩
    | none => .error ⟨.uniqueRow schema.name, .abort⟩
  else .ok ()

/-- Checks the columns from the one numbered `number` on. Missing values are all different. -/
def checkUnique (schema : Schema) (index : Index) :
    (number : Nat) → List Column → List Cell → Except Refusal Unit
  | number, column :: columns, cell :: cells =>
    if cell ≠ .null ∧ column.uniqueness ≠ .free ∧ index.hasValue number cell then
      match column.uniqueness with
      | .primaryKey => .error ⟨.uniqueKey schema.name column.name, .abort⟩
      | _ => .error ⟨.unique schema.name column.name, .abort⟩
    else checkUnique schema index (number + 1) columns cells
  | _, _, _ => .ok ()

/-- The row that is to join the indexed ones. -/
def newRow (schema : Schema) (binding : Binding) (index : Index) (values : List Cell) :
    Except Refusal Row := do
  let key ← keyOf index binding values
  let cells := (schema.columns.zip binding.places).map fun (column, place) =>
    cellOf schema key values column place
  checkNotNull schema cells
  checkKey schema index key
  checkUnique schema index 0 schema.columns cells
  return ⟨key, cells⟩

/-- Adds row after row, keeping the index of the rows so far. -/
def insertIndexed (schema : Schema) (binding : Binding) :
    Index → Rows → List (List Cell) → Except Refusal Rows
  | _, rows, [] => .ok rows
  | index, rows, values :: rest => do
    let row ← newRow schema binding index values
    insertIndexed schema binding (index.add row) (row :: rows) rest

def insertAll (schema : Schema) (binding : Binding) (rows : Rows) (values : List (List Cell)) :
    Except Refusal Rows :=
  insertIndexed schema binding (Index.ofRows rows) rows values

/-- Whether every reference of a row leads to a row. -/
def referencesHold (schema : Schema) (rows : Rows) : Bool :=
  let index := Index.ofRows rows
  schema.columns.zipIdx.all fun (column, number) =>
    match column.references.bind schema.columnIndex? with
    | none => true
    | some target => rows.all fun row =>
      match row.cells[number]? with
      | none | some .null => true
      | some cell => index.hasValue target cell

end Rows

end Batchwork.Table
