import Batchwork.Table.Cell
import Std.Data.HashSet.Lemmas

/-!
# Indexes

What must be known about the rows of a table before another row may join them. An index answers
questions about rows without a walk through all of them; `Index.hasKey_ofRows`,
`Index.hasValue_ofRows` and `Index.maxKey?_ofRows` say that it answers as such a walk would.
-/

namespace Batchwork.Table

structure Row where
  key : Int
  cells : List Cell
  deriving Repr, DecidableEq, Inhabited

/-- The rows of a table, the last inserted first. -/
abbrev Rows : Type := List Row

/-- The rows in the order of their keys. -/
def Rows.inKeyOrder (rows : Rows) : List Row :=
  rows.reverse.mergeSort fun a b => a.key ≤ b.key

structure Index where
  keys : Std.HashSet Int := ∅
  maxKey? : Option Int := none
  /-- The values of each column, numbered from zero. -/
  values : Std.HashSet (Nat × Cell) := ∅

namespace Index

def hasKey (index : Index) (key : Int) : Bool := index.keys.contains key

def hasValue (index : Index) (column : Nat) (cell : Cell) : Bool :=
  index.values.contains (column, cell)

/-- The larger of a key and the largest key so far. -/
def maxKey (key : Int) : Option Int → Int
  | none => key
  | some largest => max key largest

/-- Adds the values of a row from the column numbered `column` on. -/
def addValues : (column : Nat) → List Cell → Std.HashSet (Nat × Cell) → Std.HashSet (Nat × Cell)
  | _, [], values => values
  | column, cell :: rest, values => addValues (column + 1) rest (values.insert (column, cell))

def add (index : Index) (row : Row) : Index where
  keys := index.keys.insert row.key
  maxKey? := some (maxKey row.key index.maxKey?)
  values := addValues 0 row.cells index.values

def ofRows (rows : Rows) : Index := rows.foldr (fun row index => index.add row) {}

theorem add_ofRows (rows : Rows) (row : Row) :
    (ofRows rows).add row = ofRows (row :: rows) := rfl

/-- The first of the keys from `key` on that is free. -/
def freeKey (index : Index) : (fuel : Nat) → (key : Int) → Int
  | 0, key => key
  | fuel + 1, key => if index.hasKey key then freeKey index fuel (key + 1) else key

/-- The key of a row that is given none: the one behind the largest. -/
def nextKey (index : Index) : Int :=
  match index.maxKey? with
  | none => 1
  | some key => if key < maxInt then key + 1 else index.freeKey (index.keys.size + 1) 1

theorem contains_addValues_of_lt {start column : Nat} (less : column < start) (cells : List Cell)
    (cell : Cell) (values : Std.HashSet (Nat × Cell)) :
    (addValues start cells values).contains (column, cell) = values.contains (column, cell) := by
  induction cells generalizing start values with
  | nil => rfl
  | cons first rest ih =>
    have apart : ((start, first) == (column, cell)) = false :=
      beq_false_of_ne (by simp; omega)
    rw [addValues, ih (by omega), Std.HashSet.contains_insert, apart, Bool.false_or]

theorem contains_addValues (start column : Nat) (cells : List Cell) (cell : Cell)
    (values : Std.HashSet (Nat × Cell)) :
    (addValues start cells values).contains (start + column, cell) =
      (decide (cells[column]? = some cell) || values.contains (start + column, cell)) := by
  induction cells generalizing start column values with
  | nil => simp [addValues]
  | cons first rest ih =>
    rw [addValues]
    cases column with
    | zero =>
      rw [contains_addValues_of_lt (by omega), Std.HashSet.contains_insert]
      by_cases same : first = cell <;> simp [same]
    | succ column =>
      have apart : ((start, first) == (start + (column + 1), cell)) = false :=
        beq_false_of_ne (by simp)
      have shift : start + (column + 1) = start + 1 + column := by omega
      rw [shift] at apart ⊢
      rw [ih, Std.HashSet.contains_insert, apart, Bool.false_or, List.getElem?_cons_succ]

@[simp] theorem hasKey_ofRows (rows : Rows) (key : Int) :
    (ofRows rows).hasKey key = rows.any (·.key == key) := by
  induction rows with
  | nil => simp [ofRows, hasKey]
  | cons row rest ih =>
    have step : (ofRows (row :: rest)).hasKey key =
        (row.key == key || (ofRows rest).hasKey key) := by
      simp [ofRows, hasKey, add, Std.HashSet.contains_insert]
    simp [step, ih]

@[simp] theorem hasValue_ofRows (rows : Rows) (column : Nat) (cell : Cell) :
    (ofRows rows).hasValue column cell =
      rows.any fun row => decide (row.cells[column]? = some cell) := by
  induction rows with
  | nil => simp [ofRows, hasValue]
  | cons row rest ih =>
    have step : (ofRows (row :: rest)).hasValue column cell =
        (decide (row.cells[column]? = some cell) || (ofRows rest).hasValue column cell) := by
      simpa [ofRows, hasValue, add] using contains_addValues 0 column row.cells cell _
    simp [step, ih]

theorem maxKey?_ofRows (rows : Rows) : (ofRows rows).maxKey? = (rows.map (·.key)).max? := by
  induction rows with
  | nil => rfl
  | cons row rest ih =>
    have step : (ofRows (row :: rest)).maxKey? = some (maxKey row.key (ofRows rest).maxKey?) := rfl
    rw [step, ih, List.map_cons, List.max?_cons]
    cases (rest.map (·.key)).max? <;> simp [maxKey, Option.elim]

end Index

end Batchwork.Table
