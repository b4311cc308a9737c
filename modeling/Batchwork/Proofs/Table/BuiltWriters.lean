import Batchwork.Proofs.Table.Statements
import Batchwork.Rehearsal.Samples

/-!
# Writers that were built

A builder accepts a writer with any number of columns but none. If there are more columns than a
statement may have values, no row fits into a statement, and every write of that writer stops the
program; no write of any other does. Main statement: `write_of_built`.
-/

namespace Batchwork

open Table

namespace TableWriterBuilder

/-- What a builder may be called for. -/
inductive Call where
  | withPool
  | withTable (table : String)
  | addColumn (column : String)
  | withBinder

namespace Call

def make : Call → TableWriterBuilder → TableWriterBuilder
  | .withPool, builder => builder.withPool
  | .withTable table, builder => builder.withTable table
  | .addColumn column, builder => builder.addColumn column
  | .withBinder, builder => builder.withBinder

/-- The column that a call adds. -/
def column? : Call → Option String
  | .addColumn column => some column
  | .withPool | .withTable _ | .withBinder => none

end Call

/-- What a new builder has collected after some calls. -/
def collected (calls : List Call) : TableWriterBuilder :=
  calls.foldl (fun builder call => call.make builder) {}

/-- Columns are collected in the order of the calls that add them, with nothing lost on the way. -/
theorem columns_collected (calls : List Call) :
    (collected calls).columns = calls.filterMap Call.column? := by
  -- The calls begin with an empty builder, the induction with any.
  have step : ∀ (call : Call) (builder : TableWriterBuilder),
      (call.make builder).columns = builder.columns ++ call.column?.toList := by
    intro call builder
    cases call with
    | addColumn column => rfl
    | withPool | withTable | withBinder => exact (List.append_nil _).symm
  have run : ∀ builder : TableWriterBuilder,
      (calls.foldl (fun builder call => call.make builder) builder).columns =
        builder.columns ++ calls.filterMap Call.column? := by
    induction calls with
    | nil => exact fun builder => (List.append_nil _).symm
    | cons call rest ih =>
      intro builder
      rw [List.foldl_cons, ih, step, List.append_assoc]
      cases call with
      | addColumn column => rfl
      | withPool | withTable | withBinder => rfl
  exact run {}

/-- A builder refuses for what is missing only. -/
theorem build_eq_ok {builder : TableWriterBuilder} {session : Session}
    {writer : TableWriter Session} :
    builder.build session = .ok writer ↔
      ∃ table, builder.hasPool = true ∧ builder.table = some table ∧ builder.hasBinder = true ∧
        builder.columns ≠ [] ∧ writer = { session, table, columns := builder.columns } := by
  obtain ⟨hasPool, table, columns, hasBinder⟩ := builder
  cases hasPool <;> cases table <;> cases hasBinder <;> cases columns <;> simp [build, eq_comm]

end TableWriterBuilder

namespace TableWriter

variable {δ ω : Type}

/-- A write stops the program if no row fits into a statement, and otherwise only if that has
happened before. -/
theorem stopped_write (database : Database δ) (bind : ω → List Cell) (items : List ω)
    (writer : TableWriter δ) :
    ((asWriter database bind).write items writer).state.stopped =
      if writer.rowsPerStatement = 0 then some emptySlices else writer.stopped := by
  by_cases wide : writer.rowsPerStatement = 0
  · rw [if_pos wide]
    simp [asWriter, write, Act.read, Act.modify, batches?, wide]
  · rw [if_neg wide]
    obtain ⟨executed, executes, -⟩ := exists_executes_write database bind items wide
    rw [executes.after_eq]
    rfl

/-- A writer that was built has the columns that were added, of which there is at least one, and no
upper limit. A row fits into a statement as long as there are no more columns than values in a
statement, and if none fits every write stops the program, also one of no items. -/
theorem write_of_built (calls : List TableWriterBuilder.Call) (session : Session)
    (writer : TableWriter Session)
    (built : (TableWriterBuilder.collected calls).build session = .ok writer)
    (database : Database Session) (bind : ω → List Cell) (items : List ω) :
    let run := (asWriter database bind).write items writer
    writer.columns = calls.filterMap TableWriterBuilder.Call.column? ∧
      0 < writer.columns.length ∧
      (1 ≤ writer.rowsPerStatement ↔ writer.columns.length ≤ bindLimit) ∧
      run.state.stopped =
        if writer.columns.length ≤ bindLimit then none else some emptySlices := by
  intro run
  obtain ⟨table, -, -, -, nonempty, rfl⟩ := TableWriterBuilder.build_eq_ok.mp built
  have positive := List.length_pos_iff.mpr nonempty
  have fits : 1 ≤ bindLimit / (TableWriterBuilder.collected calls).columns.length ↔
      (TableWriterBuilder.collected calls).columns.length ≤ bindLimit := by
    rw [Nat.le_div_iff_mul_le positive, Nat.one_mul]
  refine ⟨TableWriterBuilder.columns_collected calls, positive, fits, ?_⟩
  rw [stopped_write]
  by_cases narrow : (TableWriterBuilder.collected calls).columns.length ≤ bindLimit
  · rw [if_pos narrow, if_neg]
    exact Nat.ne_of_gt (fits.mpr narrow)
  · rw [if_neg narrow, if_pos]
    exact Nat.eq_zero_of_not_pos fun room => narrow (fits.mp room)

/-- The writer of notes can be built, and writes. -/
theorem write_of_built_notes :
    let calls : List TableWriterBuilder.Call :=
      [.withTable "notes", .addColumn "note", .withPool, .addColumn "id", .withBinder]
    let bind (note : String × Int) : List Cell := [.text note.1, .int note.2]
    (TableWriterBuilder.collected calls).build { schema := notes } = .ok notesWriter ∧
      1 ≤ notesWriter.rowsPerStatement ∧
      ((asWriter Session.database bind).write [("a", 1)] notesWriter).state.stopped = none := by
  intro calls bind
  have built : (TableWriterBuilder.collected calls).build { schema := notes } =
    .ok notesWriter := rfl
  obtain ⟨columns, -, fits, stopped⟩ :=
    write_of_built calls { schema := notes } notesWriter built Session.database bind [("a", 1)]
  have narrow : notesWriter.columns.length ≤ bindLimit := by decide
  rw [if_pos narrow] at stopped
  exact ⟨built, fits.mpr narrow, stopped⟩

/-- A builder takes one column as often as it is given. -/
theorem collect_column (column : String) (count : Nat) (builder : TableWriterBuilder) :
    (List.replicate count (TableWriterBuilder.Call.addColumn column)).foldl
        (fun builder call => call.make builder) builder =
      { builder with columns := builder.columns ++ List.replicate count column } := by
  induction count generalizing builder with
  | zero => simp
  | succ count ih =>
    rw [List.replicate_succ, List.foldl_cons, ih]
    simp [TableWriterBuilder.Call.make, TableWriterBuilder.addColumn, List.replicate_succ]

/-- With one column more than a statement may have values a writer is built all the same, and a
write of nothing stops the program. -/
theorem wide_write_stops :
    let calls : List TableWriterBuilder.Call :=
      [.withPool, .withTable "loose", .withBinder] ++ List.replicate 32767 (.addColumn "a")
    ∃ writer,
      (TableWriterBuilder.collected calls).build { schema := Rehearsal.loose } = .ok writer ∧
      writer.rowsPerStatement = 0 ∧
      ((asWriter Session.database id).write [] writer).state.stopped =
        some "chunk size must be non-zero" := by
  intro calls
  let columns := List.replicate 32767 "a"
  let writer : TableWriter Session :=
    { session := { schema := Rehearsal.loose }, table := "loose", columns }
  have collected : TableWriterBuilder.collected calls =
      { hasPool := true, table := "loose", columns, hasBinder := true } := by
    rw [TableWriterBuilder.collected, List.foldl_append, collect_column]
    rfl
  have length : columns.length = 32767 := List.length_replicate
  have nonempty : columns ≠ [] := List.ne_nil_of_length_pos (by rw [length]; decide)
  have wide : writer.rowsPerStatement = 0 := by
    rw [rowsPerStatement, length]
    decide
  refine ⟨writer, ?_, wide, ?_⟩
  · rw [collected, TableWriterBuilder.build_eq_ok]
    exact ⟨"loose", rfl, rfl, rfl, nonempty, rfl⟩
  · rw [stopped_write, if_pos wide]
    rfl

end TableWriter

end Batchwork
