import Batchwork.Memory
import Batchwork.Processor
import Batchwork.Proofs.Step.Conservation
import Batchwork.Proofs.Step.Custody
import Batchwork.Proofs.Table.LawfulDatabase
import Batchwork.Proofs.Table.Slices
import Batchwork.Skip
import Batchwork.Table.Writer

/-!
# Chunk atomicity of a table

A step that writes to a table, and has the same writer manage its transactions, leaves in the table
the rows from before and one row for each item of the committed chunks. The writer forgets its
transaction before it ends it, is told to roll back what it no longer has when a commit failed, and
may have lost it to the database already: in each case what is left belongs to no chunk. Main
statement: `execute_rows`.
-/

namespace Batchwork

open Table

variable {σ δ ρ ε ι ω : Type}

namespace TableWriter

variable {database : Database δ} {view : Database.View δ ρ} {before start : Multiset ρ}
  {head : String} {writer after : TableWriter δ} {answer : Result Unit}
  {told : List ComponentLog}

/-- A writer in a transaction that began when the table held these rows. -/
structure Holds (view : Database.View δ ρ) (start : Multiset ρ) (head : String)
    (writer : TableWriter δ) : Prop where
  head : writer.head = head
  inTransaction : writer.inTransaction = true
  within : view.within start writer.session

theorem insert_eq (inTransaction : writer.inTransaction = true) (rows : List (List Cell)) :
    insert database rows writer =
      let (answer, session) := database.insert writer.head rows writer.session
      ⟨answer, [], { writer with session }⟩ := by
  simp [insert, inTransaction]

/-- A write ends with the first slice that is refused. -/
theorem insertAll_refused {rows : List (List Cell)} {fault : Fault}
    (refused : (insert database rows writer).value = .error fault)
    (rest : List (List (List Cell))) :
    (insertAll database (rows :: rest) writer).value =
      .error (.itemWriter s!"SQLite write failed: {fault.message}") := by
  simp only [insertAll, Act.bind_run, Act.read, refused]
  rfl

theorem write_of_batches {rows : List (List Cell)} {batches : List (List (List Cell))}
    (cut : writer.batches? rows = some batches) :
    write database rows writer = insertAll database batches writer := by
  simp only [write, Act.bind_run, Act.read, cut, List.nil_append]

/-- A statement in a transaction adds a row for each of its values. One that is refused leaves a
transaction that can be taken back. -/
theorem Holds.insert {rows : List (List Cell)} {answer : Except Fault Unit}
    (holds : Holds view start head writer) (lawful : database.Lawful view)
    (active : view.active writer.session)
    (call : TableWriter.insert database rows writer = ⟨answer, told, after⟩) :
    Holds view start head after ∧ (answer = .ok () → view.active after.session ∧
      view.Gains head rows (view.rows writer.session) (view.rows after.session)) := by
  rcases made : database.insert writer.head rows writer.session with ⟨verdict, session⟩
  rw [insert_eq holds.inTransaction, made] at call
  cases call
  rcases answer with fault | ⟨⟩
  · exact ⟨⟨holds.head, holds.inTransaction, lawful.refused holds.within active made⟩, nofun⟩
  · obtain ⟨within, active, gains⟩ := lawful.inserted holds.within active made
    rw [holds.head] at gains
    exact ⟨⟨holds.head, holds.inTransaction, within⟩, fun _ => ⟨active, gains⟩⟩

/-- Slices are inserted up to the first that is refused, all in the one transaction. -/
theorem Holds.insertAll {batches : List (List (List Cell))} (holds : Holds view start head writer)
    (lawful : database.Lawful view) (active : view.active writer.session)
    (call : TableWriter.insertAll database batches writer = ⟨answer, told, after⟩) :
    Holds view start head after ∧ (answer = .ok () → view.active after.session ∧
      view.Gains head batches.flatten (view.rows writer.session) (view.rows after.session)) := by
  induction batches generalizing writer told with
  | nil =>
    cases call
    exact ⟨holds, fun _ => ⟨active, .refl _⟩⟩
  | cons rows rest ih =>
    rcases inserted : TableWriter.insert database rows writer with ⟨fault | ⟨⟩, events, middle⟩
    · obtain ⟨kept, -⟩ := holds.insert lawful active inserted
      simp only [TableWriter.insertAll, Act.bind_run, Act.read, inserted, Act.tell, Act.pure_run]
        at call
      cases call
      exact ⟨kept, fun accepted => by cases accepted⟩
    · obtain ⟨kept, gained⟩ := holds.insert lawful active inserted
      obtain ⟨active, gains⟩ := gained rfl
      simp only [TableWriter.insertAll, Act.bind_run, Act.read, inserted, Act.tell] at call
      obtain ⟨value, events, state⟩ := Outcome.mk.inj call
      obtain ⟨last, more⟩ := ih kept active (by rw [← value, ← state])
      refine ⟨last, fun accepted => ?_⟩
      obtain ⟨active, others⟩ := more accepted
      exact ⟨active, gains.trans others⟩

/-- A write in a transaction: all of its rows are there if it succeeds. -/
theorem Holds.write {rows : List (List Cell)} (holds : Holds view start head writer)
    (lawful : database.Lawful view) (active : view.active writer.session)
    (call : TableWriter.write database rows writer = ⟨answer, told, after⟩) :
    Holds view start head after ∧ (answer = .ok () → view.active after.session ∧
      view.Gains head rows (view.rows writer.session) (view.rows after.session)) := by
  -- A row with more columns than a statement has variables stops the program before the database is
  -- asked.
  by_cases wide : writer.rowsPerStatement = 0
  · simp only [TableWriter.write, Act.bind_run, Act.read, batches?, wide, ↓reduceIte, Act.modify,
      Act.pure_run] at call
    cases call
    exact ⟨⟨holds.head, holds.inTransaction, holds.within⟩, nofun⟩
  · rw [write_of_batches (if_neg wide)] at call
    have gained := holds.insertAll lawful active call
    rwa [(slices_cut (Nat.pos_of_ne_zero wide) (Nat.le_refl _)).whole] at gained

/-- How a writer stands in a table that began with the rows `before`. -/
def stand (view : Database.View δ ρ) (bind : ω → List Cell) (head : String)
    (before : Multiset ρ) : Stand (TableWriter δ) ω where
  settled items writer := writer.head = head ∧ writer.inTransaction = false ∧
    view.idle writer.session ∧ view.Gains head (items.map bind) before (view.rows writer.session)
  staging items pending writer := view.active writer.session ∧
    ∃ start, Holds view start head writer ∧ view.Gains head (items.map bind) before start ∧
      view.Gains head (pending.map bind) start (view.rows writer.session)
  spoiled items writer := ∃ start, view.Gains head (items.map bind) before start ∧
    (Holds view start head writer ∨
      writer.inTransaction = false ∧ view.rows writer.session = start)
  ended items writer := writer.inTransaction = false ∧
    view.Gains head (items.map bind) before (view.rows writer.session)

variable {bind : ω → List Cell} {items pending : List ω}

/-- A writer that is in no transaction, on a session that is in none, has kept nothing yet. -/
theorem stand_settled (bind : ω → List Cell) (outside : writer.inTransaction = false)
    (idle : view.idle writer.session) :
    (stand view bind writer.head (view.rows writer.session)).settled [] writer :=
  ⟨rfl, outside, idle, .refl _⟩

theorem begin_stands (lawful : database.Lawful view)
    (settled : (stand view bind head before).settled items writer)
    (call : begin database writer = ⟨answer, told, after⟩) :
    Stand.either ((stand view bind head before).staging items [])
      ((stand view bind head before).ended items) answer after := by
  obtain ⟨same, outside, idle, gains⟩ := settled
  by_cases closed : writer.closed = true
  · simp only [begin, outside, closed, Bool.false_eq_true, ↓reduceIte] at call
    cases call
    exact ⟨outside, gains⟩
  · rcases begun : database.begin writer.session with ⟨fault | ⟨⟩, session⟩
    · simp only [begin, outside, closed, begun, Bool.false_eq_true, ↓reduceIte] at call
      cases call
      exact ⟨rfl, lawful.notBegun idle begun ▸ gains⟩
    · simp only [begin, outside, closed, begun, Bool.false_eq_true, ↓reduceIte] at call
      cases call
      obtain ⟨within, active, rows⟩ := lawful.begun idle begun
      exact ⟨active, _, ⟨same, rfl, within⟩, gains, rows ▸ .refl _⟩

theorem write_stands (lawful : database.Lawful view)
    (staging : (stand view bind head before).staging items [] writer)
    (call : (asWriter database bind).write pending writer = ⟨answer, told, after⟩) :
    Stand.either ((stand view bind head before).staging items pending)
      ((stand view bind head before).spoiled items) answer after := by
  obtain ⟨active, start, holds, gains, none⟩ := staging
  obtain ⟨held, gained⟩ := holds.write lawful active call
  rcases answer with fault | ⟨⟩
  · exact ⟨start, gains, .inl held⟩
  · obtain ⟨active, more⟩ := gained rfl
    -- Nothing was pending, so all that is pending now comes from this write.
    exact ⟨active, start, held, gains, none.trans more⟩

/-- A writer whose commit fails gives its transaction up, and has nothing left to roll back. -/
theorem commit_stands (lawful : database.Lawful view)
    (staging : (stand view bind head before).staging items pending writer)
    (call : commit database writer = ⟨answer, told, after⟩) :
    Stand.either ((stand view bind head before).settled (items ++ pending))
      ((stand view bind head before).spoiled items) answer after := by
  obtain ⟨active, start, holds, gains, more⟩ := staging
  rcases ended : database.commit writer.session with ⟨fault | ⟨⟩, session⟩
  · simp only [commit, holds.inTransaction, ended, Bool.not_true, Bool.false_eq_true, ↓reduceIte]
      at call
    cases call
    have within := lawful.notCommitted holds.within active ended
    exact ⟨start, gains, .inr ⟨rfl, lawful.abandoned within⟩⟩
  · simp only [commit, holds.inTransaction, ended, Bool.not_true, Bool.false_eq_true, ↓reduceIte]
      at call
    cases call
    obtain ⟨idle, rows⟩ := lawful.committed holds.within active ended
    refine ⟨holds.head, rfl, idle, ?_⟩
    rw [List.map_append, rows]
    exact gains.trans more

/-- A rollback leaves the rows from before the transaction: it takes it back, gives it up if that
fails, or finds that it has been given up already. -/
theorem rollback_stands (lawful : database.Lawful view)
    (spoiled : (stand view bind head before).spoiled items writer)
    (call : rollback database writer = ⟨answer, told, after⟩) :
    (stand view bind head before).ended items after := by
  obtain ⟨start, gains, holds | ⟨outside, rows⟩⟩ := spoiled
  · rcases ended : database.rollback writer.session with ⟨fault | ⟨⟩, session⟩
    · simp only [rollback, holds.inTransaction, ended, Bool.not_true, Bool.false_eq_true,
        ↓reduceIte] at call
      cases call
      have within := lawful.notRolledBack holds.within ended
      exact ⟨rfl, (lawful.abandoned within).symm ▸ gains⟩
    · simp only [rollback, holds.inTransaction, ended, Bool.not_true, Bool.false_eq_true,
        ↓reduceIte] at call
      cases call
      exact ⟨rfl, (lawful.rolledBack holds.within ended).symm ▸ gains⟩
  · simp only [rollback, outside, Bool.not_false, ↓reduceIte] at call
    cases call
    exact ⟨outside, rows.symm ▸ gains⟩

end TableWriter

theorem TableWriter.within_write (database : Database δ) (place : Place σ (TableWriter δ))
    (name : ComponentLog → ε) (bind : ω → List Cell) (items : List ω) (state : σ) :
    (((asWriter database bind).within place name).write items state).value =
      (write database (items.map bind) (place.get state)).value := rfl

namespace ChunkStep

/-- A step that writes items as rows by a writer kept at `place`, which manages its transactions as
well. All other parts and listeners leave the writer and its session alone. -/
structure StoresRows (step : ChunkStep σ ε ι ω) (database : Database δ)
    (place : Place σ (TableWriter δ)) (name : ComponentLog → ε) (bind : ω → List Cell) : Prop where
  lawful : place.Lawful
  writer : step.writer = (TableWriter.asWriter database bind).within place name
  transactions : step.transactions = (TableWriter.asTransactions database).within place name
  reader : Bystander place.get (fun _ _ => True) step.reader.next
  processing : step.ProcessingStandsBy place.get fun _ _ => True

variable {step : ChunkStep σ ε ι ω} {database : Database δ} {place : Place σ (TableWriter δ)}
  {name : ComponentLog → ε} {bind : ω → List Cell} {view : Database.View δ ρ}

theorem StoresRows.custody (stores : step.StoresRows database place name bind)
    (lawful : database.Lawful view) (head : String) (before : Multiset ρ) :
    step.Custody place.get (TableWriter.stand view bind head before) where
  reader := stores.reader
  processing := stores.processing
  spent := by
    rintro kept writer ⟨-, outside, -, gains⟩
    exact ⟨outside, gains⟩
  unwritten := by
    rintro kept writer ⟨-, start, holds, gains, -⟩
    exact ⟨start, gains, .inl holds⟩
  opened := by
    intro kept state answer told after settled call
    rw [stores.writer] at call
    obtain ⟨rfl, same⟩ := stores.lawful.within_pure call
    rw [same]
    exact settled
  begun := by
    intro kept state answer told after settled call
    rw [stores.transactions] at call
    obtain ⟨events, call⟩ := stores.lawful.within_eq call
    exact TableWriter.begin_stands lawful settled call
  written := by
    intro kept outputs state answer told after staging call
    rw [stores.writer] at call
    obtain ⟨events, call⟩ := stores.lawful.within_eq call
    exact TableWriter.write_stands lawful staging call
  flushed := by
    intro kept outputs state answer told after staging call
    rw [stores.writer] at call
    obtain ⟨rfl, same⟩ := stores.lawful.within_pure call
    rw [same]
    exact staging
  committed := by
    intro kept outputs state answer told after staging call
    rw [stores.transactions] at call
    obtain ⟨events, call⟩ := stores.lawful.within_eq call
    exact TableWriter.commit_stands lawful staging call
  rolledBack := by
    intro kept state answer told after spoiled call
    rw [stores.transactions] at call
    obtain ⟨events, call⟩ := stores.lawful.within_eq call
    exact TableWriter.rollback_stands lawful spoiled call
  closed := by
    intro kept result state answer told after stands call
    rw [stores.writer] at call
    obtain ⟨-, same⟩ := stores.lawful.within_pure call
    rw [same]
    exact stands

/-- A writer that is out of use still shows the rows that were gained. -/
theorem StoresRows.ended (stores : step.StoresRows database place name bind)
    (lawful : database.Lawful view) {head : String} {before : Multiset ρ} {kept : List ω}
    {result : Option (Result Unit)} {writer : TableWriter δ}
    (stands : (TableWriter.stand view bind head before).afterRounds kept result writer) :
    (TableWriter.stand view bind head before).ended kept writer := by
  have custody := stores.custody lawful head before
  rcases result with _ | error | ⟨⟩
  · exact custody.spent stands
  · exact stands
  · exact custody.spent stands

/-- What a step leaves in the table that it writes to, if it has the writer of the table manage its
transactions. However the run goes, the writer is outside of a transaction, the table holds the rows
from before and one row for each item of the committed chunks, and the ledger counts as many. A
chunk that fails, at its commit or at any statement of its write, leaves no row. -/
theorem execute_rows (stores : step.StoresRows database place name bind)
    (lawful : database.Lawful view) (rounds : Nat) (p : Progress σ)
    (outside : (place.get p.state).inTransaction = false)
    (idle : view.idle (place.get p.state).session) :
    let run := step.execute rounds p
    let chunks := committedChunks (calls run.events)
    let before := place.get p.state
    let after := place.get run.state.state
    after.inTransaction = false ∧
    view.Gains before.head (chunks.flatten.map bind) (view.rows before.session)
      (view.rows after.session) ∧
    (view.rows after.session).card + p.ledger.writeCount =
      (view.rows before.session).card + run.state.ledger.writeCount ∧
    ∀ items error, (step.executeChunk items p).value = .error error →
      let failed := place.get (step.executeChunk items p).state.state
      failed.inTransaction = false ∧ view.rows failed.session = view.rows before.session := by
  intro run chunks before after
  have custody := stores.custody lawful before.head (view.rows before.session)
  have settled := TableWriter.stand_settled bind outside idle
  obtain ⟨events, result, final, runs, eq⟩ := step.execute_runs rounds p
  have stands := runs.stands custody settled
  rw [List.nil_append] at stands
  obtain ⟨ended, gains⟩ := stores.ended lawful stands
  have made : chunks = committedChunks (calls events) := by simp only [chunks, run, eq]
  have left : after = place.get final.state := by simp only [after, run, eq]
  rw [← made, ← left] at gains
  rw [← left] at ended
  refine ⟨ended, gains, ?_, ?_⟩
  · -- The ledger counts the items of committed chunks, of which each has become a row.
    obtain ⟨tally, rest, books, balanced⟩ := runs.balanced
    have counted : run.state.ledger.writeCount = p.ledger.writeCount + chunks.flatten.length := by
      simp only [run, eq]
      rw [made, books, ← balanced.written]
      rfl
    have card := gains.card_eq
    rw [List.length_map] at card
    omega
  · -- A chunk on its own starts from a writer that has kept nothing yet.
    intro items error refused
    obtain ⟨transaction, outcome, reached, transacts, executed⟩ :=
      step.executeChunk_transacts items p
    have chunk := transacts.stands custody settled
    rw [executed] at refused ⊢
    rcases outcome with reason | outputs
    · obtain ⟨outside, gains⟩ := chunk
      exact ⟨outside, gains.eq_of_nil⟩
    · cases refused

end ChunkStep

/-! ## A table that gives up the transaction of a chunk -/

/-- A session with a table of nodes, each of which refers to another one. If a key is taken, the
database rolls the whole transaction back. -/
def planted : Session where
  schema :=
    { name := "nodes"
      columns := [{ name := "id", affinity := .integer, uniqueness := .primaryKey },
        { name := "parent", affinity := .integer, references := some "id" }]
      rowKey := some "id"
      onKeyConflict := .rollback }
  rows := [⟨1, [.int 1, .int 1]⟩]

/-- A step that plants nodes from a queue. -/
def planting : ChunkStep (ItemQueue (Int × Int) × TableWriter Session) ComponentLog (Int × Int)
    (Int × Int) where
  name := "planting"
  reader := (ItemQueue.asReader _ _).within (.first _ _) id
  processor := .passThrough _ _ _
  writer := (TableWriter.asWriter Session.database fun node =>
    [.int node.1, .int node.2]).within (.second _ _) id
  transactions := (TableWriter.asTransactions Session.database).within (.second _ _) id
  policy := .never _ _
  chunkSize := 2
  chunkSize_pos := Nat.two_pos
  itemSize := 16

/-- A queue of nodes, and the writer in a transaction or not. -/
def garden (queue : List (Int × Int)) (session : Session) (inTransaction : Bool) :
    ItemQueue (Int × Int) × TableWriter Session :=
  (⟨queue⟩, { session, table := "nodes", columns := ["id", "parent"], inTransaction })

theorem planting_storesRows : planting.StoresRows Session.database (.second _ _) id
    (fun node : Int × Int => [.int node.1, .int node.2]) where
  lawful := Place.second_lawful _ _
  writer := rfl
  transactions := rfl
  reader := Bystander.within (fun _ _ => rfl) (fun _ _ => trivial) _
  processing := ⟨fun _ => .pure _ _ _, fun _ _ => .pure _ _ _, nofun, nofun⟩

/-! ### Its statements -/

/-- The rows behind the first chunk. -/
def rooted : Rows := ⟨3, [.int 3, .int 1]⟩ :: ⟨2, [.int 2, .int 1]⟩ :: planted.rows

/-- The session in a transaction that began with the rows `before`. -/
def opened (before rows : Rows) : Session :=
  { planted with rows, savepoints := [⟨0, before⟩], depth := 1 }

/-- The values of two nodes. -/
def valuesOf (first second : Int × Int) : List (List Cell) :=
  [[.int first.1, .int first.2], [.int second.1, .int second.2]]

/-- Where the values of a node go. -/
def nodeBinding : Binding := ⟨[some 0, some 1], some 0⟩

theorem opened_prepare (before rows : Rows) (first second : Int × Int) :
    (opened before rows).prepare "INSERT INTO nodes (id,parent) VALUES " (valuesOf first second) =
      .ok nodeBinding := by
  let statement : Insert := ⟨none, "nodes", ["id", "parent"]⟩
  have parsed : Insert.parse "INSERT INTO nodes (id,parent) VALUES " [2, 2] = .ok statement := by
    decide +kernel
  have found : planted.findTable statement = .ok () := by decide +kernel
  have bound : Binding.addAll planted.schema "nodes" 0 (Binding.none planted.schema)
      ["id", "parent"] = .ok nodeBinding := by decide +kernel
  exact Session.prepare_eq_ok.mpr ⟨statement, parsed, found, bound, rfl⟩

/-- A node whose key is new becomes a row. -/
theorem newRow_node {rows : Rows} {key parent : Int} (free : rows.any (·.key == key) = false)
    (unseen : rows.any (fun row => decide (row.cells[0]? = some (.int key))) = false) :
    Rows.newRow planted.schema nodeBinding (Index.ofRows rows) [.int key, .int parent] =
      .ok ⟨key, [.int key, .int parent]⟩ := by
  simp [Rows.newRow, Rows.keyOf, planted, nodeBinding, Affinity.apply, Rows.cellOf,
    Rows.checkNotNull, Rows.checkKey, Rows.checkUnique, bind, Except.bind, pure, Except.pure,
    -List.any_eq_false, free, unseen]

/-- A node whose key is taken is refused, with all of its transaction. -/
theorem newRow_node_taken {rows : Rows} {key parent : Int} (taken : rows.any (·.key == key) = true) :
    Rows.newRow planted.schema nodeBinding (Index.ofRows rows) [.int key, .int parent] =
      .error ⟨.uniqueKey "nodes" "id", .rollback⟩ := by
  simp [Rows.newRow, Rows.keyOf, planted, nodeBinding, Affinity.apply, Rows.cellOf,
    Rows.checkNotNull, Rows.checkKey, bind, Except.bind, -List.any_eq_true, taken]

/-- Two nodes with new keys are rooted. -/
theorem opened_roots :
    Session.database.insert "INSERT INTO nodes (id,parent) VALUES " (valuesOf (2, 1) (3, 1))
      (opened planted.rows planted.rows) = (.ok (), opened planted.rows rooted) := by
  have inserted : planted.rows.insertAll planted.schema nodeBinding (valuesOf (2, 1) (3, 1)) =
      .ok rooted := by
    simp only [Rows.insertAll, Rows.insertIndexed, valuesOf, bind, Except.bind]
    rw [newRow_node (by decide) (by decide)]
    simp only [Index.add_ofRows]
    rw [newRow_node (by decide) (by decide)]
    rfl
  -- References are not checked before the end of the transaction.
  have unsettled : ¬(opened planted.rows planted.rows).settled = true := by decide
  exact Session.insert_eq_ok.mpr ⟨nodeBinding, rooted, opened_prepare _ _ _ _, inserted,
    fun settled => absurd settled unsettled, rfl⟩

/-- The key of the second node is taken, and the database ends the transaction. -/
theorem opened_refuses {rows : Rows} (known : rows = planted.rows ∨ rows = rooted) :
    Session.database.insert "INSERT INTO nodes (id,parent) VALUES " (valuesOf (4, 1) (1, 1))
        (opened rows rows) =
      (.error (.uniqueKey "nodes" "id"), { planted with rows, depth := 1 }) := by
  have taken : rows.insertAll planted.schema nodeBinding (valuesOf (4, 1) (1, 1)) =
      .error ⟨.uniqueKey "nodes" "id", .rollback⟩ := by
    simp only [Rows.insertAll, Rows.insertIndexed, valuesOf, bind, Except.bind]
    rcases known with rfl | rfl
    all_goals
      rw [newRow_node (by decide) (by decide)]
      simp only [Index.add_ofRows]
      rw [newRow_node_taken (by decide)]
  exact Session.insert_of_refusal (opened_prepare _ _ _ _) taken

/-- All nodes have parents. -/
theorem rooted_referencesHold : rooted.referencesHold planted.schema = true := by
  have target : planted.schema.columnIndex? "id" = some 0 := by decide +kernel
  simp only [planted] at target
  simp [Rows.referencesHold, planted, rooted, List.zipIdx_cons, target]

/-- What is rooted is committed. -/
theorem opened_commits : Session.database.commit (opened planted.rows rooted) =
    (.ok (), { planted with rows := rooted }) := by
  have holds : (opened planted.rows rooted).rows.referencesHold
      (opened planted.rows rooted).schema = true := rooted_referencesHold
  have committed : (opened planted.rows rooted).commit = .ok { planted with rows := rooted } := by
    rw [Session.commit, if_pos (by decide), if_neg (by decide), holds]
    rfl
  exact congrArg (answered (opened planted.rows rooted)) committed

/-! ### Its chunks -/

/-- The writer of a garden, in a transaction. -/
def planter (before rows : Rows) : TableWriter Session := (garden [] (opened before rows) true).2

theorem planter_head (before rows : Rows) :
    (planter before rows).head = "INSERT INTO nodes (id,parent) VALUES " := by
  change Insert.head "nodes" ["id", "parent"] = _
  decide +kernel

/-- Two nodes fit into one statement. -/
theorem planter_batches (before rows : Rows) (first second : Int × Int) :
    (planter before rows).batches? (valuesOf first second) = some [valuesOf first second] := by
  simp [TableWriter.batches?, TableWriter.rowsPerStatement, TableWriter.bindLimit,
    TableWriter.slices, planter, garden, valuesOf]

theorem planter_roots : ∃ told, TableWriter.write Session.database (valuesOf (2, 1) (3, 1))
    (planter planted.rows planted.rows) = ⟨.ok (), told, planter planted.rows rooted⟩ := by
  rw [TableWriter.write_of_batches (planter_batches _ _ _ _)]
  have inserted : TableWriter.insert Session.database (valuesOf (2, 1) (3, 1))
      (planter planted.rows planted.rows) = ⟨.ok (), [], planter planted.rows rooted⟩ := by
    rw [TableWriter.insert_eq rfl, planter_head, show (planter planted.rows planted.rows).session =
      opened planted.rows planted.rows from rfl, opened_roots]
    rfl
  simp [TableWriter.insertAll, Act.read, Act.tell, inserted]

theorem planter_refuses {rows : Rows} (known : rows = planted.rows ∨ rows = rooted) :
    ∃ error, (TableWriter.write Session.database (valuesOf (4, 1) (1, 1))
      (planter rows rows)).value = .error error := by
  let fault : Fault := .uniqueKey "nodes" "id"
  have refused : (TableWriter.insert Session.database (valuesOf (4, 1) (1, 1))
      (planter rows rows)).value = .error fault := by
    rw [TableWriter.insert_eq rfl, planter_head, show (planter rows rows).session =
      opened rows rows from rfl, opened_refuses known]
  refine ⟨.itemWriter s!"SQLite write failed: {fault.message}", ?_⟩
  rw [TableWriter.write_of_batches (planter_batches _ _ _ _), TableWriter.insertAll_refused refused]

theorem planter_commits : TableWriter.commit Session.database (planter planted.rows rooted) =
    ⟨.ok (), [], (garden [] { planted with rows := rooted } false).2⟩ := by
  have ended : Session.database.commit (planter planted.rows rooted).session =
      (.ok (), { planted with rows := rooted }) := opened_commits
  rw [TableWriter.commit, ended]
  rfl

/-- A chunk is committed if all that it needs succeeds. -/
theorem ChunkStep.executeChunk_of_accepted {step : ChunkStep σ ε ι ω} {p middle : Progress σ}
    {items : List ι} {outputs : List ω} {told wrote flushed closing : List ε}
    {state written ready final : σ} {events : List (StepEvent ι ω ε)}
    (unheard : step.chunkListeners = [])
    (begun : step.transactions.begin p.state = ⟨.ok (), told, state⟩)
    (processed : step.processItems items ⟨p.ledger, state⟩ = ⟨.ok outputs, events, middle⟩)
    (nonempty : outputs ≠ [])
    (accepted : step.writer.write outputs middle.state = ⟨.ok (), wrote, written⟩)
    (flush : step.writer.flush written = ⟨.ok (), flushed, ready⟩)
    (commit : step.transactions.commit ready = ⟨.ok (), closing, final⟩) :
    ∃ made, step.executeChunk items p =
      ⟨.ok (), made,
        ⟨{ middle.ledger with
            commitCount := middle.ledger.commitCount + 1
            writeCount := middle.ledger.writeCount + outputs.length }, final⟩⟩ := by
  simp [executeChunk, unheard, notify, ask_run, begun, produce, processChunk, processed,
    writeChunk, nonempty, accepted, flush, commit, log_run, book_run]

/-- A chunk fails with the error of its write. -/
theorem ChunkStep.executeChunk_of_refused {step : ChunkStep σ ε ι ω} {p middle : Progress σ}
    {items : List ι} {outputs : List ω} {told : List ε} {state : σ} {error : Error}
    {events : List (StepEvent ι ω ε)} (unheard : step.chunkListeners = [])
    (begun : step.transactions.begin p.state = ⟨.ok (), told, state⟩)
    (processed : step.processItems items ⟨p.ledger, state⟩ = ⟨.ok outputs, events, middle⟩)
    (nonempty : outputs ≠ [])
    (refused : (step.writer.write outputs middle.state).value = .error error) :
    (step.executeChunk items p).value = .error error ∧
      (step.executeChunk items p).state.ledger.writeCount = middle.ledger.writeCount := by
  rcases call : step.writer.write outputs middle.state with ⟨answer, wrote, written⟩
  rw [call] at refused
  cases refused
  rcases undo : step.transactions.rollback written with ⟨_ | ⟨⟩, undone, final⟩ <;>
    simp [executeChunk, unheard, notify, notifyChunkError, ask_run, begun, produce, processChunk,
      processed, writeChunk, nonempty, call, rollBack, undo, log_run, book_run]

/-- The step writes to the planter of its garden. -/
theorem planting_write (queue : List (Int × Int)) (before rows : Rows) (first second : Int × Int) :
    planting.writer.write [first, second] (garden queue (opened before rows) true) =
      let inner :=
        TableWriter.write Session.database (valuesOf first second) (planter before rows)
      ⟨inner.value, inner.events.map id, (⟨queue⟩, inner.state)⟩ := rfl

/-- A run goes on behind a full chunk that is committed, and ends with one that is refused. -/
theorem ChunkStep.runChunks_of_full {step : ChunkStep σ ε ι ω} {p read : Progress σ}
    {items : List ι} {reading : List (StepEvent ι ω ε)} (room : step.HasRoom)
    (reads : step.readItems step.chunkSize p = ⟨.ok (items, .full), reading, read⟩)
    (nonempty : items ≠ []) (rounds : Nat) :
    let chunk := step.executeChunk items read
    let run := step.runChunks (rounds + 1) p
    (chunk.value = .ok () → run.value = (step.runChunks rounds chunk.state).value ∧
      run.state = (step.runChunks rounds chunk.state).state) ∧
    ∀ error, chunk.value = .error error →
      run.value = some (.error error) ∧ run.state = chunk.state := by
  rcases executed : step.executeChunk items read with ⟨error | ⟨⟩, made, after⟩ <;>
    simp [runChunks, readChunk_of_room room, log_run, reads, nonempty, executed]

theorem planting_roots (ledger : Ledger) (queue : List (Int × Int)) :
    ∃ made, planting.executeChunk [(2, 1), (3, 1)] ⟨ledger, garden queue planted false⟩ =
      ⟨.ok (), made,
        ⟨{ ledger with commitCount := ledger.commitCount + 1, writeCount := ledger.writeCount + 2 },
          garden queue { planted with rows := rooted } false⟩⟩ := by
  obtain ⟨told, written⟩ := planter_roots
  have begun : planting.transactions.begin (garden queue planted false) =
    ⟨.ok (), [], garden queue (opened planted.rows planted.rows) true⟩ := rfl
  have processed : planting.processItems [(2, 1), (3, 1)]
      ⟨ledger, garden queue (opened planted.rows planted.rows) true⟩ =
    ⟨.ok [(2, 1), (3, 1)], _, ⟨ledger, garden queue (opened planted.rows planted.rows) true⟩⟩ := rfl
  have accepted := planting_write queue planted.rows planted.rows (2, 1) (3, 1)
  rw [written] at accepted
  have commit : planting.transactions.commit (garden queue (opened planted.rows rooted) true) =
      ⟨.ok (), [], garden queue { planted with rows := rooted } false⟩ := by
    have whole : planting.transactions.commit (garden queue (opened planted.rows rooted) true) =
        let inner := TableWriter.commit Session.database (planter planted.rows rooted)
        ⟨inner.value, inner.events.map id, (⟨queue⟩, inner.state)⟩ := rfl
    rw [whole, planter_commits]
    rfl
  exact ChunkStep.executeChunk_of_accepted (p := ⟨ledger, garden queue planted false⟩) rfl begun
    processed (List.cons_ne_nil _ _) accepted rfl commit

theorem planting_refuses (ledger : Ledger) (queue : List (Int × Int)) {rows : Rows}
    (known : rows = planted.rows ∨ rows = rooted) :
    ∃ error, (planting.executeChunk [(4, 1), (1, 1)]
        ⟨ledger, garden queue { planted with rows } false⟩).value = .error error ∧
      (planting.executeChunk [(4, 1), (1, 1)]
        ⟨ledger, garden queue { planted with rows } false⟩).state.ledger.writeCount =
          ledger.writeCount := by
  obtain ⟨error, refused⟩ := planter_refuses known
  have begun : planting.transactions.begin (garden queue { planted with rows } false) =
    ⟨.ok (), [], garden queue (opened rows rows) true⟩ := rfl
  have processed : planting.processItems [(4, 1), (1, 1)]
      ⟨ledger, garden queue (opened rows rows) true⟩ =
    ⟨.ok [(4, 1), (1, 1)], _, ⟨ledger, garden queue (opened rows rows) true⟩⟩ := rfl
  exact ⟨error, ChunkStep.executeChunk_of_refused
    (p := ⟨ledger, garden queue { planted with rows } false⟩) rfl begun processed
    (List.cons_ne_nil _ _) refused⟩

/-- A garden with two chunks of nodes. -/
def unplanted : Progress (ItemQueue (Int × Int) × TableWriter Session) :=
  ⟨{ id := ⟨1⟩, name := "planting" }, garden [(2, 1), (3, 1), (4, 1), (1, 1)] planted false⟩

/-- The first chunk is committed, and the second one is refused. -/
theorem planting_runChunks (ledger : Ledger) :
    let run := planting.runChunks 2 ⟨ledger, unplanted.state⟩
    (∃ error, run.value = some (.error error)) ∧
      run.state.ledger.writeCount = ledger.writeCount + 2 := by
  have room : planting.HasRoom := by decide
  have first : planting.readItems planting.chunkSize ⟨ledger, unplanted.state⟩ =
    ⟨.ok ([(2, 1), (3, 1)], .full), _, ⟨{ ledger with readCount := ledger.readCount + 1 + 1 },
      garden [(4, 1), (1, 1)] planted false⟩⟩ := rfl
  obtain ⟨made, committed⟩ :=
    planting_roots { ledger with readCount := ledger.readCount + 1 + 1 } [(4, 1), (1, 1)]
  obtain ⟨goesOn, -⟩ := ChunkStep.runChunks_of_full room first (List.cons_ne_nil _ _) 1
  rw [committed] at goesOn
  obtain ⟨value, state⟩ := goesOn rfl
  -- Behind the first chunk the garden has the other two nodes.
  have second (ledger : Ledger) : planting.readItems planting.chunkSize
      ⟨ledger, garden [(4, 1), (1, 1)] { planted with rows := rooted } false⟩ =
    ⟨.ok ([(4, 1), (1, 1)], .full), _, ⟨{ ledger with readCount := ledger.readCount + 1 + 1 },
      garden [] { planted with rows := rooted } false⟩⟩ := rfl
  obtain ⟨error, refused, kept⟩ := planting_refuses _ [] (.inr rfl : rooted = _ ∨ rooted = rooted)
  obtain ⟨-, fails⟩ := ChunkStep.runChunks_of_full room (second _) (List.cons_ne_nil _ _) 0
  obtain ⟨failed, final⟩ := fails error refused
  exact ⟨⟨error, value.trans failed⟩, by rw [state, final, kept]⟩

theorem planting_execute : (∃ error, (planting.execute 2 unplanted).value = some (.error error)) ∧
    (planting.execute 2 unplanted).state.ledger.writeCount = 2 := by
  obtain ⟨⟨error, failed⟩, count⟩ := planting_runChunks { unplanted.ledger with status := .started }
  rcases ran : planting.runChunks 2 ⟨{ unplanted.ledger with status := .started },
    unplanted.state⟩ with ⟨value, events, after⟩
  rw [ran] at failed count
  cases failed
  have opened : planting.writer.openStore unplanted.state = ⟨.ok (), [], unplanted.state⟩ := rfl
  have closed : planting.writer.closeStore after.state = ⟨.ok (), [], after.state⟩ := rfl
  have total : after.ledger.writeCount = 2 := count
  simpa [ChunkStep.execute, ChunkStep.runOpened, ChunkStep.ask_run, ChunkStep.setStatus_run,
    ChunkStep.ledger_run, ChunkStep.log_run, opened, closed, ran] using total

/-- A chunk is committed, and in the one behind it the database ends the transaction before the
writer can, which fails to roll it back. The rows of the first chunk are there all the same, and
none of the second. -/
theorem planting_rows :
    let run := planting.execute 2 unplanted
    let after := run.state.state.2
    let failed := (planting.executeChunk [(4, 1), (1, 1)] unplanted).state.state.2
    (∃ error, run.value = some (.error error)) ∧ run.state.ledger.writeCount = 2 ∧
    after.inTransaction = false ∧ after.session.rows.length = 1 + 2 ∧
    (∃ error, (planting.executeChunk [(4, 1), (1, 1)] unplanted).value = .error error) ∧
    failed.inTransaction = false ∧ failed.session.rows = [⟨1, [.int 1, .int 1]⟩] := by
  intro run after failed
  obtain ⟨outside, -, counted, chunk⟩ := ChunkStep.execute_rows planting_storesRows
    (Session.lawful planted.schema) 2 unplanted rfl ⟨rfl, rfl⟩
  obtain ⟨ended, written⟩ := planting_execute
  obtain ⟨error, refused, -⟩ := planting_refuses unplanted.ledger unplanted.state.1.items
    (.inl rfl : planted.rows = planted.rows ∨ _)
  obtain ⟨free, rows⟩ := chunk _ _ refused
  rw [written] at counted
  exact ⟨ended, written, outside, counted, ⟨error, refused⟩, free,
    Multiset.coe_eq_singleton.mp rows⟩

end Batchwork
