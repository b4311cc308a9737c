import Batchwork.Proofs.Memory.TransactionalLog
import Batchwork.Proofs.Table.PlainTables
import Batchwork.Proofs.Table.RowAtomicity
import Batchwork.Proofs.Table.Slices

/-!
# A table in place of a store

A store in memory and a table without constraints are asked the same, whatever it is and in whatever
order. Both accept it or both refuse it, both are in a transaction or both are not, and outside of
one the table holds the rows of the items that the store shows, in the same order. They agree
because each agrees with a log. Main statement: `performAll_alike`.
-/

namespace Batchwork

open Table

variable {σ τ ε κ δ ρ ω : Type}

namespace Request

/-- Both answers accept a request, or both tell that the transaction is not what it should be. -/
inductive Alike : Result Unit → Result Unit → Prop
  | accepted : Alike (.ok ()) (.ok ())
  | refused (first second : String) :
    Alike (.error (.transaction first)) (.error (.transaction second))

/-- Stores that answer alike to every request answer alike to any number of them. -/
theorem performAll_related {writer : Writer σ ε ω} {transactions : TransactionManager σ ε}
    {other : Writer τ κ ω} {others : TransactionManager τ κ} {related : σ → τ → Prop}
    (each : ∀ (request : Request ω) {first second}, related first second →
      Alike (request.perform writer transactions first).value
        (request.perform other others second).value ∧
      related (request.perform writer transactions first).state
        (request.perform other others second).state)
    (requests : List (Request ω)) {first : σ} {second : τ} (states : related first second) :
    List.Forall₂ Alike (performAll writer transactions requests first).value
        (performAll other others requests second).value ∧
      related (performAll writer transactions requests first).state
        (performAll other others requests second).state := by
  induction requests generalizing first second with
  | nil => exact ⟨.nil, states⟩
  | cons request rest ih =>
    obtain ⟨answer, next⟩ := each request states
    obtain ⟨answers, last⟩ := ih next
    exact ⟨.cons answer answers, last⟩

end Request

namespace TableWriter

/-- A writer of rows of so many values with this head, in a transaction or not, the table of which
holds these rows. -/
structure Stands (view : Database.OrderedView δ ρ) (head : String) (width : Nat)
    (mode : Option (List ρ)) (rows : List ρ) (writer : TableWriter δ) : Prop where
  head : writer.head = head
  width : writer.columns.length = width
  reachable : writer.closed = false
  inTransaction : writer.inTransaction = mode.isSome
  session : view.stands mode writer.session
  rows : view.rows writer.session = rows

namespace Stands

variable {database : Database δ} {view : Database.OrderedView δ ρ} {head : String} {width : Nat}
  {mode : Option (List ρ)} {before rows : List ρ} {writer : TableWriter δ}

/-- One statement adds its rows behind the others. -/
theorem insert (stands : Stands view head width mode rows writer)
    (serves : database.Serves view head width bindLimit) {values : List (List Cell)}
    (nonempty : values ≠ []) (even : ∀ row ∈ values, row.length = width)
    (fits : values.length * width ≤ bindLimit) :
    (TableWriter.insert database values writer).value = .ok () ∧
      Stands view head width mode (rows ++ values.map view.image)
        (TableWriter.insert database values writer).state := by
  obtain ⟨session, inserted, within, more⟩ := serves.inserted stands.session nonempty even fits
  rw [stands.rows] at more
  have call : TableWriter.insert database values writer =
      ⟨.ok (), [], { writer with session }⟩ := by
    simp [TableWriter.insert, stands.reachable, stands.head, inserted]
  rw [call]
  exact ⟨rfl, stands.head, stands.width, stands.reachable, stands.inTransaction, within, more⟩

/-- Statement after statement adds its rows, as long as each of them has some and not too many. -/
theorem insertAll (stands : Stands view head width mode rows writer)
    (serves : database.Serves view head width bindLimit) {batches : List (List (List Cell))}
    (fit : ∀ values ∈ batches, values ≠ [] ∧ (∀ row ∈ values, row.length = width) ∧
      values.length * width ≤ bindLimit) :
    (TableWriter.insertAll database batches writer).value = .ok () ∧
      Stands view head width mode (rows ++ batches.flatten.map view.image)
        (TableWriter.insertAll database batches writer).state := by
  induction batches generalizing rows writer with
  | nil =>
    rw [List.flatten_nil, List.map_nil, List.append_nil]
    exact ⟨rfl, stands⟩
  | cons values rest ih =>
    obtain ⟨⟨nonempty, even, fits⟩, others⟩ := List.forall_mem_cons.mp fit
    obtain ⟨accepted, more⟩ := stands.insert serves nonempty even fits
    obtain ⟨all, last⟩ := ih more others
    rw [List.append_assoc, ← List.map_append] at last
    simp only [TableWriter.insertAll, Act.bind_run, Act.read, accepted, Act.tell]
    exact ⟨all, last⟩

/-- A write adds all of its rows, in as many statements as it takes. -/
theorem write (stands : Stands view head width mode rows writer)
    (serves : database.Serves view head width bindLimit) (positive : 0 < width)
    (narrow : width ≤ bindLimit) {values : List (List Cell)}
    (even : ∀ row ∈ values, row.length = width) :
    (TableWriter.write database values writer).value = .ok () ∧
      Stands view head width mode (rows ++ values.map view.image)
        (TableWriter.write database values writer).state := by
  have room : 0 < writer.rowsPerStatement := by
    rw [rowsPerStatement, stands.width]
    exact Nat.div_pos narrow positive
  have cut : writer.batches? values =
      some (slices writer.rowsPerStatement values.length values) := if_neg (Nat.ne_of_gt room)
  have pieces : Cut writer.rowsPerStatement values
      (slices writer.rowsPerStatement values.length values) := slices_cut room (Nat.le_refl _)
  have fit : ∀ slice ∈ slices writer.rowsPerStatement values.length values,
      slice ≠ [] ∧ (∀ row ∈ slice, row.length = width) ∧ slice.length * width ≤ bindLimit := by
    intro slice member
    obtain ⟨nonempty, short⟩ := pieces.within room member
    refine ⟨List.ne_nil_of_length_pos nonempty,
      fun row inside => even row (pieces.subset member inside), ?_⟩
    calc slice.length * width
        ≤ bindLimit / width * width :=
          Nat.mul_le_mul_right width (by rwa [rowsPerStatement, stands.width] at short)
      _ ≤ bindLimit := Nat.div_mul_le_self bindLimit width
  obtain ⟨accepted, more⟩ := stands.insertAll serves fit
  rw [pieces.whole] at more
  rw [write_of_batches cut]
  exact ⟨accepted, more⟩

/-- Outside of a transaction one can be begun. -/
theorem begin_outside (stands : Stands view head width none rows writer)
    (serves : database.Serves view head width bindLimit) :
    (begin database writer).value = .ok () ∧
      Stands view head width (some rows) rows (begin database writer).state := by
  obtain ⟨session, begun, within, same⟩ := serves.begun stands.session
  rw [stands.rows] at within same
  have call : begin database writer =
      ⟨.ok (), [], { writer with session, inTransaction := true }⟩ := by
    simp [begin, stands.inTransaction, stands.reachable, begun]
  rw [call]
  exact ⟨rfl, stands.head, stands.width, stands.reachable, rfl, within, same⟩

/-- A second transaction is refused. -/
theorem begin_inside (stands : Stands view head width (some before) rows writer) :
    begin database writer = ⟨.error (.transaction "a transaction is already active"), [], writer⟩ :=
  if_pos stands.inTransaction

theorem commit_inside (stands : Stands view head width (some before) rows writer)
    (serves : database.Serves view head width bindLimit) :
    (commit database writer).value = .ok () ∧
      Stands view head width none rows (commit database writer).state := by
  obtain ⟨session, committed, outside, same⟩ := serves.committed stands.session
  rw [stands.rows] at same
  have call : commit database writer =
      ⟨.ok (), [], { writer with session, inTransaction := false }⟩ := by
    simp [commit, stands.inTransaction, committed]
  rw [call]
  exact ⟨rfl, stands.head, stands.width, stands.reachable, rfl, outside, same⟩

/-- There is nothing to commit outside of a transaction. -/
theorem commit_outside (stands : Stands view head width none rows writer) :
    commit database writer = ⟨.error (.transaction "no active transaction"), [], writer⟩ := by
  simp [commit, stands.inTransaction]

/-- A rollback brings the rows back from before the transaction. -/
theorem rollback_inside (stands : Stands view head width (some before) rows writer)
    (serves : database.Serves view head width bindLimit) :
    (rollback database writer).value = .ok () ∧
      Stands view head width none before (rollback database writer).state := by
  obtain ⟨session, undone, outside, same⟩ := serves.rolledBack stands.session
  have call : rollback database writer =
      ⟨.ok (), [], { writer with session, inTransaction := false }⟩ := by
    simp [rollback, stands.inTransaction, undone]
  rw [call]
  exact ⟨rfl, stands.head, stands.width, stands.reachable, rfl, outside, same⟩

/-- Outside of a transaction there is nothing to roll back, which is accepted. -/
theorem rollback_outside (stands : Stands view head width none rows writer) :
    rollback database writer = ⟨.ok (), [], writer⟩ := by
  simp [rollback, stands.inTransaction]

end Stands

/-- The rows of items. -/
def images (view : Database.OrderedView δ ρ) (bind : ω → List Cell) (items : List ω) : List ρ :=
  items.map fun item => view.image (bind item)

/-- A writer whose table holds the rows of the items of a log, and behind them those of the items
that wait in an open transaction. -/
def Records (view : Database.OrderedView δ ρ) (head : String) (width : Nat) (bind : ω → List Cell)
    (state : TransactionalLog ω) : TableWriter δ → Prop :=
  Stands view head width (state.pending.map fun _ => images view bind state.log)
    (images view bind (state.log ++ state.pending.getD []))

namespace Records

variable {database : Database δ} {view : Database.OrderedView δ ρ} {head : String} {width : Nat}
  {bind : ω → List Cell} {state : TransactionalLog ω} {log pending : List ω}
  {writer : TableWriter δ}

theorem outside_iff : Records view head width bind ⟨log, none⟩ writer ↔
    Stands view head width none (images view bind log) writer := by
  rw [Records, Option.getD_none, List.append_nil]
  rfl

theorem inside_iff : Records view head width bind ⟨log, some pending⟩ writer ↔
    Stands view head width (some (images view bind log)) (images view bind (log ++ pending))
      writer := .rfl

theorem images_bound (view : Database.OrderedView δ ρ) (bind : ω → List Cell)
    (items more : List ω) : images view bind items ++ (more.map bind).map view.image =
      images view bind (items ++ more) := by
  rw [images, images, List.map_append, List.map_map]
  rfl

theorem write (serves : database.Serves view head width bindLimit) (positive : 0 < width)
    (narrow : width ≤ bindLimit) (even : ∀ item, (bind item).length = width) (items : List ω)
    (records : Records view head width bind state writer) :
    Request.Alike (TransactionalLog.write items state).value
        ((asWriter database bind).write items writer).value ∧
      Records view head width bind (TransactionalLog.write items state).state
        ((asWriter database bind).write items writer).state := by
  have rows : ∀ row ∈ items.map bind, row.length = width :=
    List.forall_mem_map.mpr fun item _ => even item
  obtain ⟨accepted, more⟩ := Stands.write records serves positive narrow rows
  rw [images_bound] at more
  rw [show ((asWriter database bind).write items writer).value = .ok () from accepted]
  obtain ⟨log, _ | pending⟩ := state
  · rw [Option.getD_none, List.append_nil] at more
    exact ⟨.accepted, outside_iff.mpr more⟩
  · rw [Option.getD_some, List.append_assoc] at more
    exact ⟨.accepted, inside_iff.mpr more⟩

theorem begin (serves : database.Serves view head width bindLimit)
    (records : Records view head width bind state writer) :
    Request.Alike (TransactionalLog.begin state).value (begin database writer).value ∧
      Records view head width bind (TransactionalLog.begin state).state
        (begin database writer).state := by
  obtain ⟨log, _ | pending⟩ := state
  · obtain ⟨accepted, opened⟩ := (outside_iff.mp records).begin_outside serves
    rw [accepted]
    refine ⟨.accepted, inside_iff.mpr ?_⟩
    rwa [List.append_nil]
  · rw [Stands.begin_inside records]
    exact ⟨.refused _ _, records⟩

theorem commit (serves : database.Serves view head width bindLimit)
    (records : Records view head width bind state writer) :
    Request.Alike (TransactionalLog.commit state).value (commit database writer).value ∧
      Records view head width bind (TransactionalLog.commit state).state
        (commit database writer).state := by
  obtain ⟨log, _ | pending⟩ := state
  · rw [(outside_iff.mp records).commit_outside]
    exact ⟨.refused _ _, records⟩
  · obtain ⟨accepted, closed⟩ := Stands.commit_inside records serves
    rw [accepted]
    exact ⟨.accepted, outside_iff.mpr closed⟩

theorem rollback (serves : database.Serves view head width bindLimit)
    (records : Records view head width bind state writer) :
    Request.Alike (TransactionalLog.rollback state).value (rollback database writer).value ∧
      Records view head width bind (TransactionalLog.rollback state).state
        (rollback database writer).state := by
  obtain ⟨log, _ | pending⟩ := state
  · rw [(outside_iff.mp records).rollback_outside]
    exact ⟨.accepted, records⟩
  · obtain ⟨accepted, closed⟩ := Stands.rollback_inside records serves
    rw [accepted]
    exact ⟨.accepted, outside_iff.mpr closed⟩

/-- A log and a writer that records it accept the same requests and refuse the same. -/
theorem perform (serves : database.Serves view head width bindLimit) (positive : 0 < width)
    (narrow : width ≤ bindLimit) (even : ∀ item, (bind item).length = width)
    (request : Request ω) (records : Records view head width bind state writer) :
    Request.Alike
        (request.perform TransactionalLog.asWriter TransactionalLog.asTransactions state).value
        (request.perform (asWriter database bind) (asTransactions database) writer).value ∧
      Records view head width bind
        (request.perform TransactionalLog.asWriter TransactionalLog.asTransactions state).state
        (request.perform (asWriter database bind) (asTransactions database) writer).state := by
  cases request with
  | write items => exact records.write serves positive narrow even items
  | begin => exact records.begin serves
  | commit => exact records.commit serves
  | rollback => exact records.rollback serves

end Records

/-- A new store in memory and a writer over an empty table, in a database that does what it is asked
to, answer alike to whatever they are asked. Both are in a transaction or both are not, and if they
are in none the table holds the rows of the items of the store, in their order. -/
theorem performAll_alike {database : Database δ} {view : Database.OrderedView δ ρ}
    {writer : TableWriter δ} {bind : ω → List Cell}
    (serves : database.Serves view writer.head writer.columns.length bindLimit)
    (positive : 0 < writer.columns.length) (narrow : writer.columns.length ≤ bindLimit)
    (even : ∀ item, (bind item).length = writer.columns.length)
    (reachable : writer.closed = false) (outside : writer.inTransaction = false)
    (idle : view.stands none writer.session) (empty : view.rows writer.session = [])
    (requests : List (Request ω)) :
    let stored := Request.performAll ItemStore.asWriter ItemStore.asTransactions requests
      ({} : ItemStore ω)
    let tabled := Request.performAll (asWriter database bind) (asTransactions database) requests
      writer
    List.Forall₂ Request.Alike stored.value tabled.value ∧
      tabled.state.inTransaction = stored.state.inTransaction ∧
      (stored.state.inTransaction = false →
        view.rows tabled.state.session =
          stored.state.items.map fun item => view.image (bind item)) := by
  intro stored tabled
  let reference := Request.performAll TransactionalLog.asWriter TransactionalLog.asTransactions
    requests ({} : TransactionalLog ω)
  -- The store represents the log, and the writer records it.
  have agree := Request.performAll_agree ItemStore.Represents.perform requests
  have start : ({} : ItemStore ω).Represents {} := ⟨rfl, rfl, fun _ => rfl⟩
  have answers : stored.value = reference.value := agree.value _ _ start
  have represents : stored.state.Represents reference.state := agree.state _ _ start
  have fresh : Records view writer.head writer.columns.length bind {} writer :=
    ⟨rfl, rfl, reachable, outside, idle, empty⟩
  obtain ⟨alike, records⟩ := Request.performAll_related
    (fun request _ _ => Records.perform serves positive narrow even request) requests fresh
  refine ⟨answers ▸ alike, ?_, fun none => ?_⟩
  · have active := records.inTransaction
    rw [represents.pending, Option.isSome_map] at active
    exact active.trans (by cases stored.state.inTransaction <;> rfl)
  · have rows := records.rows
    rw [represents.pending, represents.log, none, if_neg Bool.false_ne_true, Option.getD_none,
      List.append_nil] at rows
    exact rows

/-- A table of notes, none of which need differ. -/
def notes : Schema where
  name := "notes"
  columns := [{ name := "id", affinity := .integer }, { name := "note", affinity := .text }]

theorem notes_unconstrained : notes.Unconstrained where
  keyless := rfl
  nullable := by decide
  free := by decide
  unreferring := by decide

/-- A writer of notes, the text of each in front of its number. -/
def notesWriter : TableWriter Session :=
  { session := { schema := notes }, table := "notes", columns := ["note", "id"] }

theorem notes_binds : Session.Binds notes notesWriter.head notesWriter.columns.length
    ⟨[some 1, some 0], none⟩ where
  readable := by decide +kernel
  prepared := by decide +kernel
  keyless := rfl

/-- A stray commit is refused by both, what is rolled back is in neither, and what is written behind
it is in both. -/
theorem performAll_alike_notes :
    let requests : List (Request (String × Int)) :=
      [.write [("a", 1)], .commit, .begin, .begin, .write [("b", 2)], .rollback, .rollback, .begin,
        .write [("c", 3), ("c", 3)], .commit]
    let bind (note : String × Int) : List Cell := [.text note.1, .int note.2]
    let stored := Request.performAll ItemStore.asWriter ItemStore.asTransactions requests {}
    let tabled := Request.performAll (asWriter Session.database bind)
      (asTransactions Session.database) requests notesWriter
    List.Forall₂ Request.Alike stored.value tabled.value ∧
      tabled.state.inTransaction = false ∧
      tabled.state.session.rows.contents =
        [[.int 1, .text "a"], [.int 3, .text "c"], [.int 3, .text "c"]] := by
  intro requests bind stored tabled
  have serves := Session.serves notes_unconstrained notes_binds bindLimit
  have even : ∀ note, (bind note).length = notesWriter.columns.length := fun _ => rfl
  obtain ⟨alike, outside, rows⟩ := performAll_alike serves (by decide) (by decide) even rfl rfl
    ⟨rfl, rfl, rfl⟩ rfl requests
  exact ⟨alike, outside, rows rfl⟩

end TableWriter

end Batchwork
