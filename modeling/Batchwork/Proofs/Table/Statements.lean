import Batchwork.Proofs.Table.JoinedStatements
import Batchwork.Proofs.Table.StoreAgreement

/-!
# The statements of a write

A write asks the database for statement after statement, one for each slice of its items, up to the
first that is refused. None of them has more values than a statement may have, and together they do
what one statement for all the items would. Main statement: `write_statements`.
-/

namespace Batchwork

open Table

variable {δ γ ω : Type}

/-- A statement that a database was asked for, and how it answered. -/
structure Table.Statement where
  head : String
  rows : List (List Cell)
  answer : Except Fault Unit

/-- A database that keeps record of the statements it is asked for, the latest last. -/
def Table.Database.recorded (database : Database δ) : Database (δ × List Statement) where
  begin kept := ((database.begin kept.1).1, (database.begin kept.1).2, kept.2)
  insert head rows kept :=
    let (answer, session) := database.insert head rows kept.1
    (answer, session, kept.2 ++ [⟨head, rows, answer⟩])
  commit kept := ((database.commit kept.1).1, (database.commit kept.1).2, kept.2)
  rollback kept := ((database.rollback kept.1).1, (database.rollback kept.1).2, kept.2)
  abandon kept := (database.abandon kept.1, kept.2)

namespace TableWriter

/-- The writer with another session in place of its own. -/
def onSession (writer : TableWriter δ) (session : γ) : TableWriter γ := { writer with session }

/-- Whether the way to the database is closed. A transaction keeps it open. -/
def cutOff (writer : TableWriter δ) : Bool := writer.closed && !writer.inTransaction

/-- The statements that reach the database. -/
def sent (writer : TableWriter δ) (statements : List Statement) : List Statement :=
  if writer.cutOff then [] else statements

/-- What a write answers if its statements have been answered like this. -/
def outcome : List Statement → Result Unit
  | [] => .ok ()
  | statement :: later =>
    match statement.answer with
    | .ok () => outcome later
    | .error fault => .error (.itemWriter s!"SQLite write failed: {fault.message}")

/-- Slices are inserted by one statement each, up to the first that is refused. -/
inductive Executes (database : Database δ) : TableWriter δ → List (List (List Cell)) →
    List Statement → TableWriter δ → Prop
  | done (writer) : Executes database writer [] [] writer
  | refused {writer rows fault after} (rest)
    (call : insert database rows writer = ⟨.error fault, [], after⟩) :
    Executes database writer (rows :: rest) [⟨writer.head, rows, .error fault⟩] after
  | accepted {writer rows rest middle executed after}
    (call : insert database rows writer = ⟨.ok (), [], middle⟩)
    (later : Executes database middle rest executed after) :
    Executes database writer (rows :: rest) (⟨writer.head, rows, .ok ()⟩ :: executed) after

variable {database : Database δ} {writer middle after : TableWriter δ}
  {rows : List (List Cell)} {answer : Except Fault Unit} {told : List ComponentLog}
  {batches : List (List (List Cell))} {executed : List Statement}

/-! ## One statement -/

/-- A statement tells of nothing and changes nothing about the writer but its session. -/
theorem insert_keeps (call : insert database rows writer = ⟨answer, told, after⟩) :
    told = [] ∧ after = writer.onSession after.session := by
  unfold insert at call
  split at call
  · cases call
    exact ⟨rfl, rfl⟩
  · cases call
    exact ⟨rfl, rfl⟩

/-- A writer that is cut off refuses every statement on its own. -/
theorem insert_of_cutOff (database : Database δ) (rows : List (List Cell))
    (lost : writer.cutOff = true) :
    insert database rows writer = ⟨.error .poolClosed, [], writer⟩ := if_pos lost

theorem insert_of_connected (database : Database δ) (rows : List (List Cell))
    (connected : ¬writer.cutOff = true) :
    insert database rows writer =
      ⟨(database.insert writer.head rows writer.session).1, [],
        writer.onSession (database.insert writer.head rows writer.session).2⟩ := if_neg connected

/-- What became of a statement: the writer refused it on its own, or the database answered it. -/
theorem insert_answered (call : insert database rows writer = ⟨answer, told, after⟩) :
    (writer.cutOff = true ∧ answer = .error .poolClosed ∧ after = writer) ∨
      ∃ session, ¬writer.cutOff = true ∧ after = writer.onSession session ∧
        database.insert writer.head rows writer.session = (answer, session) := by
  by_cases lost : writer.cutOff = true
  · rw [insert_of_cutOff database rows lost] at call
    cases call
    exact .inl ⟨lost, rfl, rfl⟩
  · rw [insert_of_connected database rows lost] at call
    cases call
    exact .inr ⟨_, lost, rfl, rfl⟩

theorem sent_cons (writer : TableWriter δ) (statement : Statement) (later : List Statement) :
    writer.sent (statement :: later) = writer.sent [statement] ++ writer.sent later := by
  unfold sent
  split <;> rfl

/-- A database that keeps record answers like one that does not. -/
theorem insert_recorded (call : insert database rows writer = ⟨answer, told, after⟩)
    (earlier : List Statement) :
    insert database.recorded rows (writer.onSession (writer.session, earlier)) =
      ⟨answer, told,
        after.onSession (after.session, earlier ++ writer.sent [⟨writer.head, rows, answer⟩])⟩ := by
  by_cases lost : writer.cutOff = true
  · rw [insert_of_cutOff database rows lost] at call
    cases call
    have observed := insert_of_cutOff database.recorded rows
      (show (writer.onSession (writer.session, earlier)).cutOff = true from lost)
    rw [observed, sent, if_pos lost, List.append_nil]
  · rw [insert_of_connected database rows lost] at call
    cases call
    have observed := insert_of_connected database.recorded rows
      (show ¬(writer.onSession (writer.session, earlier)).cutOff = true from lost)
    rw [observed, sent, if_neg lost]
    rfl

/-! ## All statements -/

/-- However the database answers, there is a way that a write goes. -/
theorem exists_executes (database : Database δ) (batches : List (List (List Cell)))
    (writer : TableWriter δ) :
    ∃ executed after, Executes database writer batches executed after := by
  induction batches generalizing writer with
  | nil => exact ⟨[], writer, .done writer⟩
  | cons rows rest ih =>
    rcases call : insert database rows writer with ⟨fault | ⟨⟩, told, middle⟩
    · obtain ⟨rfl, -⟩ := insert_keeps call
      exact ⟨_, middle, .refused rest call⟩
    · obtain ⟨rfl, -⟩ := insert_keeps call
      obtain ⟨executed, after, later⟩ := ih middle
      exact ⟨_, after, .accepted call later⟩

namespace Executes

/-- What a write answers, and the writer that it leaves behind. -/
theorem insertAll (executes : Executes database writer batches executed after) :
    (TableWriter.insertAll database batches writer).value = outcome executed ∧
      (TableWriter.insertAll database batches writer).state = after := by
  induction executes with
  | done writer => exact ⟨rfl, rfl⟩
  | refused rest call =>
    simp only [TableWriter.insertAll, Act.bind_run, Act.read, call, Act.tell, Act.pure_run]
    exact ⟨rfl, trivial⟩
  | accepted call later ih =>
    simp only [TableWriter.insertAll, Act.bind_run, Act.read, call, Act.tell]
    exact ih

theorem recorded (executes : Executes database writer batches executed after)
    (earlier : List Statement) :
    Executes database.recorded (writer.onSession (writer.session, earlier)) batches executed
      (after.onSession (after.session, earlier ++ writer.sent executed)) := by
  induction executes generalizing earlier with
  | done writer =>
    rw [sent, ite_self, List.append_nil]
    exact .done _
  | refused rest call => exact .refused rest (insert_recorded call earlier)
  | @accepted writer rows rest middle executed after call later ih =>
    obtain ⟨-, same⟩ := insert_keeps call
    -- The record goes on behind this statement, by a writer that is cut off if this one is.
    have onwards := ih (earlier ++ writer.sent [⟨writer.head, rows, .ok ()⟩])
    have way : middle.sent executed = writer.sent executed := by
      rw [same]
      rfl
    rw [way, List.append_assoc, ← sent_cons] at onwards
    exact .accepted (insert_recorded call earlier) onwards

/-- The statements are for the first slices, in their order. -/
theorem isPrefix (executes : Executes database writer batches executed after) :
    executed.map (·.rows) <+: batches := by
  induction executes with
  | done writer => exact List.nil_prefix
  | refused rest call => exact List.prefix_append [_] rest
  | accepted call later ih => exact List.cons_prefix_cons.mpr ⟨rfl, ih⟩

theorem head_eq (executes : Executes database writer batches executed after) :
    ∀ statement ∈ executed, statement.head = writer.head := by
  induction executes with
  | done writer => exact nofun
  | refused rest call => exact List.forall_mem_singleton.mpr rfl
  | accepted call later ih =>
    obtain ⟨-, same⟩ := insert_keeps call
    rw [same] at ih
    exact List.forall_mem_cons.mpr ⟨rfl, ih⟩

/-- Behind a statement that was refused there is none. -/
theorem front_accepted (executes : Executes database writer batches executed after) :
    ∀ statement ∈ executed.dropLast, statement.answer = .ok () := by
  induction executes with
  | done writer => exact nofun
  | refused rest call => exact nofun
  | @accepted writer rows rest middle executed after call later ih =>
    by_cases final : executed = []
    · rw [final]
      exact nofun
    · rw [List.dropLast_cons_of_ne_nil final]
      exact List.forall_mem_cons.mpr ⟨rfl, ih⟩

/-- Statements change nothing about a writer but its session. -/
theorem after_eq (executes : Executes database writer batches executed after) :
    after = writer.onSession after.session := by
  induction executes with
  | done writer => rfl
  | refused rest call => exact (insert_keeps call).2
  | accepted call later ih =>
    rw [(insert_keeps call).2] at ih
    exact ih

/-- If all statements were accepted, there is one for each slice. -/
theorem rows_eq (executes : Executes database writer batches executed after)
    (accepted : ∀ statement ∈ executed, statement.answer = .ok ()) :
    executed.map (·.rows) = batches := by
  induction executes with
  | done writer => rfl
  | refused rest call => cases accepted _ List.mem_cons_self
  | @accepted writer rows rest middle executed after call later ih =>
    rw [List.map_cons, ih (List.forall_mem_cons.mp accepted).2]

/-- A writer that is cut off hears of no other fault. -/
theorem answers_of_cutOff (executes : Executes database writer batches executed after)
    (lost : writer.cutOff = true) :
    ∀ statement ∈ executed, statement.answer = .error .poolClosed := by
  cases executes with
  | done => exact nofun
  | refused rest call =>
    obtain ⟨-, same, -⟩ | ⟨session, connected, -⟩ := insert_answered call
    · exact List.forall_mem_singleton.mpr same
    · exact absurd lost connected
  | accepted call =>
    obtain ⟨-, refused, -⟩ | ⟨session, connected, -⟩ := insert_answered call
    · cases refused
    · exact absurd lost connected

end Executes

/-- What two statements of a writer insert, one behind the other, one inserts as well. -/
theorem insert_joined (joins : database.Joins writer.head) {more : List (List Cell)}
    (nonempty : rows ≠ []) (others : more ≠ [])
    (call : insert database rows writer = ⟨.ok (), [], middle⟩)
    (later : insert database more middle = ⟨.ok (), [], after⟩) :
    insert database (rows ++ more) writer = ⟨.ok (), [], after⟩ := by
  obtain ⟨-, refused, -⟩ | ⟨session, connected, rfl, first⟩ := insert_answered call
  · cases refused
  · obtain ⟨-, refused, -⟩ | ⟨final, -, rfl, second⟩ := insert_answered later
    · cases refused
    · rw [insert_of_connected database _ connected, joins nonempty others first second]
      rfl

/-- What statements insert that are all accepted, one inserts as well. -/
theorem Executes.joined (executes : Executes database writer batches executed after)
    (joins : database.Joins writer.head) (some : batches ≠ [])
    (nonempty : ∀ rows ∈ batches, rows ≠ [])
    (accepted : ∀ statement ∈ executed, statement.answer = .ok ()) :
    insert database batches.flatten writer = ⟨.ok (), [], after⟩ := by
  induction executes with
  | done writer => exact absurd rfl some
  | refused rest call => cases accepted _ List.mem_cons_self
  | @accepted writer rows rest middle executed after call later ih =>
    obtain ⟨first, others⟩ := List.forall_mem_cons.mp nonempty
    obtain ⟨-, same⟩ := insert_keeps call
    -- The last statement stands for itself, as only statements with rows can be joined.
    by_cases final : rest = []
    · subst final
      cases later
      rwa [List.flatten_singleton]
    · have onwards := ih (same ▸ joins) final others (List.forall_mem_cons.mp accepted).2
      have behind : rest.flatten ≠ [] := by
        obtain ⟨next, rest, rfl⟩ := List.exists_cons_of_ne_nil final
        rw [List.flatten_cons, Ne, List.append_eq_nil_iff]
        exact fun none => others next List.mem_cons_self none.1
      exact insert_joined joins first behind call onwards

theorem outcome_eq_ok : outcome executed = .ok () ↔
    ∀ statement ∈ executed, statement.answer = .ok () := by
  induction executed with
  | nil => exact ⟨fun _ => nofun, fun _ => rfl⟩
  | cons statement later ih =>
    rw [List.forall_mem_cons, ← ih, outcome]
    rcases statement.answer with fault | ⟨⟩
    · simp
    · simp

/-- A write is the insertion of its slices, if there can be any. -/
theorem exists_executes_write (database : Database δ) (bind : ω → List Cell) (items : List ω)
    (room : writer.rowsPerStatement ≠ 0) :
    let slices := slices writer.rowsPerStatement items.length items
    let run := (asWriter database bind).write items writer
    let observed := (asWriter database.recorded bind).write items
      (writer.onSession (writer.session, []))
    ∃ executed, Executes database writer (slices.map (·.map bind)) executed run.state ∧
      run.value = outcome executed ∧ observed.value = run.value ∧
      observed.state = run.state.onSession (run.state.session, writer.sent executed) := by
  intro slices run observed
  have cut : writer.batches? (items.map bind) = some (slices.map (·.map bind)) := by
    rw [batches?, if_neg room, slices_map, List.length_map]
  have cut' : (writer.onSession (writer.session, ([] : List Statement))).batches? (items.map bind) =
    some (slices.map (·.map bind)) := cut
  obtain ⟨executed, after, executes⟩ := exists_executes database (slices.map (·.map bind)) writer
  obtain ⟨value, state⟩ := executes.insertAll
  obtain ⟨value', state'⟩ := (executes.recorded []).insertAll
  have ran : run = insertAll database (slices.map (·.map bind)) writer := write_of_batches cut
  have ran' : observed = insertAll database.recorded (slices.map (·.map bind))
    (writer.onSession (writer.session, [])) := write_of_batches cut'
  rw [ran, ran', state]
  exact ⟨executed, executes, value, value'.trans value.symm, state'⟩

/-- The statements of a write are for consecutive slices of its items, as many in each as fit, with
no statement behind one that is refused. A write whose statements are all accepted does what one
statement for all items would. A database that keeps record of its statements shows which they are;
if the way to it is closed, none reaches it and the first is refused. -/
theorem write_statements (database : Database δ) (bind : ω → List Cell) (items : List ω)
    (writer : TableWriter δ) (positive : 0 < writer.columns.length)
    (narrow : writer.columns.length ≤ bindLimit)
    (even : ∀ item ∈ items, (bind item).length = writer.columns.length) :
    let width := writer.columns.length
    let room := bindLimit / width
    let run := (asWriter database bind).write items writer
    let observed := (asWriter database.recorded bind).write items
      (writer.onSession (writer.session, []))
    ∃ (slices : List (List ω)) (executed : List Statement),
      Cut room items slices ∧
      (∀ count, count * width ≤ bindLimit ↔ count ≤ room) ∧
      observed.value = run.value ∧
      observed.state = run.state.onSession (run.state.session, writer.sent executed) ∧
      (writer.cutOff = true → ∀ statement ∈ executed, statement.answer = .error .poolClosed) ∧
      (∀ statement ∈ executed, statement.head = writer.head ∧
        1 ≤ statement.rows.flatten.length ∧ statement.rows.flatten.length ≤ bindLimit) ∧
      (items = [] → executed = []) ∧
      executed.map (·.rows) <+: slices.map (·.map bind) ∧
      (∀ statement ∈ executed.dropLast, statement.answer = .ok ()) ∧
      (run.value = .ok () ↔ ∀ statement ∈ executed, statement.answer = .ok ()) ∧
      (run.value = .ok () → executed.map (·.rows) = slices.map (·.map bind)) ∧
      (database.Joins writer.head → items ≠ [] → run.value = .ok () →
        insert database (items.map bind) writer = ⟨.ok (), [], run.state⟩) := by
  intro width room run observed
  have some : 0 < writer.rowsPerStatement := Nat.div_pos narrow positive
  let slices := slices writer.rowsPerStatement items.length items
  have cut : Cut room items slices := slices_cut some (Nat.le_refl _)
  obtain ⟨executed, executes, value, same, state⟩ :=
    exists_executes_write database bind items (Nat.ne_of_gt some)
  have accepted : run.value = .ok () ↔ ∀ statement ∈ executed, statement.answer = .ok () := by
    rw [← outcome_eq_ok, ← value]
  have fits : ∀ count, count * width ≤ bindLimit ↔ count ≤ room :=
    fun count => (Nat.le_div_iff_mul_le positive).symm
  -- A row has as many values as there are columns, so a slice has that many for each item.
  have values : ∀ slice ∈ slices, (slice.map bind).flatten.length = slice.length * width := by
    intro slice member
    have each : ∀ count ∈ (slice.map bind).map List.length, count = width := by
      rw [List.map_map, List.forall_mem_map]
      exact fun item inside => even item (cut.subset member inside)
    rw [List.length_flatten, List.eq_replicate_of_mem each, List.sum_replicate_nat,
      List.length_map, List.length_map]
  refine ⟨slices, executed, cut, fits, same, state, executes.answers_of_cutOff, ?_, ?_,
    executes.isPrefix, executes.front_accepted, accepted, ?_, ?_⟩
  · -- The rows of a statement are those of a slice, which is neither empty nor too long.
    intro statement member
    have inside := executes.isPrefix.subset (List.mem_map_of_mem member)
    obtain ⟨slice, sliced, rows⟩ := List.mem_map.mp inside
    obtain ⟨nonempty, short⟩ := cut.within some sliced
    rw [← rows, values slice sliced]
    exact ⟨executes.head_eq statement member, Nat.mul_pos nonempty positive,
      (fits slice.length).mpr short⟩
  · rintro rfl
    exact List.map_eq_nil_iff.mp (List.prefix_nil.mp executes.isPrefix)
  · intro all
    exact executes.rows_eq (accepted.mp all)
  · -- Only statements that insert something can be joined, so no slice may be empty.
    intro joins nonempty all
    have more : slices ≠ [] := by
      intro none
      exact nonempty (by rw [← cut.whole, none, List.flatten_nil])
    have filled : ∀ rows ∈ slices.map (·.map bind), rows ≠ [] := by
      rw [List.forall_mem_map]
      intro slice sliced none
      have some := (cut.within some sliced).1
      rw [List.map_eq_nil_iff.mp none] at some
      exact absurd some (Nat.not_succ_le_zero 0)
    have joined := executes.joined joins (by simpa using more) filled (accepted.mp all)
    rwa [← List.map_flatten, cut.whole] at joined

/-- One note more than fits makes a second statement. One statement for all the notes, if the
database took it, would leave the same behind. -/
theorem write_statements_notes :
    let bind (note : String × Int) : List Cell := [.text note.1, .int note.2]
    let items : List (String × Int) := List.replicate 16384 ("a", 1)
    let run := (asWriter Session.database bind).write items notesWriter
    let observed := (asWriter Session.database.recorded bind).write items
      (notesWriter.onSession (notesWriter.session, []))
    run.value = .ok () ∧
      observed.state.session.2.map (·.rows.length) = [16383, 1] ∧
      insert Session.database (items.map bind) notesWriter = ⟨.ok (), [], run.state⟩ := by
  intro bind items run observed
  have serves := Session.serves notes_unconstrained notes_binds bindLimit
  have stands : Stands (Session.orderedView notes ⟨[some 1, some 0], none⟩) notesWriter.head 2 none
    [] notesWriter := ⟨rfl, rfl, rfl, rfl, ⟨rfl, rfl, rfl⟩, rfl⟩
  have even : ∀ row ∈ items.map bind, row.length = 2 :=
    List.forall_mem_map.mpr fun _ _ => rfl
  have accepted : run.value = .ok () := (stands.write serves (by decide) (by decide) even).1
  obtain ⟨slices, executed, cut, -, -, state, -, -, -, -, -, -, all, joined⟩ :=
    write_statements Session.database bind items notesWriter (by decide) (by decide) fun _ _ => rfl
  have room : bindLimit / notesWriter.columns.length = 16383 := by decide
  have full : items = List.replicate 16383 ("a", 1) ++ [("a", 1)] := List.replicate_succ'
  have two : slices = [List.replicate 16383 ("a", 1), [("a", 1)]] := by
    apply cut.unique
    rw [room, full]
    apply Cut.cons
    · exact List.length_replicate
    · exact List.cons_ne_nil _ _
    · exact .single (Nat.le_refl 1) (by decide)
  have lengths : executed.map (·.rows.length) = [16383, 1] := by
    have each := congrArg (List.map List.length) (all accepted)
    rw [two, List.map_map] at each
    rw [← Function.comp_def List.length Statement.rows, each]
    simp only [List.map_cons, List.map_nil, List.length_map, List.length_replicate,
      List.length_singleton]
  refine ⟨accepted, ?_, joined (Session.joins _) ?_ accepted⟩
  · rw [state]
    exact lengths
  · rw [full]
    exact List.append_ne_nil_of_right_ne_nil _ (List.cons_ne_nil _ _)

end TableWriter

end Batchwork
