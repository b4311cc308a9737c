import Batchwork.Table.Database
import Mathlib.Data.List.Forall2
import Mathlib.Algebra.Order.Group.Multiset

/-!
# Lawful databases

What one may rely on in a database that somebody else has written: a statement inserts all of its
rows or none, and a transaction that is rolled back, given up or cannot be committed leaves the rows
that were there when it began. The database of the sessions keeps these laws whatever the
constraints of the schema are, also when it ends a transaction on its own: `Session.lawful`.
-/

namespace Batchwork.Table

variable {δ ρ : Type}

/-- What succeeds one behind the other has succeeded each. -/
theorem bind_eq_ok {ε α β : Type} {first : Except ε α} {next : α → Except ε β} {result : β} :
    first >>= next = .ok result ↔ ∃ value, first = .ok value ∧ next value = .ok result := by
  cases first <;> simp [bind, Except.bind]

namespace Database

/-- How a database looks from outside: the rows of its table, in no order, and the transaction that
a session believes to be in. -/
structure View (δ ρ : Type) where
  rows : δ → Multiset ρ
  idle : δ → Prop
  /-- A transaction is neither committed nor given up that began when the table held these rows. -/
  within : Multiset ρ → δ → Prop
  /-- The database has not ended the transaction on its own. -/
  active : δ → Prop
  /-- A row that a statement with some head makes of values. -/
  stores : String → List Cell → ρ → Prop

/-- Between two contents of a table lies one row for each of the values. -/
def View.Gains (view : View δ ρ) (head : String) (values : List (List Cell))
    (before after : Multiset ρ) : Prop :=
  ∃ added : List ρ, List.Forall₂ (view.stores head) values added ∧ after = before + added

structure Lawful (database : Database δ) (view : View δ ρ) : Prop where
  begun : ∀ {session after}, view.idle session → database.begin session = (.ok (), after) →
    view.within (view.rows session) after ∧ view.active after ∧
      view.rows after = view.rows session
  notBegun : ∀ {session fault after}, view.idle session →
    database.begin session = (.error fault, after) → view.rows after = view.rows session
  inserted : ∀ {before session head values after}, view.within before session →
    view.active session → database.insert head values session = (.ok (), after) →
      view.within before after ∧ view.active after ∧
        view.Gains head values (view.rows session) (view.rows after)
  refused : ∀ {before session head values fault after}, view.within before session →
    view.active session → database.insert head values session = (.error fault, after) →
      view.within before after
  committed : ∀ {before session after}, view.within before session → view.active session →
    database.commit session = (.ok (), after) →
      view.idle after ∧ view.rows after = view.rows session
  notCommitted : ∀ {before session fault after}, view.within before session →
    view.active session → database.commit session = (.error fault, after) →
      view.within before after
  rolledBack : ∀ {before session after}, view.within before session →
    database.rollback session = (.ok (), after) → view.rows after = before
  notRolledBack : ∀ {before session fault after}, view.within before session →
    database.rollback session = (.error fault, after) → view.within before after
  abandoned : ∀ {before session}, view.within before session →
    view.rows (database.abandon session) = before

namespace View.Gains

variable {view : View δ ρ} {head : String} {values later : List (List Cell)}
  {before middle after : Multiset ρ}

theorem refl (before : Multiset ρ) : view.Gains head [] before before :=
  ⟨[], .nil, (add_zero before).symm⟩

theorem trans (first : view.Gains head values before middle)
    (second : view.Gains head later middle after) :
    view.Gains head (values ++ later) before after := by
  obtain ⟨added, stored, rfl⟩ := first
  obtain ⟨more, others, rfl⟩ := second
  refine ⟨added ++ more, List.rel_append stored others, ?_⟩
  rw [← Multiset.coe_add, add_assoc]

theorem eq_of_nil (gains : view.Gains head [] before after) : after = before := by
  obtain ⟨added, stored, rfl⟩ := gains
  cases stored
  exact add_zero before

theorem card_eq (gains : view.Gains head values before after) :
    after.card = before.card + values.length := by
  obtain ⟨added, stored, rfl⟩ := gains
  rw [Multiset.card_add, Multiset.coe_card, stored.length_eq]

end View.Gains

end Database

/-! ## The database of the sessions -/

namespace Rows

/-- Inserting row after row puts one row for each of the values in front. -/
theorem insertIndexed_ok {schema : Schema} {binding : Binding} {index : Index} {rows after : Rows}
    {values : List (List Cell)}
    (inserted : insertIndexed schema binding index rows values = .ok after) :
    ∃ added, List.Forall₂ (fun values row => ∃ index, newRow schema binding index values = .ok row)
      values added ∧ after = added.reverse ++ rows := by
  induction values generalizing index rows with
  | nil =>
    cases inserted
    exact ⟨[], .nil, rfl⟩
  | cons first rest ih =>
    rw [insertIndexed] at inserted
    cases made : newRow schema binding index first with
    | error refusal =>
      rw [made] at inserted
      cases inserted
    | ok row =>
      rw [made] at inserted
      obtain ⟨added, stored, rfl⟩ := ih inserted
      exact ⟨row :: added, .cons ⟨index, made⟩ stored, by simp⟩

end Rows

namespace Session

/-- A row that a statement with some head makes of values, with some index of the keys so far. -/
def Stores (schema : Schema) (head : String) (values : List Cell) (row : Row) : Prop :=
  ∃ counts statement binding index, Insert.parse head counts = .ok statement ∧
    Binding.addAll schema statement.table 0 (Binding.none schema) statement.columns = .ok binding ∧
    Rows.newRow schema binding index values = .ok row

/-- The transaction that began when the table held `before`, or what is left of it: the database may
have ended it and taken back what it did. -/
inductive Within (before : Multiset Row) (session : Session) : Prop
  | opened (savepoint : Savepoint) (only : session.savepoints = [savepoint])
      (depth : session.depth = savepoint.depth + 1)
      (began : (savepoint.before : Multiset Row) = before)
  | takenBack (empty : session.savepoints = []) (rows : (session.rows : Multiset Row) = before)

/-- The table of one schema. -/
def view (schema : Schema) : Database.View Session Row where
  rows session := session.rows
  idle session := session.schema = schema ∧ session.savepoints = []
  within before session := session.schema = schema ∧ session.Within before
  active session := session.savepoints ≠ []
  stores := Stores schema

variable {schema : Schema} {session after : Session} {before : Multiset Row} {fault : Fault}

theorem answered_ok {answer : Except Fault Session}
    (call : answered session answer = (.ok (), after)) : answer = .ok after := by
  cases answer <;> cases call
  rfl

theorem answered_error {answer : Except Fault Session}
    (call : answered session answer = (.error fault, after)) : after = session := by
  cases answer <;> cases call
  rfl

/-- A session outside of a transaction always begins one. -/
theorem begin_eq (idle : session.savepoints = []) :
    session.begin = .ok { session with
      savepoints := [⟨session.depth, session.rows⟩], depth := session.depth + 1 } := by
  simp [begin, settled, idle]

/-- What a refused statement leaves, whatever it undoes. -/
theorem Within.undo (within : session.Within before) (active : session.savepoints ≠ [])
    (resolution : Resolution) : (session.undo resolution).Within before := by
  cases within with
  | opened savepoint only depth began =>
    cases resolution with
    | abort => exact .opened savepoint only depth began
    | rollback =>
      -- The database takes back all, which is what the one transaction did.
      refine .takenBack rfl ?_
      simpa [Session.undo, outermost, only] using began
  | takenBack empty => exact absurd empty active

/-- Of the one open transaction everything is taken back. -/
theorem rollback_of_opened {savepoint : Savepoint} (only : session.savepoints = [savepoint])
    (depth : session.depth = savepoint.depth + 1) :
    ∃ after, session.rollback = .ok after ∧ after.rows = savepoint.before := by
  by_cases outer : session.depth ≤ 1
  · refine ⟨{ session with rows := session.outermost, savepoints := [], depth := 0 }, ?_, ?_⟩
    · simp [rollback, outer, settled, only]
    · simp [outermost, only]
  · have current : session.current? = some (savepoint, []) := by simp [current?, only, depth]
    refine ⟨{ session with
      rows := savepoint.before, savepoints := [savepoint], depth := session.depth - 1 }, ?_, rfl⟩
    simp [rollback, outer, current]

/-- What the database has taken back itself cannot be taken back again. -/
theorem rollback_of_empty (empty : session.savepoints = []) (after : Session) :
    session.rollback ≠ .ok after := by
  intro ended
  by_cases outer : session.depth ≤ 1
  · simp [rollback, outer, settled, empty] at ended
  · simp [rollback, outer, current?, empty] at ended

theorem Within.rollback_ok (within : session.Within before) (ended : session.rollback = .ok after) :
    (after.rows : Multiset Row) = before := by
  cases within with
  | opened savepoint only depth began =>
    obtain ⟨restored, rollback, rows⟩ := rollback_of_opened only depth
    cases ended.symm.trans rollback
    rw [rows, began]
  | takenBack empty rows => exact absurd ended (rollback_of_empty empty after)

theorem Within.abandon (within : session.Within before) :
    (session.abandon.rows : Multiset Row) = before := by
  unfold Session.abandon
  split
  case h_1 after ended => exact within.rollback_ok ended
  case h_2 fault refused =>
    cases within with
    | opened savepoint only depth began =>
      obtain ⟨restored, rollback, -⟩ := rollback_of_opened only depth
      cases refused.symm.trans rollback
    | takenBack empty rows => exact rows

/-- A commit ends the one open transaction with the rows that are there by then. -/
theorem Within.commit_ok (within : session.Within before) (active : session.savepoints ≠ [])
    (ended : session.commit = .ok after) :
    after.schema = session.schema ∧ after.savepoints = [] ∧ after.rows = session.rows := by
  cases within with
  | opened savepoint only depth began =>
    have current : session.current? = some (savepoint, []) := by simp [current?, only, depth]
    unfold Session.commit at ended
    -- The outermost transaction and a savepoint within it are ended by different statements.
    split at ended
    · split at ended
      · cases ended
      · split at ended
        · cases ended
        · cases ended
          exact ⟨rfl, rfl, rfl⟩
    · rw [current] at ended
      simp only at ended
      split at ended
      · cases ended
      · cases ended
        exact ⟨rfl, rfl, rfl⟩
  | takenBack empty => exact absurd empty active

/-- A statement is accepted for its text if that can be read and names the table and its columns,
as many as there are values in the first row. -/
theorem prepare_eq_ok {head : String} {values : List (List Cell)} {binding : Binding} :
    session.prepare head values = .ok binding ↔
      ∃ statement, Insert.parse head (values.map (·.length)) = .ok statement ∧
        session.findTable statement = .ok () ∧
        Binding.addAll session.schema statement.table 0 (Binding.none session.schema)
          statement.columns = .ok binding ∧
        (values.head?.map (·.length)).getD 0 = statement.columns.length := by
  constructor
  · intro prepared
    obtain ⟨statement, parsed, prepared⟩ := bind_eq_ok.mp prepared
    obtain ⟨⟨⟩, found, prepared⟩ := bind_eq_ok.mp prepared
    obtain ⟨named, bound, prepared⟩ := bind_eq_ok.mp prepared
    refine ⟨statement, parsed, found, ?_⟩
    dsimp only at prepared
    split at prepared
    · cases prepared
    case isFalse same =>
      cases prepared
      exact ⟨bound, of_not_not same⟩
  · rintro ⟨statement, parsed, found, bound, same⟩
    simp [prepare, parsed, found, bound, same, bind, Except.bind, pure, Except.pure]

/-- What has become of a statement that was accepted. -/
theorem insert_eq_ok {head : String} {values : List (List Cell)} :
    session.insert head values = (.ok (), after) ↔
      ∃ binding rows, session.prepare head values = .ok binding ∧
        session.rows.insertAll session.schema binding values = .ok rows ∧
        (session.settled = true → rows.referencesHold session.schema = true) ∧
        after = { session with rows } := by
  constructor
  · intro inserted
    unfold Session.insert at inserted
    split at inserted
    case h_1 => cases inserted
    case h_2 binding prepared =>
      split at inserted
      case h_1 => cases inserted
      case h_2 rows accepted =>
        split at inserted
        · cases inserted
        case isFalse held =>
          cases inserted
          exact ⟨binding, rows, prepared, accepted, by simpa using held, rfl⟩
  · rintro ⟨binding, rows, prepared, accepted, held, rfl⟩
    have passes : ¬(session.settled && !rows.referencesHold session.schema) = true := by
      simpa using held
    simp only [Session.insert, prepared, accepted, if_neg passes]

/-- A row that is refused takes back its statement, or more. -/
theorem insert_of_refusal {head : String} {values : List (List Cell)} {binding : Binding}
    {refusal : Refusal} (prepared : session.prepare head values = .ok binding)
    (refused : session.rows.insertAll session.schema binding values = .error refusal) :
    session.insert head values = (.error refusal.fault, session.undo refusal.resolution) := by
  simp only [Session.insert, prepared, refused]

/-- A statement that is accepted adds one row for each of the values. -/
theorem insert_ok {head : String} {values : List (List Cell)}
    (inserted : session.insert head values = (.ok (), after)) :
    ∃ added, List.Forall₂ (Stores session.schema head) values added ∧
      after = { session with rows := added.reverse ++ session.rows } := by
  obtain ⟨binding, rows, prepared, accepted, -, rfl⟩ := insert_eq_ok.mp inserted
  obtain ⟨statement, parsed, -, bound, -⟩ := prepare_eq_ok.mp prepared
  obtain ⟨added, stored, rfl⟩ := Rows.insertIndexed_ok accepted
  refine ⟨added, ?_, rfl⟩
  exact stored.imp fun _ _ ⟨index, made⟩ => ⟨_, statement, binding, index, parsed, bound, made⟩

/-- A statement that is refused leaves of a transaction what a refused statement undoes. -/
theorem Within.insert_error {head : String} {values : List (List Cell)}
    (within : session.Within before) (active : session.savepoints ≠ [])
    (refused : session.insert head values = (.error fault, after)) :
    after.schema = session.schema ∧ after.Within before := by
  unfold Session.insert at refused
  split at refused
  · cases refused
    exact ⟨rfl, within⟩
  · split at refused
    case h_1 binding prepared refusal _ =>
      cases refused
      refine ⟨?_, within.undo active refusal.resolution⟩
      cases refusal.resolution <;> rfl
    · split at refused
      · cases refused
        exact ⟨rfl, within⟩
      · cases refused

/-- The database of the sessions is lawful for every schema. -/
theorem lawful (schema : Schema) : database.Lawful (view schema) where
  begun := by
    rintro session after ⟨same, idle⟩ call
    have begun := (answered_ok call).symm.trans (begin_eq idle)
    cases begun
    exact ⟨⟨same, .opened _ rfl rfl rfl⟩, List.cons_ne_nil _ _, rfl⟩
  notBegun := by
    rintro session fault after idle call
    rw [answered_error call]
  inserted := by
    rintro before session head values after ⟨rfl, within⟩ active call
    obtain ⟨added, stored, rfl⟩ := insert_ok call
    refine ⟨⟨rfl, ?_⟩, active, added, stored, ?_⟩
    · cases within with
      | opened savepoint only depth began => exact .opened savepoint only depth began
      | takenBack empty => exact absurd empty active
    · -- The newest row stands first, but a table has no order.
      rw [add_comm]
      simp [view, ← Multiset.coe_add, Multiset.coe_reverse]
  refused := by
    rintro before session head values fault after ⟨rfl, within⟩ active call
    exact within.insert_error active call
  committed := by
    rintro before session after ⟨rfl, within⟩ active call
    obtain ⟨same, idle, rows⟩ := within.commit_ok active (answered_ok call)
    exact ⟨⟨same, idle⟩, congrArg Multiset.ofList rows⟩
  notCommitted := by
    rintro before session fault after within active call
    rw [answered_error call]
    exact within
  rolledBack := by
    rintro before session after ⟨-, within⟩ call
    exact within.rollback_ok (answered_ok call)
  notRolledBack := by
    rintro before session fault after within call
    rw [answered_error call]
    exact within
  abandoned := fun within => within.2.abandon

end Session

end Batchwork.Table
