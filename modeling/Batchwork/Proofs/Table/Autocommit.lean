import Batchwork.Proofs.Table.Statements
import Batchwork.Rehearsal.Samples

/-!
# Writes outside of a transaction

Outside of a transaction the database commits each statement by itself. A write that takes more than
one statement, of which a later one is refused, has then stored the slices before and nothing behind
them; only a write that fits into one statement stores all of its items or none. Main statement:
`write_outside`.
-/

namespace Batchwork

open Table

variable {δ ρ ω : Type}

/-- A database that makes each statement permanent by itself, as long as no transaction is open. One
that is refused inserts none of its rows. -/
structure Table.Database.Autocommits (database : Database δ) (view : Database.View δ ρ) : Prop where
  inserted : ∀ {session head values after}, view.idle session →
    database.insert head values session = (.ok (), after) →
      view.idle after ∧ view.Gains head values (view.rows session) (view.rows after)
  refused : ∀ {session head values fault after}, view.idle session →
    database.insert head values session = (.error fault, after) →
      view.idle after ∧ view.rows after = view.rows session

/-- There is nothing to roll back but the statement itself. -/
theorem Table.Session.undo_of_idle {session : Session} (idle : session.savepoints = [])
    (resolution : Resolution) : session.undo resolution = session := by
  cases resolution with
  | abort => rfl
  | rollback =>
    obtain ⟨schema, rows, savepoints, depth⟩ := session
    cases idle
    rfl

theorem Table.Session.autocommits (schema : Schema) :
    database.Autocommits (view schema) where
  inserted := by
    rintro session head values after ⟨rfl, idle⟩ call
    obtain ⟨added, stored, rfl⟩ := insert_ok call
    refine ⟨⟨rfl, idle⟩, added, stored, ?_⟩
    rw [add_comm]
    simp [view, ← Multiset.coe_add, Multiset.coe_reverse]
  refused := by
    rintro session head values fault after ⟨rfl, idle⟩ call
    -- The statement is refused before any row, at one of its rows, or for a reference in the end.
    have same : after = session := by
      change session.insert head values = _ at call
      unfold Session.insert at call
      split at call
      · cases call
        rfl
      · split at call
        · cases call
          exact undo_of_idle idle _
        · split at call
          · cases call
            rfl
          · cases call
    rw [same]
    exact ⟨⟨rfl, idle⟩, rfl⟩

namespace TableWriter

variable {database : Database δ} {view : Database.View δ ρ} {writer after : TableWriter δ}
  {batches : List (List (List Cell))} {executed : List Statement}

/-- What statements outside of a transaction leave: the rows of those that were accepted. -/
theorem Executes.gains (executes : Executes database writer batches executed after)
    (autocommits : database.Autocommits view) (outside : writer.inTransaction = false)
    (idle : view.idle writer.session) :
    after.inTransaction = false ∧ view.idle after.session ∧
    ∃ stored left, batches = stored ++ left ∧
      view.Gains writer.head stored.flatten (view.rows writer.session) (view.rows after.session) ∧
      ((∀ statement ∈ executed, statement.answer = .ok ()) ↔ left = []) := by
  induction executes with
  | done writer => exact ⟨outside, idle, [], [], rfl, .refl _, fun _ => rfl, fun _ => nofun⟩
  | @refused writer rows fault after rest call =>
    obtain ⟨-, -, rfl⟩ | ⟨session, -, rfl, made⟩ := insert_answered call
    · refine ⟨outside, idle, [], rows :: rest, rfl, .refl _, ?_⟩
      simp
    · -- What was accepted before is permanent, so a refusal has nothing to take back.
      obtain ⟨idle, same⟩ := autocommits.refused idle made
      refine ⟨outside, idle, [], rows :: rest, rfl, ?_, ?_⟩
      · exact same ▸ .refl _
      · simp
  | @accepted writer rows rest middle executed after call later ih =>
    obtain ⟨-, refused, -⟩ | ⟨session, -, rfl, made⟩ := insert_answered call
    · cases refused
    · obtain ⟨idle, gains⟩ := autocommits.inserted idle made
      obtain ⟨outside, idle, stored, left, rfl, more, all⟩ := ih outside idle
      refine ⟨outside, idle, rows :: stored, left, rfl, gains.trans more, ?_⟩
      simpa using all

/-- What a write outside of a transaction leaves. If it fails, the items of some full slices have
their rows, and the others have none: no items if all of them fit into one statement. -/
theorem write_outside (autocommits : database.Autocommits view) (bind : ω → List Cell)
    (items : List ω) (writer : TableWriter δ) (outside : writer.inTransaction = false)
    (idle : view.idle writer.session) :
    let room := bindLimit / writer.columns.length
    let run := (asWriter database bind).write items writer
    let before := view.rows writer.session
    let after := view.rows run.state.session
    run.state.inTransaction = false ∧ view.idle run.state.session ∧
    (run.value = .ok () → view.Gains writer.head (items.map bind) before after) ∧
    ∀ error, run.value = .error error →
      (∃ done rest, items = done ++ rest ∧ room ∣ done.length ∧ (0 < room → rest ≠ []) ∧
        view.Gains writer.head (done.map bind) before after) ∧
      (items.length ≤ room → after = before) := by
  intro room run before after
  by_cases wide : writer.rowsPerStatement = 0
  · -- There are no slices of no rows, so the database is not asked for anything.
    have stopped : run =
        ⟨.error (.itemWriter emptySlices), [], { writer with stopped := emptySlices }⟩ := by
      simp [run, asWriter, write, Act.read, Act.modify, batches?, wide]
    have same : after = before := by simp only [after, before, stopped]
    have none : ¬0 < room := Nat.not_lt.mpr (Nat.le_of_eq wide)
    rw [stopped, same]
    refine ⟨outside, idle, ?_, ?_⟩
    · intro accepted
      cases accepted
    · intro error _
      refine ⟨⟨[], items, rfl, Nat.dvd_zero room, ?_, .refl _⟩, fun _ => rfl⟩
      exact fun some => absurd some none
  · obtain ⟨executed, executes, value, -, -⟩ := exists_executes_write database bind items wide
    have cut : Cut room items (slices room items.length items) :=
      slices_cut (Nat.pos_of_ne_zero wide) (Nat.le_refl _)
    obtain ⟨outside, idle, stored, left, split, gains, all⟩ :=
      executes.gains autocommits outside idle
    rw [← outcome_eq_ok, ← value] at all
    obtain ⟨front, behind, pieces, rfl, rfl⟩ := List.map_eq_append_iff.mp split
    rw [show slices room items.length items = front ++ behind from pieces] at cut
    rw [← List.map_flatten] at gains
    refine ⟨outside, idle, ?_, ?_⟩
    · intro accepted
      rw [List.map_eq_nil_iff.mp (all.mp accepted), List.append_nil] at cut
      rwa [cut.whole] at gains
    · intro error refused
      have more : behind ≠ [] := by
        rintro rfl
        rw [all.mpr rfl] at refused
        cases refused
      have full := cut.dvd_front more
      have whole : items = front.flatten ++ behind.flatten := by
        rw [← cut.whole, List.flatten_append]
      have missing := cut.behind_ne_nil more
      refine ⟨⟨_, _, whole, full, fun _ => missing, gains⟩, ?_⟩
      intro short
      have length := congrArg List.length whole
      have others := List.length_pos_iff.mpr missing
      rw [List.length_append] at length
      -- Only full slices are stored, and if all items fit into one slice there is none in front.
      have nothing := Nat.eq_zero_of_dvd_of_lt full (by omega)
      rw [List.eq_nil_of_length_eq_zero nothing] at gains
      exact gains.eq_of_nil

/-! ## A user behind the first slice whose number is taken -/

/-- The row of the user with a number. -/
def person (id : Int) : List Cell :=
  [.int id, .text s!"User {id}", .text s!"user{id}@example.com"]

/-- A writer of users over a table that has one. -/
def crowded : TableWriter Session :=
  { session := { schema := Rehearsal.users, rows := [⟨1, person 10923⟩] }
    table := "users"
    columns := ["id", "name", "username"] }

/-- As many users as one statement has room for. -/
def newcomers : List Int := (List.range 10922).map fun n : Nat => n + 1

theorem users_permissive : Rehearsal.users.Permissive where
  keyless := rfl
  nullable := by decide
  unreferring := by decide

theorem users_binds :
    Session.Binds Rehearsal.users crowded.head 3 ⟨[some 0, some 1, some 2], none⟩ where
  readable := by decide +kernel
  prepared := by decide +kernel
  keyless := rfl

theorem image_person (id : Int) :
    Rows.image Rehearsal.users ⟨[some 0, some 1, some 2], none⟩ (person id) = person id := rfl

/-- Users with different numbers differ. -/
theorem person_differ {id other : Int} (different : id ≠ other) :
    Rows.Differ Rehearsal.users (person id) (person other) := by
  intro number column found unique same
  match number with
  | 0 => exact different (Cell.int.inj (Option.some.inj same))
  | 1 | 2 =>
    cases found
    exact unique rfl
  | number + 3 => cases found

theorem newcomers_distinct : newcomers.Nodup := by
  apply List.nodup_range.map
  intro first second same
  dsimp only at same
  omega

/-- None of the newcomers is there already. -/
theorem newcomers_free {id : Int} (member : id ∈ newcomers) : (10923 : Int) ≠ id := by
  obtain ⟨n, bound, rfl⟩ := List.mem_map.mp member
  rw [List.mem_range] at bound
  omega

theorem newcomers_accepted :
    ∃ rows : Rows, rows.contents = person 10923 :: newcomers.map person ∧
      insert Session.database (newcomers.map person) crowded =
        ⟨.ok (), [], crowded.onSession { crowded.session with rows }⟩ := by
  have images : (newcomers.map person).map
      (Rows.image Rehearsal.users ⟨[some 0, some 1, some 2], none⟩) = newcomers.map person := by
    rw [List.map_map]
    exact List.map_congr_left fun id _ => image_person id
  have nonempty : newcomers.map person ≠ [] := by
    rw [Ne, List.map_eq_nil_iff, newcomers, List.map_eq_nil_iff, List.range_eq_nil]
    decide
  have even : ∀ row ∈ newcomers.map person, row.length = 3 :=
    List.forall_mem_map.mpr fun _ _ => rfl
  have apart : (newcomers.map person).Pairwise (Rows.Differ Rehearsal.users) :=
    List.Pairwise.map person (fun _ _ => person_differ) newcomers_distinct
  have known : ∀ row ∈ crowded.session.rows, ∀ cells ∈ newcomers.map person,
      Rows.Differ Rehearsal.users row.cells cells := by
    rw [crowded, List.forall_mem_singleton, List.forall_mem_map]
    exact fun id member => person_differ (newcomers_free member)
  rw [← images] at apart known
  obtain ⟨rows, inserted, contents⟩ := Session.insert_of_new users_permissive users_binds
    (show crowded.session.schema = Rehearsal.users from rfl) nonempty even apart known
  have start : crowded.session.rows.contents = [person 10923] := rfl
  rw [images, start, List.singleton_append] at contents
  refine ⟨rows, contents, ?_⟩
  rw [insert_of_connected Session.database _ (show ¬crowded.cutOff = true from Bool.false_ne_true)]
  have answer : Session.database.insert crowded.head (newcomers.map person) crowded.session =
    (.ok (), { crowded.session with rows }) := inserted
  rw [answer]

theorem taken_refused {rows : Rows} (taken : person 10923 ∈ rows.contents) :
    let writer := crowded.onSession { crowded.session with rows }
    insert Session.database [person 10923] writer =
      ⟨.error (.uniqueKey "users" "id"), [], writer⟩ := by
  intro writer
  have prepared : writer.session.prepare crowded.head [person 10923] =
      .ok ⟨[some 0, some 1, some 2], none⟩ :=
    users_binds.prepare rfl (List.cons_ne_nil _ _) (List.forall_mem_singleton.mpr rfl)
  obtain ⟨row, member, cells⟩ := List.mem_map.mp taken
  -- The number stands in a column that is unique, and the index of that column has it.
  have found : (Index.ofRows rows).hasValue 0 (.int 10923) = true := by
    rw [Index.hasValue_ofRows, List.any_eq_true]
    refine ⟨row, List.mem_reverse.mp member, ?_⟩
    rw [cells]
    rfl
  have refused : rows.insertAll Rehearsal.users ⟨[some 0, some 1, some 2], none⟩
      [person 10923] = .error ⟨.uniqueKey "users" "id", .abort⟩ := by
    rw [Rows.insertAll, Rows.insertIndexed, Rows.newRow_of_permissive users_permissive rfl,
      image_person]
    simp [Rows.checkUnique, Rehearsal.users, person, found, bind, Except.bind]
  have answer : Session.database.insert writer.head [person 10923] writer.session =
      (.error (.uniqueKey "users" "id"), writer.session) :=
    Session.insert_of_refusal prepared refused
  rw [insert_of_connected Session.database _ (show ¬writer.cutOff = true from Bool.false_ne_true),
    answer]
  rfl

/-- The newcomers, and behind them the user who is there already. -/
def crowd : List Int := newcomers ++ [10923]

/-- The newcomers make the first statement, which is accepted, and the last user the second. -/
theorem crowd_written :
    ∃ error rows, (write Session.database (crowd.map person) crowded).value = .error error ∧
      (write Session.database (crowd.map person) crowded).state =
        crowded.onSession { crowded.session with rows } ∧
      rows.contents = person 10923 :: newcomers.map person := by
  obtain ⟨rows, contents, accepted⟩ := newcomers_accepted
  have refused := taken_refused (contents ▸ List.mem_cons_self)
  have room : crowded.rowsPerStatement = 10922 := by decide
  have cut : Cut crowded.rowsPerStatement (crowd.map person)
      [newcomers.map person, [person 10923]] := by
    rw [room, crowd, List.map_append]
    apply Cut.cons
    · rw [List.length_map, newcomers, List.length_map, List.length_range]
    · exact List.cons_ne_nil _ _
    · exact .single (Nat.le_refl 1) (by decide)
  have batches : crowded.batches? (crowd.map person) =
      some [newcomers.map person, [person 10923]] := by
    have some : crowded.rowsPerStatement ≠ 0 := by decide
    rw [batches?, if_neg some]
    exact congrArg _ ((slices_cut (Nat.pos_of_ne_zero some) (Nat.le_refl _)).unique cut)
  obtain ⟨value, state⟩ := (Executes.accepted accepted (.refused [] refused)).insertAll
  rw [write_of_batches batches]
  exact ⟨_, rows, value, state, contents⟩

/-- A full slice of the crowd has its rows though the write has failed. -/
theorem write_outside_crowd :
    let run := (asWriter Session.database person).write crowd crowded
    crowded.inTransaction = false ∧ (Session.view Rehearsal.users).idle crowded.session ∧
    ∃ done rest, crowd = done ++ rest ∧ 10922 ∣ done.length ∧ rest ≠ [] ∧
      run.state.session.rows.length = 1 + done.length := by
  intro run
  have idle : (Session.view Rehearsal.users).idle crowded.session := ⟨rfl, rfl⟩
  obtain ⟨error, rows, refused, -, -⟩ := crowd_written
  obtain ⟨-, -, -, failed⟩ :=
    write_outside (Session.autocommits Rehearsal.users) person crowd crowded rfl idle
  obtain ⟨⟨done, rest, whole, full, missing, gains⟩, -⟩ := failed _ refused
  have card := gains.card_eq
  simp only [Session.view, Multiset.coe_card, List.length_map] at card
  refine ⟨rfl, idle, done, rest, whole, full, missing (by decide), ?_⟩
  rw [card, show crowded.session.rows.length = 1 from rfl]

/-- A write that fails outside of a transaction may leave rows behind: of ten thousand nine hundred
and twenty-three users the last is refused, and all others are there. -/
theorem crowd_not_atomic :
    let run := (asWriter Session.database person).write crowd crowded
    crowded.inTransaction = false ∧ (∃ error, run.value = .error error) ∧
      crowded.session.rows.length = 1 ∧ run.state.session.rows.length = 10923 := by
  intro run
  obtain ⟨error, rows, refused, state, contents⟩ := crowd_written
  have length : rows.length = 10923 := by
    have counted := congrArg List.length contents
    rw [Rows.contents, List.length_map, List.length_reverse, List.length_cons, List.length_map,
      newcomers, List.length_map, List.length_range] at counted
    exact counted
  have left : run.state = crowded.onSession { crowded.session with rows } := state
  refine ⟨rfl, ⟨error, refused⟩, rfl, ?_⟩
  rw [left]
  exact length

end TableWriter

end Batchwork
