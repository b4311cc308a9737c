import Batchwork.Proofs.Table.LawfulDatabase
import Batchwork.Proofs.Table.PlainTables

/-!
# Joined statements

Rows that a database accepts by two statements, one behind the other, it accepts by one statement as
well, and holds the same afterwards. In the database of the sessions that is so whatever the
constraints of the schema are, and whatever the statements are made of: `Session.joins`.
-/

namespace Batchwork.Table

/-! ## Statements that were accepted -/

namespace Insert

variable {text name word first table : String} {counts : List Nat} {count : Nat}
  {input left : Input} {columns : List String} {database : Option String} {statement : Insert}

/-- Reading a part of a statement does not touch the fault at its end. -/
theorem expectMark_fault (found : expectMark text input = .ok left) : left.2 = input.2 := by
  unfold expectMark at found
  split at found
  · split at found
    · cases found
      rfl
    · cases found
  · cases found

theorem expectWord_fault (found : expectWord word input = .ok left) : left.2 = input.2 := by
  unfold expectWord at found
  split at found
  · split at found
    · cases found
      rfl
    · cases found
  · cases found

theorem expectName_fault (found : expectName input = .ok (name, left)) : left.2 = input.2 := by
  unfold expectName at found
  split at found
  · split at found
    · cases found
      rfl
    · cases found
  · cases found

theorem names_fault {fuel : Nat} (found : names fuel input = .ok (columns, left)) :
    left.2 = input.2 := by
  induction fuel generalizing input columns left with
  | zero => cases found
  | succ fuel ih =>
    obtain ⟨⟨name, behind⟩, named, found⟩ := bind_eq_ok.mp found
    have same := expectName_fault named
    dsimp only at found
    split at found
    case h_1 rest fault =>
      obtain ⟨⟨others, after⟩, more, found⟩ := bind_eq_ok.mp found
      cases found
      exact (ih more).trans same
    case h_2 =>
      obtain ⟨after, closed, found⟩ := bind_eq_ok.mp found
      cases found
      exact (expectMark_fault closed).trans same

theorem qualified_fault (found : qualified first input = .ok (database, table, left)) :
    left.2 = input.2 := by
  unfold qualified at found
  split at found
  · obtain ⟨⟨name, after⟩, named, found⟩ := bind_eq_ok.mp found
    cases found
    exact (expectName_fault named).trans rfl
  · cases found
    rfl

theorem afterAlias_fault (found : afterAlias input = .ok left) : left.2 = input.2 := by
  unfold afterAlias at found
  split at found
  · split at found
    · obtain ⟨⟨name, after⟩, named, found⟩ := bind_eq_ok.mp found
      cases found
      exact (expectName_fault named).trans rfl
    · cases found
      rfl
  · cases found
    rfl

/-- A statement that is accepted can be read to its end, and its rows have all the same width. -/
theorem parse_ok (accepted : parse text counts = .ok statement) :
    (Token.tokenize (rowsText counts) (text.length + 1) text.toList).2 = none ∧
      checkRows none counts = .ok () := by
  obtain ⟨_, insert, accepted⟩ := bind_eq_ok.mp accepted
  obtain ⟨_, into, accepted⟩ := bind_eq_ok.mp accepted
  obtain ⟨⟨_, _⟩, named, accepted⟩ := bind_eq_ok.mp accepted
  obtain ⟨⟨_, _, _⟩, qualified, accepted⟩ := bind_eq_ok.mp accepted
  obtain ⟨_, renamed, accepted⟩ := bind_eq_ok.mp accepted
  obtain ⟨_, opened, accepted⟩ := bind_eq_ok.mp accepted
  obtain ⟨⟨_, _⟩, listed, accepted⟩ := bind_eq_ok.mp accepted
  obtain ⟨left, values, accepted⟩ := bind_eq_ok.mp accepted
  obtain ⟨_, even, accepted⟩ := bind_eq_ok.mp accepted
  refine ⟨?_, even⟩
  -- Every part has passed on the fault it was given, which was none in the end.
  rw [← expectWord_fault insert, ← expectWord_fault into, ← expectName_fault named,
    ← qualified_fault qualified, ← afterAlias_fault renamed, ← expectMark_fault opened,
    ← names_fault listed, ← expectWord_fault values]
  split at accepted
  · rfl
  · cases accepted

/-- Rows that pass are as wide as the first of them. -/
theorem width_of_checkRows (passed : checkRows none (count :: counts) = .ok ()) :
    ∀ other ∈ count :: counts, other = count := by
  -- The first row sets the width that is expected of all behind it.
  have later : ∀ {others : List Nat}, checkRows (some count) others = .ok () →
      ∀ other ∈ others, other = count := by
    intro others passed
    induction others with
    | nil => exact nofun
    | cons other others ih =>
      by_cases empty : other = 0
      · simp [checkRows, empty] at passed
      · by_cases same : count = other
        · simp only [checkRows, empty, if_false, Option.all_some, same, decide_true,
            if_true] at passed
          exact List.forall_mem_cons.mpr ⟨same.symm, ih (same ▸ passed)⟩
        · simp [checkRows, empty, same] at passed
  by_cases empty : count = 0
  · simp [checkRows, empty] at passed
  · simp only [checkRows, empty, if_false, Option.all_none, if_true] at passed
    exact List.forall_mem_cons.mpr ⟨rfl, later passed⟩

/-- A text that is accepted with some rows is accepted with any that have one width. -/
theorem parse_of_ok (accepted : parse text counts = .ok statement) {others : List Nat}
    (even : checkRows none others = .ok ()) : parse text others = .ok statement := by
  obtain ⟨sound, passed⟩ := parse_ok accepted
  rw [← accepted]
  simp only [parse, Token.tokenize_of_sound sound (rowsText others), even, passed]

end Insert

/-! ## Two statements as one -/

/-- What two statements with this head insert, one behind the other, could have been inserted by one
with the rows of both. -/
def Database.Joins {δ : Type} (database : Database δ) (head : String) : Prop :=
  ∀ {session middle after first second}, first ≠ [] → second ≠ [] →
    database.insert head first session = (.ok (), middle) →
    database.insert head second middle = (.ok (), after) →
      database.insert head (first ++ second) session = (.ok (), after)

/-- Inserting goes on from where it has come. -/
theorem Rows.insertAll_append (schema : Schema) (binding : Binding) (rows : Rows)
    (first second : List (List Cell)) :
    rows.insertAll schema binding (first ++ second) =
      rows.insertAll schema binding first >>= fun middle =>
        Rows.insertAll schema binding middle second := by
  unfold insertAll
  induction first generalizing rows with
  | nil => rfl
  | cons values rest ih =>
    rw [List.cons_append, insertIndexed, insertIndexed]
    cases newRow schema binding (Index.ofRows rows) values with
    | error refusal => rfl
    | ok row => exact ih (row :: rows)

namespace Session

variable {session : Session} {head : String} {first second : List (List Cell)}
  {binding other : Binding}

/-- A statement with the rows of two has the binding of both. -/
theorem prepare_append (nonempty : first ≠ []) (more : second ≠ [])
    (prepared : session.prepare head first = .ok binding)
    (later : session.prepare head second = .ok other) :
    session.prepare head (first ++ second) = .ok binding ∧ other = binding := by
  obtain ⟨statement, parsed, found, bound, width⟩ := prepare_eq_ok.mp prepared
  obtain ⟨statement', parsed', -, bound', width'⟩ := prepare_eq_ok.mp later
  obtain ⟨-, even⟩ := Insert.parse_ok parsed
  obtain ⟨-, even'⟩ := Insert.parse_ok parsed'
  obtain rfl : statement = statement' :=
    Except.ok.inj ((Insert.parse_of_ok parsed even').symm.trans parsed')
  obtain ⟨row, rows, rfl⟩ := List.exists_cons_of_ne_nil nonempty
  obtain ⟨row', rows', rfl⟩ := List.exists_cons_of_ne_nil more
  -- Either statement has rows of as many values as the text names columns.
  have same : row'.length = row.length := width'.trans width.symm
  have wide : ∀ count ∈ (row :: rows).map (·.length), count = row.length :=
    Insert.width_of_checkRows even
  have wide' : ∀ count ∈ (row' :: rows').map (·.length), count = row'.length :=
    Insert.width_of_checkRows even'
  have joined : Insert.checkRows none ((row :: rows ++ row' :: rows').map (·.length)) = .ok () := by
    rw [List.map_append, ← even, Insert.checkRows_of_width (by simp) wide]
    apply Insert.checkRows_of_width
    · simp
    · intro count member
      rcases List.mem_append.mp member with front | behind
      · exact wide count front
      · exact (wide' count behind).trans same
  constructor
  · exact prepare_eq_ok.mpr ⟨statement, Insert.parse_of_ok parsed joined, found, bound, width⟩
  · exact Except.ok.inj (bound'.symm.trans bound)

/-- The rows of two statements are checked as those of one: a row against all before it, and the
references when all rows are there. -/
theorem joins (head : String) : database.Joins head := by
  intro session middle after first second nonempty more accepted later
  obtain ⟨binding, rows, prepared, inserted, -, rfl⟩ := insert_eq_ok.mp accepted
  obtain ⟨other, final, prepared', inserted', held, rfl⟩ := insert_eq_ok.mp later
  obtain ⟨both, rfl⟩ := prepare_append nonempty more prepared prepared'
  refine insert_eq_ok.mpr ⟨other, final, both, ?_, held, rfl⟩
  rw [Rows.insertAll_append, inserted]
  exact inserted'

end Session

end Batchwork.Table
