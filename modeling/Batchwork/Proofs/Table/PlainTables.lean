import Batchwork.Table.Database
import Mathlib.Data.List.Nodup
import Mathlib.Data.List.Perm.Subperm

/-!
# Tables without constraints

A table whose columns may hold anything refuses no rows: the key of a row is one that is free, and
nothing else is checked. So a database of such a table does what it is asked to, and keeps the rows
in the order in which they were inserted. Main statement: `Session.serves`.
-/

namespace Batchwork.Table

/-! ## Keys that nobody asked for -/

namespace Index

/-- A search that ends at a taken key has passed taken keys alone. -/
theorem hasKey_of_freeKey {index : Index} {fuel : Nat} {key : Int}
    (taken : index.hasKey (index.freeKey fuel key) = true) {passed : Nat} (within : passed < fuel) :
    index.hasKey (key + passed) = true := by
  induction fuel generalizing key passed with
  | zero => exact absurd within (Nat.not_lt_zero passed)
  | succ fuel ih =>
    rw [freeKey] at taken
    split at taken
    case isTrue here =>
      cases passed with
      | zero => simpa using here
      | succ passed =>
        have later := ih taken (Nat.lt_of_succ_lt_succ within)
        rwa [Int.add_assoc, Int.add_comm 1, ← Int.natCast_succ] at later
    case isFalse free => exact absurd taken free

/-- Among more keys than are taken, one is free. -/
theorem hasKey_freeKey (index : Index) (key : Int) :
    index.hasKey (index.freeKey (index.keys.size + 1) key) = false := by
  by_contra found
  have taken : index.hasKey (index.freeKey (index.keys.size + 1) key) = true := by
    simpa using found
  let passed := (List.range (index.keys.size + 1)).map fun n : Nat => key + n
  have apart : passed.Nodup := List.nodup_range.map fun first second same =>
    Int.ofNat.inj (Int.add_left_cancel same)
  have known : passed ⊆ index.keys.toList := by
    intro other member
    obtain ⟨n, within, rfl⟩ := List.mem_map.mp member
    exact Std.HashSet.mem_toList.mpr (hasKey_of_freeKey taken (List.mem_range.mp within))
  have fewer := (apart.subperm known).length_le
  rw [List.length_map, List.length_range, Std.HashSet.length_toList] at fewer
  exact absurd fewer (Nat.not_succ_le_self _)

/-- A key that the index picks is free. -/
theorem hasKey_nextKey (rows : Rows) :
    (ofRows rows).hasKey (ofRows rows).nextKey = false := by
  unfold nextKey
  rw [maxKey?_ofRows]
  split
  case h_1 none =>
    rw [hasKey_ofRows, List.map_eq_nil_iff.mp (List.max?_eq_none_iff.mp none)]
    rfl
  case h_2 largest found =>
    split
    · obtain ⟨-, bound⟩ := List.max?_eq_some_iff.mp found
      rw [hasKey_ofRows, List.any_eq_false]
      intro row member same
      have less := bound row.key (List.mem_map_of_mem member)
      rw [beq_iff_eq] at same
      omega
    · exact hasKey_freeKey _ 1

end Index

/-! ## Rows that are not checked -/

/-- A table that refuses a row for nothing but a value that another row has. -/
structure Schema.Permissive (schema : Schema) : Prop where
  keyless : schema.rowKey = none
  nullable : ∀ column ∈ schema.columns, column.notNull = false
  unreferring : ∀ column ∈ schema.columns, column.references = none

/-- A table whose columns may hold anything. -/
structure Schema.Unconstrained (schema : Schema) : Prop extends schema.Permissive where
  free : ∀ column ∈ schema.columns, column.uniqueness = .free

namespace Rows

variable {schema : Schema} {binding : Binding}

/-- The cells that a table makes of the values of a row. -/
def image (schema : Schema) (binding : Binding) (values : List Cell) : List Cell :=
  (schema.columns.zip binding.places).map fun (column, place) =>
    match place with
    | some place => column.affinity.apply (values.getD place .null)
    | none => .null

/-- The cells of the rows in the order in which they were inserted. -/
def contents (rows : Rows) : List (List Cell) := rows.reverse.map (·.cells)

/-- No column whose values are unique holds the same in both rows. -/
def Differ (schema : Schema) (first second : List Cell) : Prop :=
  ∀ (number : Nat) (column : Column), schema.columns[number]? = some column →
    column.uniqueness ≠ .free → first[number]? ≠ second[number]?

theorem Differ.of_unconstrained (plain : schema.Unconstrained) (first second : List Cell) :
    Differ schema first second := by
  intro number column found unique
  exact absurd (plain.free column (List.mem_of_getElem? found)) unique

theorem checkNotNull_of_permissive (permissive : schema.Permissive) (cells : List Cell) :
    checkNotNull schema cells = .ok () := by
  unfold checkNotNull
  split
  case h_1 column cell found =>
    -- A column that refuses a cell would have to be one that may not be null.
    have nullable :=
      permissive.nullable column (List.of_mem_zip (List.mem_of_find?_eq_some found)).1
    have refused := List.find?_some found
    simp [nullable] at refused
  case h_2 => rfl

/-- Values that no row has pass. -/
theorem checkUnique_of_new {index : Index} {number : Nat} {columns : List Column}
    {cells : List Cell}
    (new : ∀ (place : Nat) column cell, columns[place]? = some column →
      column.uniqueness ≠ .free → cells[place]? = some cell →
        index.hasValue (number + place) cell = false) :
    checkUnique schema index number columns cells = .ok () := by
  induction columns generalizing number cells with
  | nil => rfl
  | cons column columns ih =>
    cases cells with
    | nil => rfl
    | cons cell cells =>
      have first : column.uniqueness ≠ .free → index.hasValue number cell = false :=
        fun unique => new 0 column cell rfl unique rfl
      have others : checkUnique schema index (number + 1) columns cells = .ok () := by
        apply ih
        intro place column cell found unique held
        have free := new (place + 1) column cell found unique held
        rwa [Nat.add_comm place, ← Nat.add_assoc] at free
      rw [checkUnique, if_neg, others]
      rintro ⟨-, unique, taken⟩
      rw [first unique] at taken
      cases taken

/-- What a row makes of its values joins the others if the unique ones among them are new. -/
theorem newRow_of_permissive (permissive : schema.Permissive) (keyless : binding.keyPlace = none)
    (rows : Rows) (values : List Cell) :
    newRow schema binding (Index.ofRows rows) values =
      checkUnique schema (Index.ofRows rows) 0 schema.columns (image schema binding values) >>=
        fun _ => .ok ⟨(Index.ofRows rows).nextKey, image schema binding values⟩ := by
  have key : keyOf (Index.ofRows rows) binding values = .ok (Index.ofRows rows).nextKey := by
    simp only [keyOf, keyless, Option.map_none]
  have cells : ((schema.columns.zip binding.places).map fun (column, place) =>
      cellOf schema (Index.ofRows rows).nextKey values column place) =
        image schema binding values := by
    simp only [cellOf, permissive.keyless, reduceCtorEq, if_false]
    rfl
  have free : checkKey schema (Index.ofRows rows) (Index.ofRows rows).nextKey = .ok () := by
    simp only [checkKey, Index.hasKey_nextKey, Bool.false_eq_true, if_false]
  simp only [newRow, key, bind, Except.bind, cells, checkNotNull_of_permissive permissive, free]
  rfl

/-- A row that differs from all others joins them. -/
theorem newRow_of_new (permissive : schema.Permissive) (keyless : binding.keyPlace = none)
    {rows : Rows} {values : List Cell}
    (new : ∀ row ∈ rows, Differ schema row.cells (image schema binding values)) :
    newRow schema binding (Index.ofRows rows) values =
      .ok ⟨(Index.ofRows rows).nextKey, image schema binding values⟩ := by
  have unique : checkUnique schema (Index.ofRows rows) 0 schema.columns
      (image schema binding values) = .ok () := by
    apply checkUnique_of_new
    intro place column cell found unique held
    rw [Index.hasValue_ofRows, List.any_eq_false, Nat.zero_add]
    intro row member same
    rw [decide_eq_true_eq] at same
    exact new row member place column found unique (same.trans held.symm)
  rw [newRow_of_permissive permissive keyless, unique]
  rfl

/-- Rows that differ from one another and from all others join them. -/
theorem insertAll_of_new (permissive : schema.Permissive) (keyless : binding.keyPlace = none)
    {rows : Rows} {values : List (List Cell)}
    (apart : (values.map (image schema binding)).Pairwise (Differ schema))
    (new : ∀ row ∈ rows, ∀ cells ∈ values.map (image schema binding),
      Differ schema row.cells cells) :
    ∃ after, rows.insertAll schema binding values = .ok after ∧
      contents after = contents rows ++ values.map (image schema binding) := by
  unfold insertAll
  induction values generalizing rows with
  | nil => exact ⟨rows, rfl, (List.append_nil _).symm⟩
  | cons first rest ih =>
    let row : Row := ⟨(Index.ofRows rows).nextKey, image schema binding first⟩
    obtain ⟨ahead, apart⟩ := List.pairwise_cons.mp apart
    have joins := newRow_of_new permissive keyless fun row member =>
      new row member _ List.mem_cons_self
    have later : ∀ other ∈ row :: rows, ∀ cells ∈ rest.map (image schema binding),
        Differ schema other.cells cells := by
      intro other member cells inside
      rcases List.mem_cons.mp member with rfl | before
      · exact ahead cells inside
      · exact new other before cells (List.mem_cons_of_mem _ inside)
    obtain ⟨after, inserted, cells⟩ := ih apart later
    refine ⟨after, ?_, ?_⟩
    · rw [insertIndexed, joins]
      exact inserted
    · rw [cells]
      simp [contents, row]

theorem referencesHold_of_permissive (permissive : schema.Permissive) (rows : Rows) :
    referencesHold schema rows = true := by
  simp only [referencesHold, List.all_eq_true]
  rintro ⟨column, number⟩ member
  simp [permissive.unreferring column (List.fst_mem_of_mem_zipIdx member)]

end Rows

/-! ## Statements for any number of rows -/

namespace Token

theorem read_of_ok {behind : String} {c : Char} {rest : List Char} {found : Token × List Char}
    (sound : read behind c rest = .ok found) (other : String) : read other c rest = .ok found := by
  unfold read at sound ⊢
  split at sound
  case h_1 close closes =>
    dsimp only at sound ⊢
    split at sound
    · exact sound
    · cases sound
  case h_2 closes => exact sound

/-- A text that can be read to its end does not depend on what stands behind it. -/
theorem tokenize_of_sound {behind : String} {fuel : Nat} {cs : List Char}
    (sound : (tokenize behind fuel cs).2 = none) (other : String) :
    tokenize other fuel cs = tokenize behind fuel cs := by
  induction fuel, cs using tokenize.induct behind with
  | case1 | case2 => rfl
  | case3 fuel rest ih =>
    rw [tokenize] at sound ⊢
    rw [ih sound, tokenize]
  | case4 fuel rest ih =>
    rw [tokenize] at sound ⊢
    rw [ih sound, tokenize]
  | case5 fuel c rest noLine noStars blank ih =>
    rw [tokenize, if_pos blank] at sound ⊢
    · rw [ih sound, tokenize, if_pos blank]
      all_goals assumption
    all_goals assumption
  | case6 fuel c rest noLine noStars solid fault refused =>
    rw [tokenize, if_neg solid, refused] at sound
    · cases sound
    all_goals assumption
  | case7 fuel c rest noLine noStars solid token left found tokens fault others ih =>
    rw [tokenize, if_neg solid, found] at sound
    · rw [tokenize, if_neg solid, read_of_ok found other, tokenize, if_neg solid, found]
      · simp only [ih sound]
      all_goals assumption
    all_goals assumption

end Token

namespace Insert

theorem checkRows_of_width {width : Nat} {counts : List Nat} (nonempty : counts ≠ [])
    (even : ∀ count ∈ counts, count = width) : checkRows none counts = checkRows none [width] := by
  have more : ∀ {others : List Nat}, (∀ count ∈ others, count = width) → width ≠ 0 →
      checkRows (some width) others = .ok () := by
    intro others same positive
    induction others with
    | nil => rfl
    | cons count others ih =>
      obtain ⟨rfl, same⟩ := List.forall_mem_cons.mp same
      simp [checkRows, positive, ih same]
  cases counts with
  | nil => exact absurd rfl nonempty
  | cons count others =>
    obtain ⟨rfl, same⟩ := List.forall_mem_cons.mp even
    by_cases empty : count = 0
    · simp [checkRows, empty]
    · simp [checkRows, empty, more same empty]

/-- A text that is read for one row is read for any number of such rows. -/
theorem parse_of_width {text : String} {width : Nat} {counts : List Nat}
    (sound : (Token.tokenize "" (text.length + 1) text.toList).2 = none) (nonempty : counts ≠ [])
    (even : ∀ count ∈ counts, count = width) : parse text counts = parse text [width] := by
  simp only [parse, Token.tokenize_of_sound sound, checkRows_of_width nonempty even]

end Insert

/-! ## Databases that refuse nothing -/

namespace Database

variable {δ ρ : Type}

/-- How a database looks from outside: the rows of its table in the order in which they were
inserted, and whether a session is in a transaction. -/
structure OrderedView (δ ρ : Type) where
  rows : δ → List ρ
  /-- The session is in no transaction, or in one that began when the table held these rows. -/
  stands : Option (List ρ) → δ → Prop
  /-- What the table makes of the values of a row. -/
  image : List Cell → ρ

/-- A database that does what it is asked to, where rows of `width` values are inserted by
statements of this head with no more than `limit` values. -/
structure Serves (database : Database δ) (view : OrderedView δ ρ) (head : String)
    (width limit : Nat) : Prop where
  begun : ∀ {session}, view.stands none session →
    ∃ after, database.begin session = (.ok (), after) ∧
      view.stands (some (view.rows session)) after ∧ view.rows after = view.rows session
  inserted : ∀ {session mode values}, view.stands mode session → values ≠ [] →
    (∀ row ∈ values, row.length = width) → values.length * width ≤ limit →
      ∃ after, database.insert head values session = (.ok (), after) ∧ view.stands mode after ∧
        view.rows after = view.rows session ++ values.map view.image
  committed : ∀ {session before}, view.stands (some before) session →
    ∃ after, database.commit session = (.ok (), after) ∧ view.stands none after ∧
      view.rows after = view.rows session
  rolledBack : ∀ {session before}, view.stands (some before) session →
    ∃ after, database.rollback session = (.ok (), after) ∧ view.stands none after ∧
      view.rows after = before

end Database

namespace Session

/-- A statement of this head binds rows of so many values, and none of them to the key. -/
structure Binds (schema : Schema) (head : String) (width : Nat) (binding : Binding) : Prop where
  readable : (Token.tokenize "" (head.length + 1) head.toList).2 = none
  prepared : ({ schema } : Session).prepare head [List.replicate width .null] = .ok binding
  keyless : binding.keyPlace = none

variable {schema : Schema} {head : String} {width : Nat} {binding : Binding} {session : Session}

theorem Binds.prepare (binds : Binds schema head width binding) (same : session.schema = schema)
    {values : List (List Cell)} (nonempty : values ≠ [])
    (even : ∀ row ∈ values, row.length = width) : session.prepare head values = .ok binding := by
  have counts : ∀ count ∈ values.map (·.length), count = width := by
    simpa using even
  have parsed := Insert.parse_of_width binds.readable (by simpa using nonempty) counts
  have first : (values.head?.map (·.length)).getD 0 = width := by
    cases values with
    | nil => exact absurd rfl nonempty
    | cons row rest => exact even row List.mem_cons_self
  rw [← binds.prepared]
  simp only [Session.prepare, findTable, same, parsed, first, List.map_singleton, List.head?_cons,
    List.length_replicate, Option.map_some, Option.getD_some]

/-- Rows that differ from one another and from those of the table are inserted by one statement. -/
theorem insert_of_new (permissive : schema.Permissive) (binds : Binds schema head width binding)
    (same : session.schema = schema) {values : List (List Cell)} (nonempty : values ≠ [])
    (even : ∀ row ∈ values, row.length = width)
    (apart : (values.map (Rows.image schema binding)).Pairwise (Rows.Differ schema))
    (new : ∀ row ∈ session.rows, ∀ cells ∈ values.map (Rows.image schema binding),
      Rows.Differ schema row.cells cells) :
    ∃ rows, session.insert head values = (.ok (), { session with rows }) ∧
      rows.contents = session.rows.contents ++ values.map (Rows.image schema binding) := by
  obtain ⟨rows, inserted, contents⟩ := Rows.insertAll_of_new permissive binds.keyless apart new
  refine ⟨rows, ?_, contents⟩
  simp [insert, binds.prepare same nonempty even, same, inserted,
    Rows.referencesHold_of_permissive permissive]

/-- The rows of a table in the order of their insertion. -/
def orderedView (schema : Schema) (binding : Binding) :
    Database.OrderedView Session (List Cell) where
  rows session := session.rows.contents
  stands
    | none, session => session.schema = schema ∧ session.savepoints = [] ∧ session.depth = 0
    | some before, session => session.schema = schema ∧ session.depth = 1 ∧
        ∃ savepoint : Savepoint, session.savepoints = [savepoint] ∧
          savepoint.before.contents = before
  image := Rows.image schema binding

/-- The database of the sessions refuses nothing of a table without constraints. -/
theorem serves (plain : schema.Unconstrained) (binds : Binds schema head width binding)
    (limit : Nat) : database.Serves (orderedView schema binding) head width limit where
  begun := by
    rintro session ⟨same, idle, depth⟩
    refine ⟨{ session with savepoints := [⟨0, session.rows⟩], depth := 1 }, ?_,
      ⟨same, rfl, _, rfl, rfl⟩, rfl⟩
    simp [database, answered, begin, settled, idle, depth]
  inserted := by
    intro session mode values stands nonempty even _
    have same : session.schema = schema := by
      cases mode <;> exact stands.1
    obtain ⟨rows, inserted, contents⟩ := insert_of_new plain.toPermissive binds same nonempty even
      (List.pairwise_of_forall (Rows.Differ.of_unconstrained plain))
      (fun _ _ _ _ => .of_unconstrained plain _ _)
    refine ⟨{ session with rows }, inserted, ?_, contents⟩
    cases mode <;> exact stands
  committed := by
    rintro session before ⟨same, depth, savepoint, only, rfl⟩
    refine ⟨{ session with savepoints := [], depth := 0 }, ?_, ⟨same, rfl, rfl⟩, rfl⟩
    simp [database, answered, commit, depth, settled, only, same,
      Rows.referencesHold_of_permissive plain.toPermissive]
  rolledBack := by
    rintro session before ⟨same, depth, savepoint, only, rfl⟩
    refine ⟨{ session with rows := savepoint.before, savepoints := [], depth := 0 }, ?_,
      ⟨same, rfl, rfl⟩, rfl⟩
    simp [database, answered, rollback, depth, settled, only, outermost]

end Session

end Batchwork.Table
