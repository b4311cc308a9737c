import Batchwork.Json.Record
import Batchwork.Table.Schema

/-!
# Sample data

Tables and records to rehearse with.
-/

namespace Batchwork.Rehearsal

open Json Table

/-! ## Tables -/

def accounts : Schema where
  name := "users"
  rowKey := some "id"
  columns := [
    { name := "id", affinity := .integer },
    { name := "name", affinity := .text, notNull := true },
    { name := "email", affinity := .text, notNull := true, uniqueness := .unique }]

/-- A table whose primary key is not the key of its rows. -/
def users : Schema where
  name := "users"
  columns := [
    { name := "id", affinity := .integer, uniqueness := .primaryKey },
    { name := "name", affinity := .text },
    { name := "username", affinity := .text }]

/-- A table that takes any values. -/
def loose : Schema where
  name := "loose"
  columns := [{ name := "a" }, { name := "b" }, { name := "c" }]

/-- A table whose rows refer to one another. -/
def nodes : Schema where
  name := "nodes"
  rowKey := some "id"
  columns := [
    { name := "id", affinity := .integer },
    { name := "parent", affinity := .integer, references := some "id" }]

/-- A table in which a key that is taken costs the whole transaction. -/
def abrupt : Schema where
  name := "abrupt"
  rowKey := some "id"
  onKeyConflict := .rollback
  columns := [{ name := "id", affinity := .integer }, { name := "name", affinity := .text }]

def schemas : List (String × Schema) :=
  [("accounts", accounts), ("users", users), ("loose", loose), ("nodes", nodes),
    ("abrupt", abrupt)]

/-! ## Records -/

structure User where
  id : Nat
  name : String
  username : String
  deriving Repr, DecidableEq, Inhabited

structure UserDraft where
  id : Option Nat := none
  name : Option String := none
  username : Option String := none

def User.record : Record UserDraft User where
  name := "User"
  fields := [
    { name := "id", isSet := (·.id.isSome)
      read := .map (fun v draft => { draft with id := some v }) (.natural "u64" 64) },
    { name := "name", isSet := (·.name.isSome)
      read := .map (fun v draft => { draft with name := some v }) .text },
    { name := "username", isSet := (·.username.isSome)
      read := .map (fun v draft => { draft with username := some v }) .text }]
  blank := {}
  finish draft := do
    let id ← draft.id.elim (.error "id") .ok
    let name ← draft.name.elim (.error "name") .ok
    let username ← draft.username.elim (.error "username") .ok
    return { id, name, username }

/-- A person, the tags of that person, and the person above. -/
inductive Profile where
  | mk (id : Int) (tags : List String) (boss : Option Profile)

structure ProfileDraft where
  id : Option Int := none
  tags : Option (List String) := none
  boss : Option (Option Profile) := none

/-- Whole numbers of sixty-four bits with a sign. -/
def int64 : Shape Int := .integer "i64" minInt maxInt

/-- Profiles with fewer than `levels` persons above. -/
def Profile.shape : (levels : Nat) → Shape Profile
  | 0 => fun _ => Decoder.failPeek .nestedTooDeep
  | levels + 1 =>
    let record : Record ProfileDraft Profile := {
      name := "Profile"
      fields := [
        { name := "id", isSet := (·.id.isSome)
          read := .map (fun v draft => { draft with id := some v }) int64 },
        { name := "tags", isSet := (·.tags.isSome), optional := true
          read := .map (fun v draft => { draft with tags := some v }) (.list .text) },
        { name := "boss", isSet := (·.boss.isSome)
          read := .map (fun v draft => { draft with boss := some v })
            (.option (Profile.shape levels)) }]
      blank := {}
      finish := fun draft => do
        let id ← draft.id.elim (.error "id") .ok
        return .mk id (draft.tags.getD []) draft.boss.join }
    record.shape

end Batchwork.Rehearsal
